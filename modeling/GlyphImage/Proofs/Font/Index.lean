/-
Numbers and glyph indices. Every number of 32 bits but 0 is the index of its value, and no other number is one; in 16
bits an index is kept whole or not at all.
-/
import GlyphImage.Font.Error
import Mathlib

namespace GlyphImage.GlyphIndex

theorem exists_ofNat? {n : Nat} (hzero : n ≠ 0) (hlt : n < UInt32.size) :
    ∃ index, ofNat? n = some index ∧ index.val.toNat = n := by
  have hne : UInt32.ofNat n ≠ 0 := by
    intro heq
    have := congrArg UInt32.toNat heq
    rw [UInt32.toNat_ofNat_of_lt' hlt] at this
    exact hzero this
  refine ⟨⟨UInt32.ofNat n, hne⟩, ?_, UInt32.toNat_ofNat_of_lt' hlt⟩
  rw [ofNat?, if_pos hlt, ofUInt32?, dif_pos hne]

theorem eq_of_toNat {i j : GlyphIndex} (h : i.val.toNat = j.val.toNat) : i = j := by
  obtain ⟨i, hi⟩ := i
  obtain ⟨j, hj⟩ := j
  obtain rfl : i = j := UInt32.toNat_inj.1 h
  rfl

variable {index : GlyphIndex}

theorem toNat_ne_zero (index : GlyphIndex) : index.val.toNat ≠ 0 := by
  intro h
  exact index.val_ne_zero (UInt32.toNat_inj.1 h)

theorem ofNat?_eq_some_iff {n : Nat} : ofNat? n = some index ↔ index.val.toNat = n := by
  constructor
  · intro h
    unfold ofNat? ofUInt32? at h
    split_ifs at h with hlt hne
    obtain rfl := Option.some.inj h
    exact UInt32.toNat_ofNat_of_lt' hlt
  · rintro rfl
    obtain ⟨index', hindex', hnat⟩ := exists_ofNat? index.toNat_ne_zero index.val.toNat_lt
    rw [hindex', eq_of_toNat hnat]

end GlyphImage.GlyphIndex
