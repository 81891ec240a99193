/-
Looking up a character. What is found has the right code (`Font.exists_of_position?`), and where the codes never fall
nothing is missed (`Font.Ordered.exists_position?`). Where they rise, the position of a glyph is found
(`Font.position?_eq_some_iff`), its index is one more (`Font.exists_glyphIndex`), and the index leads back to the glyph
(`Font.glyph?_eq_some`). Rising codes also bound the positions by the codes (`Font.Rising.le_code`), so that no index of a
character overflows.
-/
import GlyphImage.Pff2.Font
import GlyphImage.Proofs.Font.Index
import Mathlib

namespace GlyphImage.Pff2.Font

/-- the codes of the glyphs never fall; a code may stand several times -/
def Ordered (font : Font) : Prop := font.glyphs.toList.Pairwise fun g g' => g.code ≤ g'.code

/-- the codes of the glyphs rise strictly -/
def Rising (font : Font) : Prop := font.glyphs.toList.Pairwise fun g g' => g.code < g'.code

variable {font : Font} {i j p : Nat} {a b g : Glyph}

/-! ## Ordered codes -/

/-- what holds of every two glyphs in their order holds of the glyphs at two positions -/
theorem of_pairwise {r : Glyph → Glyph → Prop} (h : font.glyphs.toList.Pairwise r) (ha : font.glyphs[i]? = some a)
    (hb : font.glyphs[j]? = some b) (hij : i < j) : r a b := by
  obtain ⟨hi, rfl⟩ := Array.getElem?_eq_some_iff.1 ha
  obtain ⟨hj, rfl⟩ := Array.getElem?_eq_some_iff.1 hb
  exact List.pairwise_iff_getElem.1 h i j hi hj hij

theorem Ordered.code_le (h : font.Ordered) (ha : font.glyphs[i]? = some a) (hb : font.glyphs[j]? = some b)
    (hij : i ≤ j) : a.code ≤ b.code := by
  rcases Nat.eq_or_lt_of_le hij with rfl | hlt
  · rw [Option.some.inj (ha.symm.trans hb)]
    exact UInt32.le_refl _
  · exact of_pairwise h ha hb hlt

namespace Rising

theorem ordered (h : font.Rising) : font.Ordered := h.imp UInt32.le_of_lt

theorem code_lt (h : font.Rising) (ha : font.glyphs[i]? = some a) (hb : font.glyphs[j]? = some b) (hij : i < j) :
    a.code < b.code :=
  of_pairwise h ha hb hij

/-- a code stands at one position only -/
theorem position_unique (h : font.Rising) (ha : font.glyphs[i]? = some a) (hb : font.glyphs[j]? = some b)
    (hcode : a.code = b.code) : i = j := by
  rcases Nat.lt_trichotomy i j with hlt | heq | hgt
  · exact absurd hcode (UInt32.ne_of_lt (h.code_lt ha hb hlt))
  · exact heq
  · exact absurd hcode.symm (UInt32.ne_of_lt (h.code_lt hb ha hgt))

/-- a position is at most the code there: every glyph in front has a smaller code of its own -/
theorem le_code (h : font.Rising) (ha : font.glyphs[i]? = some a) : i ≤ a.code.toNat := by
  induction i generalizing a with
  | zero => exact Nat.zero_le _
  | succ i ih =>
    obtain ⟨hi, -⟩ := Array.getElem?_eq_some_iff.1 ha
    have hprev : font.glyphs[i]? = some font.glyphs[i] := Array.getElem?_eq_getElem (by omega)
    have hle := ih hprev
    have hlt := UInt32.lt_iff_toNat_lt.1 (h.code_lt hprev ha (Nat.lt_succ_self i))
    omega

end Rising

/-! ## Positions -/

theorem codeAtMost_eq_true {font : Font} {p : Nat} {code : UInt32} {g : Glyph} (hg : font.glyphs[p]? = some g) :
    font.codeAtMost p code = true ↔ g.code ≤ code := by
  unfold codeAtMost
  rw [hg, Option.any_some, decide_eq_true_iff]

/-- what is found has the code, whatever the order of the glyphs -/
theorem exists_of_position? {font : Font} {code : UInt32} {p : Nat} (h : font.position? code = some p) :
    ∃ g, font.glyphs[p]? = some g ∧ g.code = code := by
  unfold position? at h
  obtain ⟨g, hg, hp⟩ := Option.bind_eq_some_iff.1 h
  split at hp
  · rename_i hcode
    obtain rfl := Option.some.inj hp
    exact ⟨g, hg, hcode⟩
  · cases hp

/-- **The search misses no code**, if the codes never fall: it ends at the last position whose code is not above. -/
theorem Ordered.exists_position? (h : font.Ordered) (hg : font.glyphs[p]? = some g) :
    ∃ q, font.position? g.code = some q := by
  obtain ⟨hp, -⟩ := Array.getElem?_eq_some_iff.1 hg
  have hat : ∀ q, q < font.glyphs.size → ∃ a, font.glyphs[q]? = some a := fun q hq =>
    ⟨font.glyphs[q], Array.getElem?_eq_getElem hq⟩
  -- a position in front of one that is small enough is small enough itself
  have hfirst : ∀ q r, 0 ≤ q → q ≤ r → r < 0 + font.glyphs.size →
      font.codeAtMost r g.code = true → font.codeAtMost q g.code = true := by
    intro q r _ hqr hr hbelow
    obtain ⟨a, ha⟩ := hat q (by omega)
    obtain ⟨b, hb⟩ := hat r (by omega)
    exact (codeAtMost_eq_true ha).2 (UInt32.le_trans (h.code_le ha hb hqr) ((codeAtMost_eq_true hb).1 hbelow))
  have hself : font.codeAtMost p g.code = true := (codeAtMost_eq_true hg).2 (UInt32.le_refl _)
  have hbase := hfirst 0 p (Nat.le_refl 0) (Nat.zero_le p) (by omega) hself
  obtain ⟨hlast, habove⟩ := Halving.last_splits (font.codeAtMost · g.code) 0 font.glyphs.size (by omega) hbase hfirst
  have hlt := Halving.last_lt (font.codeAtMost · g.code) font.glyphs.size (by omega)
  have hle : p ≤ Halving.last (font.codeAtMost · g.code) 0 font.glyphs.size := by
    by_contra hless
    rw [habove p (by omega) (by omega)] at hself
    cases hself
  obtain ⟨a, ha⟩ := hat _ hlt
  have hcode : a.code = g.code := UInt32.le_antisymm ((codeAtMost_eq_true ha).1 hlast) (h.code_le hg ha hle)
  refine ⟨Halving.last (font.codeAtMost · g.code) 0 font.glyphs.size, ?_⟩
  unfold position?
  simp only [ha, Option.bind_some, if_pos hcode]

/-- **The search finds a code exactly where it stands**, if the codes rise. -/
theorem position?_eq_some_iff (h : font.Rising) {code : UInt32} :
    font.position? code = some p ↔ ∃ g, font.glyphs[p]? = some g ∧ g.code = code := by
  refine ⟨exists_of_position?, ?_⟩
  rintro ⟨g, hg, rfl⟩
  obtain ⟨q, hq⟩ := h.ordered.exists_position? hg
  obtain ⟨g', hg', hcode⟩ := exists_of_position? hq
  rw [hq, h.position_unique hg' hg hcode]

/-- a code that no glyph has is not found -/
theorem position?_eq_none {font : Font} {code : UInt32} (h : ∀ g ∈ font.glyphs, g.code ≠ code) :
    font.position? code = none := by
  cases hp : font.position? code with
  | none => rfl
  | some p =>
    obtain ⟨g, hg, hcode⟩ := exists_of_position? hp
    exact absurd hcode (h g (Array.mem_of_getElem? hg))

/-! ## Characters -/

/-- indices count from one to the number of glyphs -/
theorem ofIndex?_eq_none_iff {index : GlyphIndex} :
    font.ofIndex? index = none ↔ font.glyphs.size < index.val.toNat := by
  have hpos := index.toNat_ne_zero
  rw [ofIndex?, Array.getElem?_eq_none_iff]
  omega

/-- an index of a character leads to a glyph with its code, whatever the order of the glyphs -/
theorem exists_of_glyphIndex {character : Char} {index : GlyphIndex} (h : font.glyphIndex character = some index) :
    ∃ g, font.ofIndex? index = some g ∧ g.code = character.val := by
  obtain ⟨p, hp, hindex⟩ := Option.bind_eq_some_iff.1 h
  obtain ⟨g, hg, hcode⟩ := exists_of_position? hp
  refine ⟨g, ?_, hcode⟩
  rw [ofIndex?, GlyphIndex.ofNat?_eq_some_iff.1 hindex, Nat.add_sub_cancel, hg]

/-- **Every code that stands has an index**, if the codes never fall and the positions can be numbered. -/
theorem Ordered.exists_glyphIndex_iff (h : font.Ordered) (hsize : font.glyphs.size < UInt32.size) {character : Char} :
    (∃ index, font.glyphIndex character = some index) ↔ ∃ g ∈ font.glyphs, g.code = character.val := by
  constructor
  · rintro ⟨index, hindex⟩
    obtain ⟨g, hg, hcode⟩ := exists_of_glyphIndex hindex
    exact ⟨g, Array.mem_of_getElem? hg, hcode⟩
  · rintro ⟨g, hg, hcode⟩
    obtain ⟨p, hp⟩ := Array.mem_iff_getElem?.1 hg
    obtain ⟨q, hq⟩ := h.exists_position? hp
    obtain ⟨g', hg', -⟩ := exists_of_position? hq
    obtain ⟨hlt, -⟩ := Array.getElem?_eq_some_iff.1 hg'
    obtain ⟨index, hindex, -⟩ := GlyphIndex.exists_ofNat? (Nat.succ_ne_zero q) (Nat.lt_of_le_of_lt hlt hsize)
    refine ⟨index, ?_⟩
    rw [glyphIndex, ← hcode, hq, Option.bind_some, hindex]

/-- **A character's index is one more than the position of its glyph**, if the codes rise. -/
theorem exists_glyphIndex {font : Font} (h : font.Rising) {character : Char} {p : Nat} {g : Glyph}
    (hg : font.glyphs[p]? = some g) (hcode : g.code = character.val) :
    ∃ index, font.glyphIndex character = some index ∧ index.val.toNat = p + 1 ∧
      font.ofIndex? index = some g := by
  have hposition : font.position? character.val = some p := (position?_eq_some_iff h).2 ⟨g, hg, hcode⟩
  have hle := h.le_code hg
  have hvalid : character.val.toNat < 0x110000 := character.valid.elim (by omega) (·.2)
  rw [hcode] at hle
  have hlt : p + 1 < UInt32.size := Nat.lt_trans (Nat.lt_of_le_of_lt (Nat.succ_le_succ hle) (Nat.succ_lt_succ hvalid))
    (by decide)
  obtain ⟨index, hindex, hnat⟩ := GlyphIndex.exists_ofNat? (Nat.succ_ne_zero p) hlt
  refine ⟨index, ?_, hnat, ?_⟩
  · rw [glyphIndex, hposition, Option.bind_some, hindex]
  · rw [ofIndex?, hnat, Nat.succ_sub_one, hg]

theorem glyph?_eq_some {font : Font} (h : font.Rising) {character : Char} {g : Glyph} (hg : g ∈ font.glyphs)
    (hcode : g.code = character.val) : font.glyph? character = some g := by
  obtain ⟨p, hp⟩ := Array.mem_iff_getElem?.1 hg
  obtain ⟨index, hindex, -, hglyph⟩ := exists_glyphIndex h hp hcode
  rw [glyph?, hindex, Option.bind_some, hglyph]

/-- a character without a glyph has no index -/
theorem glyphIndex_eq_none {font : Font} {character : Char} (h : ∀ g ∈ font.glyphs, g.code ≠ character.val) :
    font.glyphIndex character = none := by
  rw [glyphIndex, position?_eq_none h, Option.bind_none]

theorem glyph?_eq_none {font : Font} {character : Char} (h : ∀ g ∈ font.glyphs, g.code ≠ character.val) :
    font.glyph? character = none := by
  rw [glyph?, glyphIndex_eq_none h, Option.bind_none]

end GlyphImage.Pff2.Font
