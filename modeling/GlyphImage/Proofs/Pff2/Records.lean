/-
Reading a glyph record and writing one are each other's inverse. An index entry yields a glyph if and only if the
glyph's record stands at the entry's offset, with a bitmap of just the size that its header asks for
(`IndexEntry.glyph?_eq_some_iff`). So an entry shows at most one glyph (`IndexEntry.Shows.unique`), and it is readable
if and only if it yields one (`IndexEntry.readable_iff`).
-/
import GlyphImage.Pff2.Layout
import Mathlib

namespace GlyphImage.Pff2

/-! ## Records -/

namespace Glyph

/-- the ten header bytes of a record and what they spell -/
theorem exists_header (g : Glyph) :
    ∃ w1 w2 h1 h2 x1 x2 y1 y2 d1 d2,
      g.encode = [w1, w2, h1, h2, x1, x2, y1, y2, d1, d2] ++ g.bitmap.toList ∧ Bytes.uint16 w1 w2 = g.width ∧
        Bytes.uint16 h1 h2 = g.height ∧ Bytes.int16 x1 x2 = g.xOffset ∧ Bytes.int16 y1 y2 = g.yOffset ∧
        Bytes.int16 d1 d2 = g.deviceWidth := by
  obtain ⟨w1, w2, hw, hwidth⟩ := Bytes.exists_ofUInt16 g.width
  obtain ⟨h1, h2, hh, hheight⟩ := Bytes.exists_ofUInt16 g.height
  obtain ⟨x1, x2, hx, hxOffset⟩ := Bytes.exists_ofInt16 g.xOffset
  obtain ⟨y1, y2, hy, hyOffset⟩ := Bytes.exists_ofInt16 g.yOffset
  obtain ⟨d1, d2, hd, hdeviceWidth⟩ := Bytes.exists_ofInt16 g.deviceWidth
  refine ⟨w1, w2, h1, h2, x1, x2, y1, y2, d1, d2, ?_, hwidth, hheight, hxOffset, hyOffset, hdeviceWidth⟩
  rw [encode, hw, hh, hx, hy, hd]
  rfl

@[simp] theorem length_encode (g : Glyph) : g.encode.length = headerSize + g.bitmap.size := by
  obtain ⟨w1, w2, h1, h2, x1, x2, y1, y2, d1, d2, hencode, -⟩ := g.exists_header
  rw [hencode, List.length_append, Array.length_toList]
  rfl

theorem exists_of_length_eq_headerSize {bytes : List UInt8} (h : bytes.length = headerSize) :
    ∃ w1 w2 h1 h2 x1 x2 y1 y2 d1 d2, bytes = [w1, w2, h1, h2, x1, x2, y1, y2, d1, d2] := by
  match bytes, h with
  | [w1, w2, h1, h2, x1, x2, y1, y2, d1, d2], _ => exact ⟨w1, w2, h1, h2, x1, x2, y1, y2, d1, d2, rfl⟩

theorem extract_toArray (file : List UInt8) (start stop : Nat) :
    (file.toArray.extract start stop).toList = (file.drop start).take (stop - start) := by
  rw [Array.toList_extract, List.extract_eq_take_drop]

/-- a record that stands in the file is read -/
theorem read?_of_append {g : Glyph} (hexact : g.Exact) (before after : List UInt8) :
    read? (before ++ g.encode ++ after).toArray g.code before.length = some g := by
  obtain ⟨w1, w2, h1, h2, x1, x2, y1, y2, d1, d2, hencode, hw, hh, hx, hy, hd⟩ := g.exists_header
  have hheader : ((before ++ g.encode ++ after).toArray.extract before.length (before.length + headerSize)).toList =
      [w1, w2, h1, h2, x1, x2, y1, y2, d1, d2] := by
    rw [extract_toArray, List.append_assoc, List.drop_left, Nat.add_sub_cancel_left, hencode]
    rfl
  have hbitmap : (before ++ g.encode ++ after).toArray.extract (before.length + headerSize)
      (before.length + headerSize + byteCount g.width.toNat g.height.toNat) = g.bitmap := by
    rw [← Array.toList_inj, extract_toArray, List.append_assoc, ← List.drop_drop, List.drop_left,
      Nat.add_sub_cancel_left, hencode, ← hexact, ← Array.length_toList]
    exact List.take_left
  unfold read?
  simp only [hheader, hw, hh, hx, hy, hd, hbitmap]
  exact if_pos hexact

/-- what is read stands in the file -/
theorem encode_of_read? {file : List UInt8} {code : UInt32} {offset : Nat} {g : Glyph}
    (h : read? file.toArray code offset = some g) :
    g.code = code ∧ g.Exact ∧ g.encode = (file.drop offset).take g.encode.length := by
  unfold read? at h
  split at h
  · rename_i w1 w2 h1 h2 x1 x2 y1 y2 d1 d2 hheader
    simp only at h
    split at h
    · rename_i hsize
      obtain rfl := Option.some.inj h
      refine ⟨rfl, hsize, ?_⟩
      rw [extract_toArray, Nat.add_sub_cancel_left] at hheader
      -- header and bitmap are two pieces of the file that follow each other
      rw [length_encode, hsize, List.take_add, List.drop_drop, hheader, encode, extract_toArray,
        Nat.add_sub_cancel_left]
      simp only [Bytes.ofUInt16_uint16, Bytes.ofInt16_int16]
      rfl
    · cases h
  · cases h

/-- bytes that are as many as the size in them asks for start with a record -/
theorem exists_encode_append {bytes : List UInt8} {w1 w2 h1 h2 : UInt8} (code : UInt32)
    (hsize : bytes.take 4 = [w1, w2, h1, h2])
    (hlength : headerSize + byteCount (Bytes.uint16 w1 w2).toNat (Bytes.uint16 h1 h2).toNat ≤ bytes.length) :
    ∃ (g : Glyph) (after : List UInt8), g.code = code ∧ g.Exact ∧ bytes = g.encode ++ after := by
  have hten : (bytes.take headerSize).length = headerSize := List.length_take_of_le (by omega)
  obtain ⟨a1, a2, a3, a4, x1, x2, y1, y2, d1, d2, hheader⟩ := exists_of_length_eq_headerSize hten
  have hfour : (bytes.take headerSize).take 4 = [w1, w2, h1, h2] := by
    rw [List.take_take]
    exact hsize
  rw [hheader] at hfour
  obtain ⟨rfl, rfl, rfl, rfl⟩ : a1 = w1 ∧ a2 = w2 ∧ a3 = h1 ∧ a4 = h2 := by simpa using hfour
  let count := byteCount (Bytes.uint16 a1 a2).toNat (Bytes.uint16 a3 a4).toNat
  have hcount : ((bytes.drop headerSize).take count).length = count :=
    List.length_take_of_le (by simp only [List.length_drop]; omega)
  refine ⟨⟨code, Bytes.uint16 a1 a2, Bytes.uint16 a3 a4, Bytes.int16 x1 x2, Bytes.int16 y1 y2, Bytes.int16 d1 d2,
    ((bytes.drop headerSize).take count).toArray⟩, (bytes.drop headerSize).drop count, rfl, hcount, ?_⟩
  rw [encode]
  simp only [Bytes.ofUInt16_uint16, Bytes.ofInt16_int16]
  calc bytes = bytes.take headerSize ++ bytes.drop headerSize := (List.take_append_drop _ _).symm
    _ = bytes.take headerSize ++
        ((bytes.drop headerSize).take count ++ (bytes.drop headerSize).drop count) := by
      rw [List.take_append_drop count]
    _ = _ := by
      rw [hheader, ← List.append_assoc]
      rfl

end Glyph

/-! ## Entries -/

namespace IndexEntry

theorem glyph?_eq (file : Array UInt8) (e : IndexEntry) :
    e.glyph? file = if file.size < e.offset.toNat then none else Glyph.read? file e.code e.offset.toNat := by
  unfold glyph? read
  split
  · rfl
  · cases Glyph.read? file e.code e.offset.toNat <;> rfl

/-- an entry shows a glyph if and only if the bytes from its offset on start with the glyph's record -/
theorem shows_iff_take {file : List UInt8} {e : IndexEntry} {g : Glyph} :
    e.Shows file g ↔
      g.code = e.code ∧ g.Exact ∧ (file.drop e.offset.toNat).take g.encode.length = g.encode := by
  constructor
  · rintro ⟨hcode, hexact, before, after, rfl, hbefore⟩
    refine ⟨hcode, hexact, ?_⟩
    rw [← hbefore, List.append_assoc, List.drop_left, List.take_left]
  · rintro ⟨hcode, hexact, htake⟩
    -- a record is not empty, so its offset is inside the file
    have hlength := congrArg List.length htake
    rw [List.length_take, List.length_drop, Glyph.length_encode, Glyph.headerSize] at hlength
    have hrest := List.take_append_drop g.encode.length (file.drop e.offset.toNat)
    rw [htake] at hrest
    refine ⟨hcode, hexact, file.take e.offset.toNat, (file.drop e.offset.toNat).drop g.encode.length, ?_,
      List.length_take_of_le (by omega)⟩
    rw [List.append_assoc, hrest, List.take_append_drop]

/-- **An entry yields a glyph if and only if the glyph's record stands at its offset.** -/
theorem glyph?_eq_some_iff {file : List UInt8} {e : IndexEntry} {g : Glyph} :
    e.glyph? file.toArray = some g ↔ e.Shows file g := by
  rw [glyph?_eq, List.size_toArray]
  constructor
  · intro h
    split_ifs at h
    obtain ⟨hcode, hexact, hencode⟩ := Glyph.encode_of_read? h
    exact shows_iff_take.2 ⟨hcode, hexact, hencode.symm⟩
  · rintro ⟨hcode, hexact, before, after, rfl, hbefore⟩
    rw [if_neg (by simp only [List.length_append]; omega), ← hcode, ← hbefore]
    exact Glyph.read?_of_append hexact before after

theorem code_of_glyph? {file : List UInt8} {e : IndexEntry} {g : Glyph} (h : e.glyph? file.toArray = some g) :
    g.code = e.code :=
  (glyph?_eq_some_iff.1 h).1

/-- an entry shows at most one glyph -/
theorem Shows.unique {file : List UInt8} {e : IndexEntry} {g g' : Glyph} (h : e.Shows file g) (h' : e.Shows file g') :
    g = g' := by
  rw [← glyph?_eq_some_iff] at h h'
  exact Option.some.inj (h.symm.trans h')

theorem readable_iff {file : List UInt8} {e : IndexEntry} : e.Readable file ↔ (e.glyph? file.toArray).isSome = true := by
  rw [Option.isSome_iff_exists]
  exact exists_congr fun g => glyph?_eq_some_iff.symm

instance (file : List UInt8) (e : IndexEntry) (g : Glyph) : Decidable (e.Shows file g) :=
  decidable_of_iff _ glyph?_eq_some_iff

instance (file : List UInt8) (e : IndexEntry) : Decidable (e.Readable file) := decidable_of_iff _ readable_iff.symm

/-- **Readable means inside the file**: the header does, and after it as many bytes as the size in it asks for. -/
theorem readable_iff_inside {file : List UInt8} {e : IndexEntry} :
    e.Readable file ↔ ∃ w1 w2 h1 h2, (file.drop e.offset.toNat).take 4 = [w1, w2, h1, h2] ∧
      e.offset.toNat + Glyph.headerSize + Glyph.byteCount (Bytes.uint16 w1 w2).toNat (Bytes.uint16 h1 h2).toNat ≤
        file.length := by
  constructor
  · rintro ⟨g, -, hexact, before, after, rfl, hbefore⟩
    obtain ⟨w1, w2, h1, h2, x1, x2, y1, y2, d1, d2, hencode, hw, hh, -⟩ := g.exists_header
    refine ⟨w1, w2, h1, h2, ?_, ?_⟩
    · rw [← hbefore, List.append_assoc, List.drop_left, hencode]
      rfl
    · rw [hw, hh, ← hexact, List.length_append, List.length_append, Glyph.length_encode, hbefore]
      omega
  · rintro ⟨w1, w2, h1, h2, hsize, hlength⟩
    obtain ⟨g, after, hcode, hexact, hdrop⟩ := Glyph.exists_encode_append e.code hsize
      (by rw [List.length_drop]; omega)
    exact ⟨g, shows_iff_take.2 ⟨hcode, hexact, by rw [hdrop, List.take_left]⟩⟩

/-- the bitmap of a glyph is what the file holds behind the ten header bytes -/
theorem Shows.bitmap_eq {file : List UInt8} {e : IndexEntry} {g : Glyph} (h : e.Shows file g) :
    g.bitmap.toList =
      (file.drop (e.offset.toNat + Glyph.headerSize)).take (Glyph.byteCount g.width.toNat g.height.toNat) := by
  obtain ⟨-, hexact, before, after, rfl, hbefore⟩ := h
  obtain ⟨w1, w2, h1, h2, x1, x2, y1, y2, d1, d2, hencode, -⟩ := g.exists_header
  rw [← hbefore, List.append_assoc, ← List.drop_drop, List.drop_left, hencode, ← hexact, ← Array.length_toList]
  exact List.take_left.symm

end IndexEntry

end GlyphImage.Pff2
