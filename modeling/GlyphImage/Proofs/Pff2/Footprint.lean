/-
Which bytes of a file its glyphs come from. A record is read from the bytes that it covers and from no other:
files of one length that agree on these read an entry alike (`IndexEntry.read_congr`). A record is read from the first
`n` bytes just if it ends by then (`IndexEntry.shows_take_iff`).

`Layout.dataStart` is the position behind the `DATA` header; from there on a file may be cut or extended without a change
to its sections (`Layout.Describes.take`, `Layout.Describes.append`).
-/
import GlyphImage.Proofs.Pff2.GlyphTable

namespace GlyphImage.Pff2

/-! ## Records -/

namespace IndexEntry

/-- byte `i` of the file belongs to the record of the entry: the record reaches from the offset to the end of the bitmap
that its header asks for, or to the end of the file if it does not fit -/
def Covers (file : List UInt8) (e : IndexEntry) (i : Nat) : Prop :=
  e.offset.toNat ≤ i ∧ i < file.length ∧
    ∀ g, e.Shows file g → i < e.offset.toNat + 10 + (g.width.toNat * g.height.toNat + 7) / 8

variable {file file' : List UInt8} {e : IndexEntry} {g : Glyph}

theorem covers_iff {i : Nat} :
    e.Covers file i ↔ e.offset.toNat ≤ i ∧ i < file.length ∧
      ∀ g ∈ e.glyph? file.toArray, i < e.offset.toNat + 10 + (g.width.toNat * g.height.toNat + 7) / 8 := by
  rw [Covers]
  refine and_congr_right' (and_congr_right' (forall_congr' fun g => ?_))
  rw [Option.mem_def, glyph?_eq_some_iff]

instance (file : List UInt8) (e : IndexEntry) (i : Nat) : Decidable (e.Covers file i) :=
  decidable_of_iff _ covers_iff.symm

theorem Shows.length_eq (h : e.Shows file g) :
    e.offset.toNat + g.encode.length = e.offset.toNat + 10 + (g.width.toNat * g.height.toNat + 7) / 8 := by
  rw [Glyph.length_encode, h.2.1, Glyph.headerSize, Glyph.byteCount, Nat.add_assoc]

/-- **A record is read from the first bytes of a file just if it ends within them.** -/
theorem shows_take_iff {n : Nat} :
    e.Shows (file.take n) g ↔ e.Shows file g ∧ e.offset.toNat + g.encode.length ≤ n := by
  rw [shows_iff_take, shows_iff_take, List.drop_take, List.take_take]
  constructor
  · rintro ⟨hcode, hexact, htake⟩
    have hlength := congrArg List.length htake
    rw [List.length_take, Glyph.length_encode, Glyph.headerSize] at hlength
    have hle : e.offset.toNat + g.encode.length ≤ n := by
      rw [Glyph.length_encode, Glyph.headerSize]
      omega
    rw [Nat.min_eq_left (by omega)] at htake
    exact ⟨⟨hcode, hexact, htake⟩, hle⟩
  · rintro ⟨⟨hcode, hexact, htake⟩, hle⟩
    refine ⟨hcode, hexact, ?_⟩
    rw [Nat.min_eq_left (by omega), htake]

/-- a record that is unchanged is still shown -/
theorem Shows.of_agree (h : e.Shows file g)
    (hagree : ∀ i, e.offset.toNat ≤ i → i < e.offset.toNat + g.encode.length → file[i]? = file'[i]?) :
    e.Shows file' g := by
  rw [shows_iff_take] at h ⊢
  obtain ⟨hcode, hexact, htake⟩ := h
  have hsame : (file'.drop e.offset.toNat).take g.encode.length =
      (file.drop e.offset.toNat).take g.encode.length := by
    refine List.ext_getElem? fun i => ?_
    rw [List.getElem?_take, List.getElem?_take, List.getElem?_drop, List.getElem?_drop]
    split_ifs with hi
    · exact (hagree _ (Nat.le_add_right _ _) (Nat.add_lt_add_left hi _)).symm
    · rfl
  exact ⟨hcode, hexact, hsame.trans htake⟩

/-- files of one length that agree on what an entry covers show the same glyph there -/
theorem shows_congr (hlength : file.length = file'.length) (hagree : ∀ i, e.Covers file i → file[i]? = file'[i]?) :
    e.Shows file g ↔ e.Shows file' g := by
  have hkeeps : ∀ g, e.Shows file g → e.Shows file' g := by
    intro g hg
    refine hg.of_agree fun i hle hlt => ?_
    by_cases hi : i < file.length
    · refine hagree i ⟨hle, hi, fun g' hg' => ?_⟩
      rw [hg'.unique hg, ← hg.length_eq]
      exact hlt
    · rw [List.getElem?_eq_none (by omega), List.getElem?_eq_none (by omega)]
  refine ⟨hkeeps g, fun hg => ?_⟩
  by_cases hreadable : e.Readable file
  · obtain ⟨g0, hg0⟩ := hreadable
    rw [hg.unique (hkeeps g0 hg0)]
    exact hg0
  · -- an unreadable entry covers all that follows its offset
    refine hg.of_agree fun i hle _ => ?_
    by_cases hi : i < file.length
    · exact (hagree i ⟨hle, hi, fun g' hg' => absurd ⟨g', hg'⟩ hreadable⟩).symm
    · rw [List.getElem?_eq_none (by omega), List.getElem?_eq_none (by omega)]

/-- what reading an entry gives, told by the glyph that it yields -/
theorem read_eq (file : Array UInt8) (e : IndexEntry) :
    e.read file =
      match e.glyph? file with
      | some g => .ok g
      | none => .error (if file.size < e.offset.toNat then .pastEnd e.code else .truncated e.code) := by
  unfold glyph? read
  split_ifs
  · rfl
  · cases Glyph.read? file e.code e.offset.toNat <;> rfl

/-- **A reading sees only what the record covers**: files of one length that agree there are read alike. -/
theorem read_congr (hlength : file.length = file'.length) (hagree : ∀ i, e.Covers file i → file[i]? = file'[i]?) :
    e.read file.toArray = e.read file'.toArray := by
  have hglyph : e.glyph? file.toArray = e.glyph? file'.toArray := by
    refine Option.ext fun g => ?_
    rw [glyph?_eq_some_iff, glyph?_eq_some_iff]
    exact shows_congr hlength hagree
  rw [read_eq, read_eq, hglyph, List.size_toArray, List.size_toArray, hlength]

end IndexEntry

/-! ## Layouts -/

namespace Layout

variable {l : Layout} {file : List UInt8} {length : UInt32} {rest : List UInt8}

/-- the position behind the `DATA` header: in front of it are the magic bytes, the sections and the header -/
def dataStart (l : Layout) : Nat := magic.length + (l.sections.map Section.size).sum + 8

theorem length_flatMap_encode (sections : List Section) :
    (sections.flatMap Section.encode).length = (sections.map Section.size).sum := by
  rw [List.length_flatMap]
  exact congrArg List.sum (List.map_congr_left fun s _ => s.length_encode)

/-- a file is what stands in front of `dataStart`, and the rest -/
theorem exists_front (l : Layout) (length : UInt32) :
    ∃ front, front.length = l.dataStart ∧ ∀ rest, bytes ⟨l.sections, .glyphData length rest⟩ = front ++ rest := by
  refine ⟨magic ++ l.sections.flatMap Section.encode ++ (Kind.glyphData.tag.bytes ++ Bytes.ofUInt32 length), ?_,
    fun rest => ?_⟩
  · rw [List.length_append, List.length_append, length_flatMap_encode]
    rfl
  · simp only [bytes, Tail.bytes, List.append_assoc]

theorem eq_of_tail (htail : l.tail = .glyphData length rest) : l = ⟨l.sections, .glyphData length rest⟩ := by
  rw [← htail]

theorem length_bytes (htail : l.tail = .glyphData length rest) : l.bytes.length = l.dataStart + rest.length := by
  obtain ⟨front, hfront, hbytes⟩ := l.exists_front length
  rw [eq_of_tail htail, hbytes, List.length_append, hfront]
  rfl

theorem getElem?_bytes (htail : l.tail = .glyphData length rest) {i : Nat} (hi : l.dataStart ≤ i) :
    l.bytes[i]? = rest[i - l.dataStart]? := by
  obtain ⟨front, hfront, hbytes⟩ := l.exists_front length
  rw [eq_of_tail htail, hbytes, List.getElem?_append_right (hfront ▸ hi), hfront]
  rfl

/-- a file may be cut behind its `DATA` header -/
theorem Describes.take (hl : l.Describes file) (htail : l.tail = .glyphData length rest) {n : Nat}
    (hn : l.dataStart ≤ n) :
    Describes ⟨l.sections, .glyphData length (rest.take (n - l.dataStart))⟩ (file.take n) := by
  obtain ⟨front, hfront, hbytes⟩ := l.exists_front length
  refine ⟨?_, hl.2⟩
  rw [hl.1, hbytes, eq_of_tail htail, hbytes, List.take_append, List.take_of_length_le (hfront ▸ hn), hfront]
  rfl

/-- a file that has a `DATA` header may go on -/
theorem Describes.append (hl : l.Describes file) (htail : l.tail = .glyphData length rest) (more : List UInt8) :
    Describes ⟨l.sections, .glyphData length (rest ++ more)⟩ (file ++ more) := by
  obtain ⟨front, -, hbytes⟩ := l.exists_front length
  refine ⟨?_, hl.2⟩
  rw [hl.1, hbytes, eq_of_tail htail, hbytes, List.append_assoc]

end Layout

end GlyphImage.Pff2
