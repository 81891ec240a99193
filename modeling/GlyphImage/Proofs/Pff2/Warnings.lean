/-
What is reported about a file that is accepted. The record of an index entry lies inside the file, or it is out of reach,
because the entry's offset is behind the end of the file or because the header or the bitmap runs over it
(`IndexEntry.not_readable_iff`). Each entry of the last kind gets one warning (`IndexEntry.warning?_eq`), and no other
entry gets any, so that the warnings are a sublist of the index, told in words (`unreadable_entries_are_reported`).
-/
import GlyphImage.Proofs.Pff2.Footprint
import GlyphImage.Proofs.Pff2.Grammar

namespace GlyphImage.Pff2

/-! ## Entries -/

namespace IndexEntry

variable {file : List UInt8} {e : IndexEntry}

/-- the entry leads into the file or to its end, but the ten header bytes run over the end, or the bitmap of the size in
them does -/
def CutOff (file : List UInt8) (e : IndexEntry) : Prop :=
  e.offset.toNat ≤ file.length ∧
    (file.length < e.offset.toNat + 10 ∨
      ∃ w1 w2 h1 h2, (file.drop e.offset.toNat).take 4 = [w1, w2, h1, h2] ∧
        file.length < e.offset.toNat + 10 + ((Bytes.uint16 w1 w2).toNat * (Bytes.uint16 h1 h2).toNat + 7) / 8)

/-- **A record that cannot be read** is behind the end of the file, or runs over it. -/
theorem not_readable_iff : ¬e.Readable file ↔ file.length < e.offset.toNat ∨ e.CutOff file := by
  rw [readable_iff_inside]
  constructor
  · intro houtside
    by_cases hbehind : file.length < e.offset.toNat
    · exact Or.inl hbehind
    · refine Or.inr ⟨Nat.le_of_not_lt hbehind, ?_⟩
      by_cases hshort : file.length < e.offset.toNat + 10
      · exact Or.inl hshort
      · -- the header is there, so it is the bitmap that does not fit
        have hfour : ((file.drop e.offset.toNat).take 4).length = 4 :=
          List.length_take_of_le (by rw [List.length_drop]; omega)
        obtain ⟨w1, w2, h1, h2, hsize⟩ := List.length_eq_four.1 hfour
        exact Or.inr ⟨w1, w2, h1, h2, hsize, Nat.lt_of_not_le fun hle => houtside ⟨w1, w2, h1, h2, hsize, hle⟩⟩
  · rintro hout ⟨w1, w2, h1, h2, hsize, hinside⟩
    rw [Glyph.headerSize, Glyph.byteCount] at hinside
    rcases hout with hbehind | ⟨-, hshort | ⟨v1, v2, k1, k2, hsize', hlong⟩⟩
    · omega
    · omega
    · obtain ⟨rfl, rfl, rfl, rfl⟩ : w1 = v1 ∧ w2 = v2 ∧ h1 = k1 ∧ h2 = k2 := by
        simpa using hsize.symm.trans hsize'
      omega

/-- the warning about an entry whose record cannot be read -/
def complaint (file : List UInt8) (e : IndexEntry) : Warning :=
  if file.length < e.offset.toNat then .pastEnd e.code else .truncated e.code

/-- **An entry is warned about just if its record cannot be read.** -/
theorem warning?_eq (file : List UInt8) (e : IndexEntry) :
    e.warning? file.toArray = if e.Readable file then none else some (e.complaint file) := by
  unfold warning? complaint
  rw [read_eq, List.size_toArray]
  cases hglyph : e.glyph? file.toArray with
  | some g =>
    have hreadable : e.Readable file := ⟨g, glyph?_eq_some_iff.1 hglyph⟩
    simp only [if_pos hreadable]
  | none =>
    have hunreadable : ¬e.Readable file := by simp [readable_iff, hglyph]
    simp only [if_neg hunreadable]

theorem filterMap_warning? (file : List UInt8) (index : List IndexEntry) :
    index.filterMap (warning? file.toArray) = (index.filter fun e => ¬e.Readable file).map (complaint file) := by
  induction index with
  | nil => rfl
  | cons e rest ih =>
    rw [List.filterMap_cons, warning?_eq, List.filter_cons, ih]
    by_cases hreadable : e.Readable file
    · simp [hreadable]
    · simp [hreadable]

end IndexEntry

/-! ## Files -/

theorem finish_warnings {file : Array UInt8} {d : Draft} {t : Tail} {parsed : Parsed}
    (h : finish file d t.ending = .ok parsed) :
    parsed.warnings = if t = .endOfFile then [] else d.index.filterMap (IndexEntry.warning? file) := by
  cases t with
  | endOfFile => cases h; rfl
  | glyphData length rest => cases h; rfl

/-- **Every unreadable entry is reported once, and nothing else is.** A file that ends before a `DATA` header is accepted
without a warning. Otherwise the warnings are about the entries of the index whose record cannot be read, one for each and
in their order: an offset behind the end of the file is told apart from a record that runs over the end, and there is no
third reason. So the entries are as many as the warnings and the readable entries together. -/
theorem unreadable_entries_are_reported (file : List UInt8) (parsed : Parsed) (h : parse file = .ok parsed) :
    ∃ (l : Layout) (index : List IndexEntry), l.Describes file ∧ l.HasIndex index ∧
      (l.tail = .endOfFile → parsed.warnings = []) ∧
      (l.tail ≠ .endOfFile →
        (parsed.warnings.map Warning.message = (index.filter fun e => ¬e.Readable file).map fun e =>
          "Glyph U+" ++ Hexadecimal.upper 4 e.code.toNat ++
            if file.length < e.offset.toNat then " points past the end of the file, skipping"
            else " is truncated, skipping") ∧
        (∀ e ∈ index, ¬e.Readable file ↔ file.length < e.offset.toNat ∨ e.CutOff file) ∧
        index.length = parsed.warnings.length + (index.filter fun e => e.Readable file).length) := by
  obtain ⟨l, hl⟩ := exists_layout_of_parse h
  obtain ⟨d, hadd, hfinish⟩ := exists_draft_of_parse h hl
  have hwarnings := finish_warnings hfinish
  refine ⟨l, d.index, hl, Layout.hasIndex_draft hadd, fun htail => ?_, fun htail => ⟨?_, ?_, ?_⟩⟩
  · rw [hwarnings, if_pos htail]
  · rw [hwarnings, if_neg htail, IndexEntry.filterMap_warning?, List.map_map]
    refine List.map_congr_left fun e _ => ?_
    rw [Function.comp_apply, IndexEntry.complaint]
    split_ifs <;> rfl
  · exact fun e _ => IndexEntry.not_readable_iff
  · rw [hwarnings, if_neg htail, IndexEntry.filterMap_warning?, List.length_map,
      List.length_eq_length_filter_add fun e => decide (e.Readable file), Nat.add_comm]
    simp only [decide_not]

set_option maxRecDepth 8000 in
/-- two entries for a readable record, one at the very end of the file, one behind it, and one whose bitmap is cut off -/
theorem unreadable_entries_are_reported_at_end :
    let first : Glyph := ⟨65, 3, 2, 1, -1, 4, #[0xB8]⟩
    let index : List IndexEntry := [⟨65, 0, 151⟩, ⟨66, 0, 173⟩, ⟨65, 0, 151⟩, ⟨0x1F600, 0, 174⟩, ⟨67, 0, 162⟩]
    let p : Properties := ⟨"A", "", 16, "", 8, 16, 12, 4⟩
    let l : Layout := ⟨propertySections p ++ [Section.ofIndex index],
      .glyphData 0 (first.encode ++ [0, 16, 0, 1, 0, 0, 0, 0, 0, 17, 0xFF])⟩
    l.bytes.length = 173 ∧ ∃ parsed, parse l.bytes = .ok parsed ∧
      parsed.warnings.map Warning.message = ["Glyph U+0042 is truncated, skipping",
        "Glyph U+1F600 points past the end of the file, skipping", "Glyph U+0043 is truncated, skipping"] ∧
      IndexEntry.CutOff l.bytes ⟨66, 0, 173⟩ ∧ IndexEntry.CutOff l.bytes ⟨67, 0, 162⟩ := by
  intro first index p l
  have hparse : ∃ parsed, parse l.bytes = .ok parsed := ⟨_, by cbv⟩
  obtain ⟨parsed, hparse⟩ := hparse
  have hl : l.Describes l.bytes := ⟨rfl, by decide⟩
  have hindex : l.HasIndex index := by decide
  obtain ⟨l', index', hl', hindex', -, hdata⟩ := unreadable_entries_are_reported l.bytes parsed hparse
  obtain rfl := hl'.unique hl
  obtain rfl := hindex'.unique hindex
  obtain ⟨hmessages, hwhy, -⟩ := hdata (by decide)
  have hcut : ∀ e ∈ index, ¬e.Readable l.bytes → e.offset.toNat ≤ l.bytes.length → e.CutOff l.bytes :=
    fun e he hunreadable hinside => ((hwhy e he).1 hunreadable).resolve_left (Nat.not_lt.2 hinside)
  refine ⟨by decide, parsed, hparse, hmessages.trans (by cbv), ?_, ?_⟩
  · exact hcut _ (by decide) (by decide) (by decide)
  · exact hcut _ (by decide) (by decide) (by decide)

end GlyphImage.Pff2
