/-
The glyphs of an accepted file. At a `DATA` header the table of the font is made from the last character index
(`Layout.Describes.glyphs_eq`), its codes rise strictly and its bitmaps have the size that their glyphs ask for, whatever
the file (`rising_of_parse`, `exact_of_parse`). `glyph_table_represents_index`: the table is a map of the index without
repetitions, and a usable font looks characters up in just this table.
-/
import GlyphImage.Proofs.Pff2.Grammar
import GlyphImage.Proofs.Pff2.Lookup
import GlyphImage.Proofs.Pff2.Table
import GlyphImage.Proofs.Pff2.Validation

namespace GlyphImage.Pff2

variable {file : List UInt8} {parsed : Parsed} {l : Layout}

/-! ## The table of an accepted file -/

/-- an accepted file with a layout has an index, and its table is what the index leads to -/
theorem Layout.Describes.exists_index (hl : l.Describes file) (h : parse file = .ok parsed) :
    ∃ index, l.HasIndex index ∧
      parsed.font.glyphs = if l.tail = .endOfFile then #[] else (readGlyphs file.toArray index).toArray := by
  obtain ⟨d, hadd, hfinish⟩ := exists_draft_of_parse h hl
  exact ⟨d.index, Layout.hasIndex_draft hadd, finish_glyphs hfinish⟩

theorem Layout.Describes.glyphs_eq (hl : l.Describes file) (h : parse file = .ok parsed) (htail : l.tail ≠ .endOfFile)
    {index : List IndexEntry} (hindex : l.HasIndex index) :
    parsed.font.glyphs = (readGlyphs file.toArray index).toArray := by
  obtain ⟨index', hindex', hglyphs⟩ := hl.exists_index h
  rw [hglyphs, if_neg htail, hindex.unique hindex']

/-- a glyph of an accepted file is one that the first readable entry for its code shows -/
theorem Layout.Describes.mem_glyphs_iff (hl : l.Describes file) (h : parse file = .ok parsed)
    (htail : l.tail ≠ .endOfFile) {index : List IndexEntry} (hindex : l.HasIndex index) {g : Glyph} :
    g ∈ parsed.font.glyphs ↔ FirstShown file index g := by
  rw [hl.glyphs_eq h htail hindex, List.mem_toArray, mem_readGlyphs_iff]

/-- the glyphs of an accepted file are those that an index leads to, if there are any -/
theorem exists_readGlyphs_of_parse (h : parse file = .ok parsed) :
    ∃ index, parsed.font.glyphs = (readGlyphs file.toArray index).toArray := by
  obtain ⟨l, hl⟩ := exists_layout_of_parse h
  obtain ⟨index, -, hglyphs⟩ := hl.exists_index h
  split_ifs at hglyphs
  · exact ⟨[], by rw [hglyphs, readGlyphs_nil]⟩
  · exact ⟨index, hglyphs⟩

theorem rising_of_parse (h : parse file = .ok parsed) : parsed.font.Rising := by
  obtain ⟨index, hglyphs⟩ := exists_readGlyphs_of_parse h
  rw [Font.Rising, hglyphs]
  exact readGlyphs_pairwise _ _

theorem exact_of_parse (h : parse file = .ok parsed) {g : Glyph} (hg : g ∈ parsed.font.glyphs) : g.Exact := by
  obtain ⟨index, hglyphs⟩ := exists_readGlyphs_of_parse h
  rw [hglyphs, List.mem_toArray] at hg
  obtain ⟨-, e, -, -, hshows, -⟩ := mem_readGlyphs_iff.1 hg
  exact hshows.2.1

/-! ## The table and the index -/

/-- **The table represents the index.** If an accepted file reaches a `DATA` header, the codes of its table rise
strictly, a code has a glyph just if one of the index entries for it is readable, and the glyph is then the one that
the first of these shows, with the bitmap that the file holds ten bytes behind the entry's offset. If the font can be
used, a character's index counts from one to the position of its glyph, the character leads to that glyph, and a
character without a glyph has neither. -/
theorem glyph_table_represents_index (file : List UInt8) (parsed : Parsed) (h : parse file = .ok parsed) :
    ∃ (l : Layout) (index : List IndexEntry), l.Describes file ∧ l.HasIndex index ∧
      (l.tail ≠ .endOfFile →
        (parsed.font.glyphs.toList.Pairwise fun g g' => g.code < g'.code) ∧
        (∀ k, (∃ g ∈ parsed.font.glyphs, g.code = k) ↔ ∃ e ∈ index, e.code = k ∧ e.Readable file) ∧
        (∀ g ∈ parsed.font.glyphs, ∃ before e after, index = before ++ e :: after ∧ e.Shows file g ∧
          (∀ e' ∈ before, e'.code = g.code → ¬ e'.Readable file) ∧
          g.bitmap.toList = (file.drop (e.offset.toNat + 10)).take ((g.width.toNat * g.height.toNat + 7) / 8)) ∧
        ∀ font, parsed.font.validate = .ok font → font = parsed.font ∧ ∀ character : Char,
          (∀ p g, font.glyphs[p]? = some g → g.code = character.val →
            ∃ i, font.glyphIndex character = some i ∧ i.val.toNat = p + 1 ∧ font.glyph? character = some g) ∧
          ((∀ g ∈ font.glyphs, g.code ≠ character.val) →
            font.glyphIndex character = none ∧ font.glyph? character = none)) := by
  obtain ⟨l, hl⟩ := exists_layout_of_parse h
  obtain ⟨index, hindex, -⟩ := hl.exists_index h
  refine ⟨l, index, hl, hindex, fun htail => ?_⟩
  have hglyphs := hl.glyphs_eq h htail hindex
  have hrising := rising_of_parse h
  refine ⟨hrising, fun k => ?_, fun g hg => ?_, fun font hvalid => ?_⟩
  · rw [← exists_mem_readGlyphs_iff, hglyphs]
    exact exists_congr fun g => and_congr_left' List.mem_toArray
  · rw [hglyphs, List.mem_toArray] at hg
    obtain ⟨before, e, after, hsplit, hshows, hbefore⟩ := mem_readGlyphs_iff.1 hg
    exact ⟨before, e, after, hsplit, hshows, hbefore, hshows.bitmap_eq⟩
  · obtain rfl := Font.validate_eq_ok hvalid
    refine ⟨rfl, fun character => ⟨fun p g hg hcode => ?_, fun hnone => ?_⟩⟩
    · obtain ⟨i, hi, hnat, -⟩ := Font.exists_glyphIndex hrising hg hcode
      exact ⟨i, hi, hnat, Font.glyph?_eq_some hrising (Array.mem_of_getElem? hg) hcode⟩
    · exact ⟨Font.glyphIndex_eq_none hnone, Font.glyph?_eq_none hnone⟩

set_option maxRecDepth 8000 in
/-- an index that names `B` before `A`, and `A` three times: out of reach, then two readable records -/
theorem glyph_table_represents_index_repeated :
    let first : Glyph := ⟨65, 3, 2, 1, -1, 4, #[0xB8]⟩
    let second : Glyph := ⟨66, 8, 2, 0, 0, 9, #[0xFF, 0x01]⟩
    let index : List IndexEntry := [⟨66, 0, 153⟩, ⟨65, 0, 4000⟩, ⟨65, 0, 142⟩, ⟨65, 0, 153⟩]
    let p : Properties := ⟨"A", "", 16, "", 8, 16, 12, 4⟩
    let l : Layout := ⟨propertySections p ++ [⟨Kind.charIndex.tag, index.flatMap IndexEntry.encode⟩],
      .glyphData 0 (first.encode ++ second.encode)⟩
    let font : Font := ⟨p, #[first, second]⟩
    parse l.bytes = .ok ⟨font, [.pastEnd 65]⟩ ∧ font.validate = .ok font ∧
      (∃ e ∈ index, e.code = 65 ∧ e.Readable l.bytes) ∧
      (∃ i, font.glyphIndex 'B' = some i ∧ i.val.toNat = 2 ∧ font.glyph? 'B' = some second) ∧
      font.glyphIndex 'C' = none := by
  intro first second index p l font
  have hparse : parse l.bytes = .ok ⟨font, [.pastEnd 65]⟩ := by cbv
  have hvalid : font.validate = .ok font := by cbv
  have hl : l.Describes l.bytes := ⟨rfl, by decide⟩
  have hindex : l.HasIndex index := by decide
  obtain ⟨l', index', hl', hindex', hdata⟩ := glyph_table_represents_index l.bytes _ hparse
  obtain rfl := hl'.unique hl
  obtain rfl := hindex'.unique hindex
  obtain ⟨-, hcodes, -, hlookup⟩ := hdata (by decide)
  obtain ⟨-, hcharacter⟩ := hlookup font hvalid
  exact ⟨hparse, hvalid, (hcodes 65).1 ⟨first, by simp [font], rfl⟩, (hcharacter 'B').1 1 second rfl rfl,
    ((hcharacter 'C').2 (by decide)).1⟩

end GlyphImage.Pff2
