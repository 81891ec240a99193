/-
Cutting a font file short. `cut_file_loses_only_records`: a cut in front of the records leaves nothing that can be used,
wherever it falls; a cut behind the `DATA` header keeps all properties, and the glyphs that are lost are those whose
records the cut goes through.

The layout of what is left decides both. If it had a `DATA` header, the whole file would go on from it, so the header
would be that of the file (`not_usable_of_take`). Behind the header the sections stay (`exists_parse_take`), and an entry
shows a glyph in the shorter file just if the glyph's record ends there (`readGlyphs_take`).
-/
import GlyphImage.Proofs.Pff2.Footprint

namespace GlyphImage.Pff2

/-- the whole record of the glyph lies in the first `n` bytes of a file with this index -/
def EndsWithin (index : List IndexEntry) (n : Nat) (g : Glyph) : Prop :=
  ∃ e ∈ index, e.code = g.code ∧ e.offset.toNat + 10 + (g.width.toNat * g.height.toNat + 7) / 8 ≤ n

instance (index : List IndexEntry) (n : Nat) (g : Glyph) : Decidable (EndsWithin index n g) :=
  inferInstanceAs (Decidable (∃ e ∈ index, _ ∧ _))

variable {file rest : List UInt8} {parsed : Parsed} {l : Layout} {length : UInt32} {index : List IndexEntry} {n m : Nat}

/-! ## Cuts in front of the records -/

/-- a font that can be used has glyphs, so its file reached a `DATA` header -/
theorem exists_tail_of_usable (h : parse file = .ok parsed) (hl : l.Describes file) (husable : parsed.font.Usable) :
    ∃ length rest, l.tail = .glyphData length rest := by
  obtain ⟨_, -, hglyphs⟩ := hl.exists_index h
  cases htail : l.tail with
  | endOfFile =>
    rw [if_pos htail] at hglyphs
    exact absurd hglyphs husable.glyphs_ne
  | glyphData length rest => exact ⟨length, rest, rfl⟩

theorem not_usable_of_take (hl : l.Describes file) (hn : n < l.dataStart) {cut : Parsed}
    (h : parse (file.take n) = .ok cut) : ¬cut.font.Usable := by
  intro husable
  obtain ⟨l', hl'⟩ := exists_layout_of_parse h
  obtain ⟨length', rest', htail'⟩ := exists_tail_of_usable h hl' husable
  -- the bytes behind the cut belong to the records of the layout that the cut left
  have hwhole := hl'.append htail' (file.drop n)
  rw [List.take_append_drop] at hwhole
  have hstart : l'.dataStart = l.dataStart := by rw [← hwhole.unique hl]; rfl
  have hlength := Layout.length_bytes htail'
  rw [← hl'.1, hstart] at hlength
  have hshort := List.length_take_le n file
  omega

/-! ## Cuts behind the `DATA` header -/

theorem exists_parse_take (h : parse file = .ok parsed) (hl : l.Describes file) (htail : l.tail = .glyphData length rest)
    (hindex : l.HasIndex index) (hn : l.dataStart ≤ n) :
    ∃ cut, parse (file.take n) = .ok cut ∧ cut.font.toProperties = parsed.font.toProperties ∧
      cut.font.glyphs = (readGlyphs (file.take n).toArray index).toArray := by
  have hcut := hl.take htail hn
  obtain ⟨cut, hparse⟩ := hcut.exists_parse (hl.sound h)
  exact ⟨cut, hparse, hcut.properties_congr hparse hl h fun _ _ => rfl, hcut.glyphs_eq hparse (by simp) hindex⟩

theorem readable_take_of_le {e : IndexEntry} (hle : n ≤ m) (h : e.Readable (file.take n)) :
    e.Readable (file.take m) := by
  obtain ⟨g, hg⟩ := h
  obtain ⟨hshows, hend⟩ := IndexEntry.shows_take_iff.1 hg
  exact ⟨g, IndexEntry.shows_take_iff.2 ⟨hshows, Nat.le_trans hend hle⟩⟩

/-- where no code repeats, the table holds all glyphs that the entries show -/
theorem mem_readGlyphs_iff_of_nodup (hcodes : (index.map IndexEntry.code).Nodup) {g : Glyph} :
    g ∈ readGlyphs file.toArray index ↔ ∃ e ∈ index, e.Shows file g := by
  rw [mem_readGlyphs_iff]
  constructor
  · rintro ⟨before, e, after, rfl, hshows, -⟩
    exact ⟨e, by simp, hshows⟩
  · rintro ⟨e, he, hshows⟩
    obtain ⟨before, after, rfl⟩ := List.append_of_mem he
    refine ⟨before, e, after, rfl, hshows, fun e' he' hcode _ => ?_⟩
    rw [List.map_append, List.map_cons, List.nodup_append] at hcodes
    exact hcodes.2.2 _ (List.mem_map_of_mem he') _ List.mem_cons_self (hcode.trans hshows.1)

/-- **A cut takes away the glyphs whose records it goes through**, and no others. -/
theorem readGlyphs_take (hcodes : (index.map IndexEntry.code).Nodup) (hle : n ≤ m) :
    readGlyphs (file.take n).toArray index =
      (readGlyphs (file.take m).toArray index).filter fun g => EndsWithin index n g := by
  refine eq_of_mem_iff_of_rising (readGlyphs_pairwise _ _) ((readGlyphs_pairwise _ _).filter _) fun g => ?_
  rw [List.mem_filter, mem_readGlyphs_iff_of_nodup hcodes, mem_readGlyphs_iff_of_nodup hcodes, decide_eq_true_iff]
  constructor
  · rintro ⟨e, he, hshort⟩
    obtain ⟨hshows, hend⟩ := IndexEntry.shows_take_iff.1 hshort
    refine ⟨⟨e, he, IndexEntry.shows_take_iff.2 ⟨hshows, Nat.le_trans hend hle⟩⟩, e, he, hshows.1.symm, ?_⟩
    rw [← hshows.length_eq]
    exact hend
  · rintro ⟨⟨e, he, hlong⟩, e', he', hcode, hend⟩
    obtain ⟨hshows, -⟩ := IndexEntry.shows_take_iff.1 hlong
    obtain rfl : e' = e := List.inj_on_of_nodup_map hcodes he' he (hcode.trans hshows.1)
    refine ⟨e', he', IndexEntry.shows_take_iff.2 ⟨hshows, ?_⟩⟩
    rw [hshows.length_eq]
    exact hend

/-! ## All cuts -/

/-- **A file that is cut short loses its last records, or can no longer be used.** Let the font of a file be usable. If
the cut is in front of the end of the `DATA` header, what is left is refused or its font cannot be used. From there on it
is accepted with the same properties; the longer of two such pieces has every code that the shorter one has; and if no
code repeats in the index, the shorter one has just those glyphs of the longer one whose whole records it holds. -/
theorem cut_file_loses_only_records (file : List UInt8) (parsed : Parsed) (font : Font) (h : parse file = .ok parsed)
    (hvalid : parsed.font.validate = .ok font) :
    ∃ (l : Layout) (index : List IndexEntry), l.Describes file ∧ l.tail ≠ .endOfFile ∧ l.HasIndex index ∧
      (∀ n < l.dataStart, ∀ cut, parse (file.take n) = .ok cut → ∃ e, cut.font.validate = .error e) ∧
      (∀ n ≥ l.dataStart, ∃ cut, parse (file.take n) = .ok cut ∧ cut.font.toProperties = font.toProperties) ∧
      ∀ (n m : Nat) (short long : Parsed), l.dataStart ≤ n → n ≤ m → parse (file.take n) = .ok short →
        parse (file.take m) = .ok long →
        (∀ g ∈ short.font.glyphs, ∃ g' ∈ long.font.glyphs, g'.code = g.code) ∧
        ((index.map IndexEntry.code).Nodup →
          short.font.glyphs.toList = long.font.glyphs.toList.filter fun g => EndsWithin index n g) := by
  obtain ⟨rfl, husable⟩ := Font.validate_eq_ok_iff.1 hvalid
  obtain ⟨l, hl⟩ := exists_layout_of_parse h
  obtain ⟨length, rest, htail⟩ := exists_tail_of_usable h hl husable
  obtain ⟨index, hindex, -⟩ := hl.exists_index h
  refine ⟨l, index, hl, by simp [htail], hindex, fun n hn cut hcut => ?_, fun n hn => ?_, ?_⟩
  · cases hcheck : cut.font.validate with
    | error e => exact ⟨e, rfl⟩
    | ok font => exact absurd (Font.validate_eq_ok_iff.1 hcheck).2 (not_usable_of_take hl hn hcut)
  · obtain ⟨cut, hcut, hproperties, -⟩ := exists_parse_take h hl htail hindex hn
    exact ⟨cut, hcut, hproperties⟩
  · intro n m short long hn hle hshort hlong
    have hshortGlyphs : short.font.glyphs = (readGlyphs (file.take n).toArray index).toArray :=
      (hl.take htail hn).glyphs_eq hshort (by simp) hindex
    have hlongGlyphs : long.font.glyphs = (readGlyphs (file.take m).toArray index).toArray :=
      (hl.take htail (Nat.le_trans hn hle)).glyphs_eq hlong (by simp) hindex
    rw [hshortGlyphs, hlongGlyphs]
    refine ⟨fun g hg => ?_, fun hcodes => readGlyphs_take hcodes hle⟩
    obtain ⟨e, he, hcode, hreadable⟩ := exists_mem_readGlyphs_iff.1 ⟨g, List.mem_toArray.1 hg, rfl⟩
    obtain ⟨g', hg', hcode'⟩ := exists_mem_readGlyphs_iff.2 ⟨e, he, hcode, readable_take_of_le hle hreadable⟩
    exact ⟨g', List.mem_toArray.2 hg', hcode'⟩

set_option maxRecDepth 8000 in
/-- two glyphs: one cut goes through the bitmap of the second, the other just in front of the `DATA` header -/
theorem cut_file_loses_only_records_last_bitmap :
    let a : Glyph := ⟨65, 3, 2, 1, -1, 4, #[0xB8]⟩
    let b : Glyph := ⟨66, 8, 2, 0, 0, 9, #[0xFF, 0x01]⟩
    let p : Properties := ⟨"A", "", 16, "", 8, 16, 12, 4⟩
    let l : Layout := Layout.ofGlyphs (propertySections p) [a, b]
    parse l.bytes = .ok ⟨⟨p, #[a, b]⟩, []⟩ ∧
      (∃ cut, parse (l.bytes.take 146) = .ok cut ∧ cut.font = ⟨p, #[a]⟩) ∧
      ∀ cut, parse (l.bytes.take 116) = .ok cut → ∃ e, cut.font.validate = .error e := by
  intro a b p l
  have hparse : parse l.bytes = .ok ⟨⟨p, #[a, b]⟩, []⟩ := by cbv
  have hvalid : Font.validate ⟨p, #[a, b]⟩ = .ok ⟨p, #[a, b]⟩ := by cbv
  have hl : l.Describes l.bytes := ⟨rfl, by decide⟩
  have hindex : l.HasIndex (indexFrom 124 [a, b]) := by decide
  have hstart : l.dataStart = 124 := by decide
  obtain ⟨l', index, hl', -, hindex', hfront, hkept, hlost⟩ := cut_file_loses_only_records l.bytes _ _ hparse hvalid
  obtain rfl := hl'.unique hl
  obtain rfl := hindex'.unique hindex
  obtain ⟨cut, hcut, hproperties⟩ := hkept 146 (by rw [hstart]; decide)
  have hwhole : parse (l.bytes.take 147) = .ok ⟨⟨p, #[a, b]⟩, []⟩ := by
    rw [List.take_of_length_le (by decide)]
    exact hparse
  obtain ⟨-, hglyphs⟩ := hlost 146 147 cut _ (by rw [hstart]; decide) (by decide) hcut hwhole
  have hlist : cut.font.glyphs.toList = [a] := (hglyphs (by decide)).trans (by decide)
  refine ⟨hparse, ⟨cut, hcut, ?_⟩, hfront 116 (by rw [hstart]; decide)⟩
  obtain ⟨⟨properties, glyphs⟩, warnings⟩ := cut
  simp only at hproperties hlist
  obtain rfl : glyphs = #[a] := Array.toList_inj.1 hlist
  rw [hproperties]

end GlyphImage.Pff2
