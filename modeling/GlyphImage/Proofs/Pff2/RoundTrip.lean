/-
Writing a font and reading it. `parse_ofGlyphs_round_trip`: properties and glyphs laid out as a file (`Layout.ofGlyphs`)
are read again without a warning, the glyphs in the order of their codes, and a font that was read survives being written
and read once more.

The records follow each other, and the offsets in the index add up their lengths, so every entry shows the glyph it was
written for wherever the records start (`map_glyph?_indexFrom`). The property sections may stand in any order and among
sections of unknown names, since together they spell the draft (`spells_of_mem_ofGlyphs`).
-/
import GlyphImage.Proofs.Pff2.GlyphTable
import Mathlib

namespace GlyphImage.Pff2

variable {p : Properties} {sections further : List Section} {glyphs : List Glyph}

/-! ## Offsets -/

namespace Layout

theorem length_payload_lt {l : Layout} {s : Section} (hs : s ∈ l.sections) : s.payload.length < l.bytes.length := by
  obtain ⟨before, after, h⟩ := List.append_of_mem hs
  rw [bytes, h, List.flatMap_append, List.flatMap_cons]
  simp only [List.length_append, Section.length_encode, Section.size]
  omega

theorem length_indexFrom (offset : Nat) (glyphs : List Glyph) : (indexFrom offset glyphs).length = glyphs.length := by
  induction glyphs generalizing offset with
  | nil => rfl
  | cons g rest ih => rw [indexFrom, List.length_cons, List.length_cons, ih]

/-- the bytes in front of the records -/
def head (sections : List Section) (glyphs : List Glyph) : List UInt8 :=
  magic ++ (ofGlyphs sections glyphs).sections.flatMap Section.encode ++ (Tail.glyphData 0xFFFFFFFF []).bytes

theorem bytes_ofGlyphs (sections : List Section) (glyphs : List Glyph) :
    (ofGlyphs sections glyphs).bytes = head sections glyphs ++ glyphs.flatMap Glyph.encode := by
  simp only [bytes, head, ofGlyphs, Tail.bytes, List.append_assoc, List.nil_append]

/-- the records start where the index says -/
theorem length_head (sections : List Section) (glyphs : List Glyph) :
    (head sections glyphs).length = recordsStart sections glyphs := by
  have hindex : ((indexFrom (recordsStart sections glyphs) glyphs).flatMap IndexEntry.encode).length =
      9 * glyphs.length := by
    rw [IndexEntry.length_flatMap_encode, length_indexFrom]
  simp only [head, ofGlyphs, Tail.bytes, List.flatMap_append, List.flatMap_singleton, List.length_append,
    Section.length_encode, Section.size, indexSection, hindex, Tag.bytes, List.length_cons, List.length_nil,
    Bytes.length_ofUInt32]
  rw [recordsStart, List.length_append]
  omega

end Layout

/-- **Every entry shows its own glyph**: the records of the glyphs follow each other behind `before`. -/
theorem map_glyph?_indexFrom (before : List UInt8) (hexact : ∀ g ∈ glyphs, g.Exact)
    (hsize : (before ++ glyphs.flatMap Glyph.encode).length < UInt32.size) :
    (indexFrom before.length glyphs).map (IndexEntry.glyph? (before ++ glyphs.flatMap Glyph.encode).toArray) =
      glyphs.map some := by
  induction glyphs generalizing before with
  | nil => rfl
  | cons g rest ih =>
    have hfile : before ++ (g :: rest).flatMap Glyph.encode = before ++ g.encode ++ rest.flatMap Glyph.encode := by
      rw [List.flatMap_cons, List.append_assoc]
    rw [hfile] at hsize ⊢
    have hoffset : (UInt32.ofNat before.length).toNat = before.length := by
      refine UInt32.toNat_ofNat_of_lt' (Nat.lt_of_le_of_lt ?_ hsize)
      simp only [List.length_append]
      omega
    have hfirst : IndexEntry.glyph? (before ++ g.encode ++ rest.flatMap Glyph.encode).toArray
        ⟨g.code, 0, UInt32.ofNat before.length⟩ = some g :=
      IndexEntry.glyph?_eq_some_iff.2
        ⟨rfl, hexact g List.mem_cons_self, before, rest.flatMap Glyph.encode, rfl, hoffset.symm⟩
    have hrest := ih (before ++ g.encode) (fun g' hg' => hexact g' (List.mem_cons_of_mem g hg')) hsize
    rw [List.length_append] at hrest
    rw [indexFrom, List.map_cons, List.map_cons, hfirst, hrest]

theorem warning?_eq_none {file : Array UInt8} {e : IndexEntry} {g : Glyph} (h : e.glyph? file = some g) :
    e.warning? file = none := by
  unfold IndexEntry.glyph? at h
  unfold IndexEntry.warning?
  cases hread : e.read file with
  | ok g' => rfl
  | error w => rw [hread] at h; cases h

/-! ## Sections -/

/-- every property section is of a kind of its own and spells the property, whatever the index -/
theorem exists_kind_of_mem {s : Section} (hs : s ∈ propertySections p) :
    ∃ k : Kind, s.tag = k.tag ∧ k ≠ .glyphData ∧
      ∀ index, (Draft.field ⟨p, index⟩ k).Spells s.payload := by
  simp only [propertySections, List.mem_cons, List.not_mem_nil, or_false] at hs
  rcases hs with rfl | rfl | rfl | rfl | rfl | rfl | rfl | rfl
  · exact ⟨.name, rfl, by decide, fun _ => Or.inl rfl⟩
  · exact ⟨.family, rfl, by decide, fun _ => Or.inl rfl⟩
  · exact ⟨.pointSize, rfl, by decide, fun _ => rfl⟩
  · exact ⟨.weight, rfl, by decide, fun _ => Or.inl rfl⟩
  · exact ⟨.maxCharWidth, rfl, by decide, fun _ => rfl⟩
  · exact ⟨.maxCharHeight, rfl, by decide, fun _ => rfl⟩
  · exact ⟨.ascent, rfl, by decide, fun _ => rfl⟩
  · exact ⟨.descent, rfl, by decide, fun _ => rfl⟩

theorem exists_mem_propertySections {k : Kind} (hindex : k ≠ .charIndex) (hdata : k ≠ .glyphData) :
    ∃ s ∈ propertySections p, s.tag = k.tag := by
  have htags : (propertySections p).map Section.tag = [Kind.name.tag, Kind.family.tag, Kind.pointSize.tag,
    Kind.weight.tag, Kind.maxCharWidth.tag, Kind.maxCharHeight.tag, Kind.ascent.tag, Kind.descent.tag] := rfl
  refine List.mem_map.1 ?_
  rw [htags]
  cases k with
  | charIndex => exact absurd rfl hindex
  | glyphData => exact absurd rfl hdata
  | _ => decide

variable (hperm : sections.Perm (propertySections p ++ further)) (hunknown : ∀ s ∈ further, s.tag.kind? = none)
include hperm hunknown

/-- a known section of a written font is not a `DATA` header, and it spells the property of its kind or the index -/
theorem spells_of_mem_ofGlyphs {s : Section} (hs : s ∈ (Layout.ofGlyphs sections glyphs).sections) {k : Kind}
    (hk : s.tag = k.tag) :
    k ≠ .glyphData ∧ (Draft.field ⟨p, indexFrom (Layout.recordsStart sections glyphs) glyphs⟩ k).Spells s.payload := by
  rcases List.mem_append.1 hs with hs | hs
  · rcases List.mem_append.1 (hperm.mem_iff.1 hs) with hs | hs
    · obtain ⟨j, hj, hdata, hspells⟩ := exists_kind_of_mem hs
      obtain rfl := Kind.tag_injective (hj.symm.trans hk)
      exact ⟨hdata, hspells _⟩
    · have hnone := hunknown s hs
      rw [Tag.kind?_eq_some_iff.2 hk] at hnone
      cases hnone
  · obtain rfl := List.mem_singleton.1 hs
    obtain rfl : Kind.charIndex = k := Kind.tag_injective hk
    exact ⟨by decide, rfl⟩

/-- every section of a written font is complete, unless the file is too long for a length field -/
theorem describes_ofGlyphs (hsize : (Layout.ofGlyphs sections glyphs).bytes.length < UInt32.size) :
    (Layout.ofGlyphs sections glyphs).Describes (Layout.ofGlyphs sections glyphs).bytes := by
  refine ⟨rfl, fun s hs => ⟨fun htag => ?_, Nat.lt_trans (Layout.length_payload_lt hs) hsize⟩⟩
  exact (spells_of_mem_ofGlyphs hperm hunknown hs htag).1 rfl

/-- a written font is read as the draft that it was written from -/
theorem addAll_ofGlyphs :
    Draft.addAll {} (Layout.ofGlyphs sections glyphs).sections =
      .ok ⟨p, indexFrom (Layout.recordsStart sections glyphs) glyphs⟩ := by
  refine Draft.addAll_of_spells (fun s hs k hk => (spells_of_mem_ofGlyphs hperm hunknown hs hk).2)
    fun k hdata => ?_
  by_cases hindex : k = .charIndex
  · exact ⟨_, List.mem_append_right _ (List.mem_singleton_self _), hindex ▸ rfl⟩
  · obtain ⟨s, hs, htag⟩ := exists_mem_propertySections (p := p) hindex hdata
    exact ⟨s, List.mem_append_left _ (hperm.mem_iff.2 (List.mem_append_left _ hs)), htag⟩

/-! ## Fonts -/

/-- **A written font is read as it was**: its properties, and its glyphs in the order of their codes. -/
theorem parse_ofGlyphs (hcodes : (glyphs.map Glyph.code).Nodup)
    (hexact : ∀ g ∈ glyphs, g.Exact)
    (hsize : (Layout.ofGlyphs sections glyphs).bytes.length < UInt32.size) :
    ∃ table : List Glyph, table.Perm glyphs ∧ (table.Pairwise fun g g' => g.code < g'.code) ∧
      parse (Layout.ofGlyphs sections glyphs).bytes = .ok ⟨⟨p, table.toArray⟩, []⟩ := by
  have hbytes := Layout.bytes_ofGlyphs sections glyphs
  have hshown := map_glyph?_indexFrom (Layout.head sections glyphs) hexact (by rw [← hbytes]; exact hsize)
  rw [Layout.length_head, ← hbytes] at hshown
  have hquiet : (indexFrom (Layout.recordsStart sections glyphs) glyphs).filterMap
      (IndexEntry.warning? (Layout.ofGlyphs sections glyphs).bytes.toArray) = [] := by
    refine List.filterMap_eq_nil_iff.2 fun e he => ?_
    obtain ⟨g, -, hg⟩ := List.mem_map.1 (hshown ▸ List.mem_map_of_mem he)
    exact warning?_eq_none hg.symm
  refine ⟨_, readGlyphs_perm hshown hcodes, readGlyphs_pairwise _ _, ?_⟩
  rw [(describes_ofGlyphs hperm hunknown hsize).parse_eq, addAll_ofGlyphs hperm hunknown]
  exact congrArg (fun warnings => (.ok ⟨⟨p, _⟩, warnings⟩ : Except ParseError Parsed)) hquiet

omit hperm hunknown

/-- **Writing and reading are inverse.** Properties, among sections of unknown names, and exact glyphs of different codes
are read as they were written, without a warning, with the glyphs in the order of their codes. So a font that was read
is the same font after it was written and read again. -/
theorem parse_ofGlyphs_round_trip (p : Properties) (further sections : List Section)
    (hperm : sections.Perm (propertySections p ++ further)) (hunknown : ∀ s ∈ further, s.tag.kind? = none) :
    (∀ glyphs : List Glyph, (glyphs.map Glyph.code).Nodup → (∀ g ∈ glyphs, g.Exact) →
      (Layout.ofGlyphs sections glyphs).bytes.length < UInt32.size →
      ∃ table : List Glyph, table.Perm glyphs ∧ (table.Pairwise fun g g' => g.code < g'.code) ∧
        parse (Layout.ofGlyphs sections glyphs).bytes = .ok ⟨⟨p, table.toArray⟩, []⟩) ∧
    ∀ (file : List UInt8) (parsed : Parsed), parse file = .ok parsed → parsed.font.toProperties = p →
      (Layout.ofGlyphs sections parsed.font.glyphs.toList).bytes.length < UInt32.size →
      parse (Layout.ofGlyphs sections parsed.font.glyphs.toList).bytes = .ok ⟨parsed.font, []⟩ := by
  refine ⟨fun glyphs hcodes hexact hsize => parse_ofGlyphs hperm hunknown hcodes hexact hsize, ?_⟩
  rintro file parsed h rfl hsize
  have hrising : parsed.font.Rising := rising_of_parse h
  have hcodes : (parsed.font.glyphs.toList.map Glyph.code).Nodup :=
    List.pairwise_map.2 (hrising.imp fun hlt => UInt32.ne_of_lt hlt)
  have hexact : ∀ g ∈ parsed.font.glyphs.toList, g.Exact := fun g hg => exact_of_parse h (Array.mem_def.2 hg)
  obtain ⟨table, htable, hpair, hparse⟩ := parse_ofGlyphs hperm hunknown hcodes hexact hsize
  rw [hparse, eq_of_perm_of_rising htable hpair hrising]

/-- `B` before `A`, a name with a NUL of its own at its end, and an unknown section in the middle -/
theorem parse_ofGlyphs_round_trip_unordered :
    let p : Properties := ⟨"T\x00", "Test", 16, "", 8, 16, 12, 4⟩
    let unknown : Section := ⟨⟨0x58, 0x58, 0x58, 0x58⟩, [1, 2, 3]⟩
    let sections := (propertySections p).take 3 ++ [unknown] ++ (propertySections p).drop 3
    let a : Glyph := ⟨65, 3, 2, 1, -1, 4, #[0xB8]⟩
    let b : Glyph := ⟨66, 8, 2, 0, 0, 9, #[0xFF, 0x01]⟩
    let font : Font := ⟨p, #[a, b]⟩
    parse (Layout.ofGlyphs sections [b, a]).bytes = .ok ⟨font, []⟩ ∧
      parse (Layout.ofGlyphs sections [a, b]).bytes = .ok ⟨font, []⟩ := by
  intro p unknown sections a b font
  have hperm : sections.Perm (propertySections p ++ [unknown]) := by decide
  have hunknown : ∀ s ∈ [unknown], s.tag.kind? = none := by decide
  obtain ⟨hwritten, hagain⟩ := parse_ofGlyphs_round_trip p [unknown] sections hperm hunknown
  have hsize : (Layout.ofGlyphs sections [b, a]).bytes.length < UInt32.size := by decide +kernel
  have hsize' : (Layout.ofGlyphs sections [a, b]).bytes.length < UInt32.size := by decide +kernel
  obtain ⟨table, htable, hrising, hparse⟩ := hwritten [b, a] (by decide) (by decide) hsize
  have heq : table = [a, b] := eq_of_perm_of_rising (htable.trans (List.Perm.swap a b [])) hrising (by decide)
  rw [heq] at hparse
  exact ⟨hparse, hagain _ ⟨font, []⟩ hparse rfl hsize'⟩

end GlyphImage.Pff2
