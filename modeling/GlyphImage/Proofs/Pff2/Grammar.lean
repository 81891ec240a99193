/-
The grammar of PFF2 files. `parse_accepts_grammar`: a byte string is accepted if and only if it has a layout whose
payloads can all be decoded, it has at most one layout, and the properties of the font are what the last section of
each name spells out. The glyph table stays empty if no `DATA` header is reached or no character index came before it.

The steps: a file with a layout is read by taking in the layout's sections (`Layout.Describes.parse_eq`), every accepted
file has a layout (`exists_layout_of_parse`), and the draft at the end says what the layout says (`Layout.says_draft`,
`Layout.hasIndex_draft`). So files whose last sections of each kind are the same have the same properties
(`Layout.Describes.properties_congr`).
-/
import GlyphImage.Proofs.Pff2.Payloads
import GlyphImage.Proofs.Pff2.Sections

namespace GlyphImage.Pff2

/-! ## Reading along a layout -/

/-- a file is read by taking in the sections up to bytes that start none -/
theorem parse_eq_of_front {sections : List Section} {rest : List UInt8} {ending : Ending}
    (hcomplete : ∀ s ∈ sections, s.Complete) (hfront : Section.front rest = .stop ending) :
    parse (magic ++ sections.flatMap Section.encode ++ rest) =
      (Draft.addAll {} sections).bind fun d =>
        finish (magic ++ sections.flatMap Section.encode ++ rest).toArray d ending := by
  have hmagic : magic.isPrefixOf (magic ++ sections.flatMap Section.encode ++ rest) = true := by
    rw [List.isPrefixOf_iff_prefix, List.append_assoc]
    exact List.prefix_append _ _
  have hdrop : (magic ++ sections.flatMap Section.encode ++ rest).drop magic.length =
      sections.flatMap Section.encode ++ rest := by
    rw [List.append_assoc, List.drop_left]
  unfold parse
  simp only [if_pos hmagic, hdrop, Section.split_append hcomplete hfront]
  cases Draft.addAll {} sections with
  | error e => rfl
  | ok d => rfl

/-- a file with a layout is read by taking in the sections of the layout -/
theorem Layout.Describes.parse_eq {l : Layout} {file : List UInt8} (h : l.Describes file) :
    parse file = (Draft.addAll {} l.sections).bind fun d => finish file.toArray d l.tail.ending := by
  rw [h.1]
  exact parse_eq_of_front h.2 l.tail.front_bytes

theorem parse_of_not_magic {file : List UInt8} (h : ¬magic <+: file) : parse file = .error .badMagicBytes := by
  unfold parse
  rw [if_neg (by rwa [List.isPrefixOf_iff_prefix])]

theorem exists_layout_of_parse {file : List UInt8} {parsed : Parsed} (h : parse file = .ok parsed) :
    ∃ l : Layout, l.Describes file := by
  by_cases hmagic : magic <+: file
  · obtain ⟨bytes, rfl⟩ := hmagic
    obtain ⟨sections, rest, ending, rfl, hcomplete, hfront⟩ := Section.exists_sections bytes
    rw [← List.append_assoc, parse_eq_of_front hcomplete hfront] at h
    have hending : ending = .endOfFile ∨ ending = .glyphData := by
      cases hadd : Draft.addAll {} sections with
      | error e => rw [hadd] at h; cases h
      | ok d =>
        rw [hadd] at h
        cases ending with
        | endOfFile => exact Or.inl rfl
        | glyphData => exact Or.inr rfl
        | shortHeader => cases h
        | truncated tag => cases h
    obtain ⟨tail, rfl⟩ := Tail.exists_of_front hfront hending
    exact ⟨⟨sections, tail⟩, (List.append_assoc _ _ _).symm, hcomplete⟩
  · rw [parse_of_not_magic hmagic] at h
    cases h

/-- an accepted file with a layout: the draft of its sections, and the font made from it -/
theorem exists_draft_of_parse {file : List UInt8} {parsed : Parsed} {l : Layout} (h : parse file = .ok parsed)
    (hl : l.Describes file) :
    ∃ d, Draft.addAll {} l.sections = .ok d ∧ finish file.toArray d l.tail.ending = .ok parsed := by
  rw [hl.parse_eq] at h
  cases hadd : Draft.addAll {} l.sections with
  | error e => rw [hadd] at h; cases h
  | ok d => rw [hadd] at h; exact ⟨d, rfl, h⟩

/-! ## What the sections say -/

namespace Layout

/-- what a draft holds for a kind is what the layout's last section of that kind says -/
theorem field_draft {l : Layout} {d : Draft} (h : Draft.addAll {} l.sections = .ok d) (k : Kind) :
    match l.last? k with
    | some payload => (d.field k).Spells payload
    | none => d.field k = Draft.field {} k := by
  have hfield := Draft.addAll_field h k
  unfold last?
  cases hlast : (l.sections.filter fun s => s.tag = k.tag).getLast? with
  | none => rw [hlast] at hfield; exact hfield
  | some s => rw [hlast] at hfield; exact hfield

/-- what drafts hold for a kind is the same if the last sections of that kind are -/
theorem field_draft_congr {l l' : Layout} {d d' : Draft} (h : Draft.addAll {} l.sections = .ok d)
    (h' : Draft.addAll {} l'.sections = .ok d') {k : Kind} (hlast : l.last? k = l'.last? k) : d.field k = d'.field k := by
  have hk := field_draft h k
  have hk' := field_draft h' k
  rw [← hlast] at hk'
  cases hpayload : l.last? k with
  | none =>
    rw [hpayload] at hk hk'
    exact hk.trans hk'.symm
  | some payload =>
    rw [hpayload] at hk hk'
    exact Draft.field_unique hk hk'

theorem saysText_draft {l : Layout} {d : Draft} (h : Draft.addAll {} l.sections = .ok d) {k : Kind} {text : String}
    (hfield : d.field k = .text text) (hempty : Draft.field {} k = .text "") : l.SaysText k text := by
  have hk := field_draft h k
  rw [hfield, hempty] at hk
  unfold SaysText
  cases hlast : l.last? k with
  | none => rw [hlast] at hk; exact Field.text.inj hk
  | some payload => rw [hlast] at hk; exact hk

theorem saysNumber_draft {l : Layout} {d : Draft} (h : Draft.addAll {} l.sections = .ok d) {k : Kind} {n : UInt16}
    (hfield : d.field k = .number n) (hempty : Draft.field {} k = .number 0) : l.SaysNumber k n := by
  have hk := field_draft h k
  rw [hfield, hempty] at hk
  unfold SaysNumber
  cases hlast : l.last? k with
  | none => rw [hlast] at hk; exact Field.number.inj hk
  | some payload => rw [hlast] at hk; exact hk

theorem says_draft {l : Layout} {d : Draft} (h : Draft.addAll {} l.sections = .ok d) : l.Says d.toProperties where
  name := saysText_draft h rfl rfl
  family := saysText_draft h rfl rfl
  weight := saysText_draft h rfl rfl
  pointSize := saysNumber_draft h rfl rfl
  maxCharWidth := saysNumber_draft h rfl rfl
  maxCharHeight := saysNumber_draft h rfl rfl
  ascent := saysNumber_draft h rfl rfl
  descent := saysNumber_draft h rfl rfl

theorem hasIndex_draft {l : Layout} {d : Draft} (h : Draft.addAll {} l.sections = .ok d) : l.HasIndex d.index := by
  have hk := field_draft h .charIndex
  unfold HasIndex
  cases hlast : l.last? .charIndex with
  | none =>
    rw [hlast] at hk
    rw [Field.index.inj hk]
    rfl
  | some payload => rw [hlast] at hk; exact hk

theorem HasIndex.unique {l : Layout} {index index' : List IndexEntry} (h : l.HasIndex index)
    (h' : l.HasIndex index') : index = index' :=
  IndexEntry.flatMap_encode_injective (h.trans h'.symm)

end Layout

/-! ## Fonts -/

@[simp] theorem readGlyphs_nil (file : Array UInt8) : readGlyphs file [] = [] := by
  rw [readGlyphs, List.filterMap_nil, List.mergeSort_nil]
  rfl

theorem exists_finish (file : Array UInt8) (d : Draft) (t : Tail) : ∃ parsed, finish file d t.ending = .ok parsed := by
  cases t with
  | endOfFile => exact ⟨_, rfl⟩
  | glyphData length rest => exact ⟨_, rfl⟩

theorem finish_properties {file : Array UInt8} {d : Draft} {ending : Ending} {parsed : Parsed}
    (h : finish file d ending = .ok parsed) : parsed.font.toProperties = d.toProperties := by
  cases ending <;> cases h <;> rfl

/-- the glyph table: the readable glyphs of the index at a `DATA` header, and nothing without one -/
theorem finish_glyphs {file : Array UInt8} {d : Draft} {t : Tail} {parsed : Parsed}
    (h : finish file d t.ending = .ok parsed) :
    parsed.font.glyphs = if t = .endOfFile then #[] else (readGlyphs file d.index).toArray := by
  cases t with
  | endOfFile => cases h; rfl
  | glyphData length rest => cases h; rfl

theorem Font.eq_of_parts {font font' : Font} (hproperties : font.toProperties = font'.toProperties)
    (hglyphs : font.glyphs = font'.glyphs) : font = font' := by
  cases font
  cases font'
  simp only at hproperties hglyphs
  rw [hproperties, hglyphs]

/-! ## Accepted files -/

namespace Layout.Describes

variable {l l' : Layout} {file file' : List UInt8} {parsed parsed' : Parsed}

/-- the payloads of an accepted file can all be decoded -/
theorem sound (hl : l.Describes file) (h : parse file = .ok parsed) : l.Sound := by
  obtain ⟨d, hadd, -⟩ := exists_draft_of_parse h hl
  exact Draft.exists_addAll_iff.1 ⟨d, hadd⟩

/-- a file is accepted if the payloads can all be decoded -/
theorem exists_parse (hl : l.Describes file) (hsound : l.Sound) : ∃ parsed, parse file = .ok parsed := by
  obtain ⟨d, hadd⟩ := Draft.exists_addAll_iff.2 hsound
  obtain ⟨parsed, hparsed⟩ := exists_finish file.toArray d l.tail
  exact ⟨parsed, by rw [hl.parse_eq, hadd]; exact hparsed⟩

/-- **The properties depend on the last section of each kind**, and not on the index. -/
theorem properties_congr (hl : l.Describes file) (h : parse file = .ok parsed) (hl' : l'.Describes file')
    (h' : parse file' = .ok parsed') (hlast : ∀ k, k ≠ .charIndex → l.last? k = l'.last? k) :
    parsed.font.toProperties = parsed'.font.toProperties := by
  obtain ⟨d, hadd, hfinish⟩ := exists_draft_of_parse h hl
  obtain ⟨d', hadd', hfinish'⟩ := exists_draft_of_parse h' hl'
  rw [finish_properties hfinish, finish_properties hfinish']
  exact Draft.toProperties_congr fun k hk => Layout.field_draft_congr hadd hadd' (hlast k hk)

end Layout.Describes

/-- **Exactly the grammar is accepted, and the last section of a name counts.** A byte string is accepted if and only if
it has a layout whose payloads can be decoded; it has at most one; the font's properties are what the layout says; and
there are no glyphs if the file ends before a `DATA` header or without a character index. -/
theorem parse_accepts_grammar (file : List UInt8) :
    ((∃ parsed, parse file = .ok parsed) ↔ ∃ l : Layout, l.Describes file ∧ l.Sound) ∧
    (∀ l l' : Layout, l.Describes file → l'.Describes file → l = l') ∧
    ∀ (parsed : Parsed) (l : Layout), parse file = .ok parsed → l.Describes file →
      l.Says parsed.font.toProperties ∧
        (l.tail = .endOfFile ∨ l.last? .charIndex = none → parsed.font.glyphs = #[]) := by
  refine ⟨⟨?_, ?_⟩, fun l l' hl hl' => hl.unique hl', ?_⟩
  · rintro ⟨parsed, h⟩
    obtain ⟨l, hl⟩ := exists_layout_of_parse h
    obtain ⟨d, hadd, -⟩ := exists_draft_of_parse h hl
    exact ⟨l, hl, Draft.exists_addAll_iff.1 ⟨d, hadd⟩⟩
  · rintro ⟨l, hl, hsound⟩
    obtain ⟨d, hadd⟩ := Draft.exists_addAll_iff.2 hsound
    obtain ⟨parsed, hparsed⟩ := exists_finish file.toArray d l.tail
    exact ⟨parsed, by rw [hl.parse_eq, hadd]; exact hparsed⟩
  · intro parsed l h hl
    obtain ⟨d, hadd, hfinish⟩ := exists_draft_of_parse h hl
    refine ⟨?_, fun hempty => ?_⟩
    · rw [finish_properties hfinish]
      exact Layout.says_draft hadd
    · rw [finish_glyphs hfinish]
      split_ifs with htail
      · rfl
      · have hlast : l.last? .charIndex = none := hempty.resolve_left htail
        have hindex : l.HasIndex [] := by rw [Layout.HasIndex, hlast]; rfl
        rw [(Layout.hasIndex_draft hadd).unique hindex, readGlyphs_nil]

/-- two names, the second one with a NUL of its own, a family without any NUL, an unknown section, and a `DATA` header
whose length is wrong -/
theorem parse_accepts_grammar_named_twice :
    let l : Layout := ⟨[⟨Kind.name.tag, [0x41, 0]⟩, ⟨⟨0x58, 0x58, 0x58, 0x58⟩, [1, 2]⟩,
      ⟨Kind.family.tag, [0x43]⟩, ⟨Kind.name.tag, [0x42, 0, 0]⟩], .glyphData 7 [9]⟩
    l.Describes l.bytes ∧ l.Sound ∧
      ∃ parsed, parse l.bytes = .ok parsed ∧ parsed.font.name = "B\x00" ∧ parsed.font.family = "C" ∧
        parsed.font.glyphs = #[] := by
  intro l
  have hl : l.Describes l.bytes := ⟨rfl, by decide⟩
  have hsound : l.Sound := by
    intro s hs k hk
    rw [Tag.kind?_eq_some_iff] at hk
    simp only [l, List.mem_cons, List.not_mem_nil, or_false] at hs
    rcases hs with rfl | rfl | rfl | rfl
    · obtain rfl : Kind.name = k := Kind.tag_injective hk
      exact ⟨"A", by decide⟩
    · cases k <;> exact absurd hk (by decide)
    · obtain rfl : Kind.family = k := Kind.tag_injective hk
      exact ⟨"C", by decide⟩
    · obtain rfl : Kind.name = k := Kind.tag_injective hk
      exact ⟨"B\x00", by decide⟩
  obtain ⟨haccept, -, hsays⟩ := parse_accepts_grammar l.bytes
  obtain ⟨parsed, hparsed⟩ := haccept.2 ⟨l, hl, hsound⟩
  obtain ⟨hp, hglyphs⟩ := hsays parsed l hparsed hl
  have hname : HoldsText [0x42, 0, 0] (Utf8.encode parsed.font.name) := hp.name
  have hfamily : HoldsText [0x43] (Utf8.encode parsed.font.family) := hp.family
  exact ⟨hl, hsound, parsed, hparsed, Utf8.encode_injective (hname.unique (by decide)),
    Utf8.encode_injective (hfamily.unique (by decide)), hglyphs (Or.inr rfl)⟩

end GlyphImage.Pff2
