/-
What validation says about a font. Seven things can be wrong at once: `Font.HasFault` tells each of them apart from the
others, and `ValidationError.rank` is the order in which they count. `Font.fault?_eq_some_iff`: the fault that is named is
the one of least rank, and of several oversized glyphs the first in the table.

The table of a file that was read has rising codes, so there the first oversized glyph is the one with the smallest code
(`Font.Rising.least_oversized`). `validate_names_first_fault` puts this together and follows the named glyph back to the
index of the file.
-/
import GlyphImage.Proofs.Pff2.GlyphTable

namespace GlyphImage.Pff2

/-- the order in which faults count: of several the one of least rank is named -/
def ValidationError.rank : ValidationError → Nat
  | .emptyName => 0
  | .zeroMaxCharWidth => 1
  | .zeroMaxCharHeight => 2
  | .zeroAscent => 3
  | .zeroDescent => 4
  | .noGlyphs => 5
  | .oversizedGlyph _ _ _ => 6

namespace Font

variable {font : Font}

/-! ## Faults -/

/-- the glyph exceeds the maximum, and no glyph in front of it does -/
def FirstOversized (font : Font) (g : Glyph) : Prop :=
  font.Oversized g ∧ ∃ before after, font.glyphs.toList = before ++ g :: after ∧ ∀ g' ∈ before, ¬font.Oversized g'

/-- this is wrong with the font, whatever else is -/
def HasFault (font : Font) : ValidationError → Prop
  | .emptyName => font.name = ""
  | .zeroMaxCharWidth => font.maxCharWidth = 0
  | .zeroMaxCharHeight => font.maxCharHeight = 0
  | .zeroAscent => font.ascent = 0
  | .zeroDescent => font.descent = 0
  | .noGlyphs => font.glyphs = #[]
  | .oversizedGlyph code width height =>
    ∃ g, font.FirstOversized g ∧ g.code = code ∧ g.width = width ∧ g.height = height

theorem find?_oversized_eq_some_iff {g : Glyph} :
    font.glyphs.toList.find? (fun g => font.Oversized g) = some g ↔ font.FirstOversized g := by
  rw [List.find?_eq_some_iff_append, decide_eq_true_iff, FirstOversized]
  simp only [Bool.not_eq_true', decide_eq_false_iff_not]

/-- one glyph at most is the first oversized one -/
theorem FirstOversized.unique {g g' : Glyph} (h : font.FirstOversized g) (h' : font.FirstOversized g') : g = g' := by
  rw [← find?_oversized_eq_some_iff] at h h'
  exact Option.some.inj (h.symm.trans h')

theorem FirstOversized.mem {g : Glyph} (h : font.FirstOversized g) : g ∈ font.glyphs := by
  obtain ⟨-, before, after, hsplit, -⟩ := h
  rw [← Array.mem_toList_iff, hsplit]
  exact List.mem_append_right before List.mem_cons_self

/-- a font has one fault of a rank at most -/
theorem HasFault.unique {e e' : ValidationError} (h : font.HasFault e) (h' : font.HasFault e')
    (hrank : e.rank = e'.rank) : e = e' := by
  cases e <;> cases e' <;> try first | rfl | cases hrank
  -- only oversized glyphs come with data of their own
  obtain ⟨g, hfirst, rfl, rfl, rfl⟩ := h
  obtain ⟨g', hfirst', rfl, rfl, rfl⟩ := h'
  rw [hfirst.unique hfirst']

/-- a font with a fault cannot be used -/
theorem HasFault.not_usable {e : ValidationError} (h : font.HasFault e) : ¬font.Usable := by
  intro husable
  cases e with
  | emptyName => exact husable.name_ne h
  | zeroMaxCharWidth => exact husable.maxCharWidth_ne h
  | zeroMaxCharHeight => exact husable.maxCharHeight_ne h
  | zeroAscent => exact husable.ascent_ne h
  | zeroDescent => exact husable.descent_ne h
  | noGlyphs => exact husable.glyphs_ne h
  | oversizedGlyph code width height =>
    obtain ⟨g, hfirst, -⟩ := h
    exact not_oversized_iff.2 (husable.fits g hfirst.mem) hfirst.1

/-! ## The first fault -/

/-- the fault that is named is there, and none that counts before it -/
theorem hasFault_of_fault? {e : ValidationError} (h : font.fault? = some e) :
    font.HasFault e ∧ ∀ e', font.HasFault e' → e.rank ≤ e'.rank := by
  simp only [fault?, String.isEmpty_iff, Array.isEmpty_iff] at h
  split_ifs at h with hname hwidth hheight hascent hdescent hglyphs
  case neg =>
    obtain ⟨g, hfind, rfl⟩ := Option.map_eq_some_iff.1 h
    refine ⟨⟨g, find?_oversized_eq_some_iff.1 hfind, rfl, rfl, rfl⟩, fun e' he' => ?_⟩
    cases e' <;> first | exact absurd he' (by assumption) | exact Nat.le_refl 6
  all_goals
    obtain rfl := Option.some.inj h
    refine ⟨by assumption, fun e' he' => ?_⟩
    cases e' <;> first | exact absurd he' (by assumption) | exact Nat.le_of_ble_eq_true rfl

/-- **The first fault is named**: one that the font has, and of least rank. -/
theorem fault?_eq_some_iff {e : ValidationError} :
    font.fault? = some e ↔ font.HasFault e ∧ ∀ e', font.HasFault e' → e.rank ≤ e'.rank := by
  refine ⟨hasFault_of_fault?, fun ⟨hfault, hleast⟩ => ?_⟩
  cases hnamed : font.fault? with
  | none => exact absurd (fault?_eq_none_iff.1 hnamed) hfault.not_usable
  | some named =>
    obtain ⟨hnamedFault, hnamedLeast⟩ := hasFault_of_fault? hnamed
    have hrank : named.rank = e.rank := Nat.le_antisymm (hnamedLeast e hfault) (hleast named hnamedFault)
    rw [hnamedFault.unique hfault hrank]

theorem validate_eq_error_iff {e : ValidationError} : font.validate = .error e ↔ font.fault? = some e := by
  unfold validate
  cases font.fault? with
  | none => simp
  | some named => simp

/-! ## Rising codes -/

/-- **Where the codes rise, the first oversized glyph is the one with the smallest code.** -/
theorem Rising.least_oversized (h : font.Rising) {g : Glyph} (hfirst : font.FirstOversized g) :
    ∀ g' ∈ font.glyphs, font.Oversized g' → g.code ≤ g'.code := by
  obtain ⟨-, before, after, hsplit, hbefore⟩ := hfirst
  intro g' hg' hover
  rw [Rising, hsplit] at h
  rw [← Array.mem_toList_iff, hsplit, List.mem_append, List.mem_cons] at hg'
  rcases hg' with hg' | rfl | hg'
  · exact absurd hover (hbefore g' hg')
  · exact UInt32.le_refl _
  · obtain ⟨hrest, -⟩ := List.pairwise_cons.1 (List.pairwise_append.1 h).2.1
    exact UInt32.le_of_lt (hrest g' hg')

end Font

/-! ## Verdicts -/

/-- **Validation lets the usable fonts through, and names the first fault of any other.** A font is let through, as it
is, just if it has a name, measures and glyphs, and no glyph exceeds the measures. Otherwise the fault that is named is the
font's own, and the first of these in the order of the checks; an oversized glyph is the first one in the table. In a font
that was read from a file this is the one with the smallest code among the oversized glyphs that the index shows, in
whatever order the index has them. -/
theorem validate_names_first_fault :
    (∀ font font' : Font, font.validate = .ok font' ↔ font' = font ∧ font.Usable) ∧
    (∀ (font : Font) (e : ValidationError),
      font.validate = .error e ↔ font.HasFault e ∧ ∀ e', font.HasFault e' → e.rank ≤ e'.rank) ∧
    ∀ (file : List UInt8) (parsed : Parsed) (code : UInt32) (width height : UInt16), parse file = .ok parsed →
      parsed.font.validate = .error (.oversizedGlyph code width height) →
      ∃ (l : Layout) (index : List IndexEntry) (g : Glyph), l.Describes file ∧ l.HasIndex index ∧
        g.code = code ∧ g.width = width ∧ g.height = height ∧
        FirstShown file index g ∧ parsed.font.Oversized g ∧
        ∀ g', FirstShown file index g' → parsed.font.Oversized g' → g.code ≤ g'.code := by
  refine ⟨fun font font' => ?_, fun font e => ?_, fun file parsed code width height h hvalid => ?_⟩
  · exact Font.validate_eq_ok_iff
  · rw [Font.validate_eq_error_iff, Font.fault?_eq_some_iff]
  · obtain ⟨⟨g, hfirst, hcode, hwidth, hheight⟩, -⟩ :=
      Font.fault?_eq_some_iff.1 (Font.validate_eq_error_iff.1 hvalid)
    obtain ⟨l, hl⟩ := exists_layout_of_parse h
    obtain ⟨index, hindex, hglyphs⟩ := hl.exists_index h
    have htail : l.tail ≠ .endOfFile := by
      intro htail
      rw [if_pos htail] at hglyphs
      exact absurd hfirst.mem (by simp [hglyphs])
    have hmem := fun g => hl.mem_glyphs_iff h htail hindex (g := g)
    refine ⟨l, index, g, hl, hindex, hcode, hwidth, hheight, (hmem g).1 hfirst.mem, hfirst.1, fun g' hg' hover => ?_⟩
    exact (rising_of_parse h).least_oversized hfirst g' ((hmem g').2 hg') hover

set_option maxRecDepth 8000 in
/-- a file whose index names a glyph that is too high before one that is too wide: the latter has the smaller code. And a
font in which nothing is filled in: only its name is missed -/
theorem validate_names_first_fault_of_several :
    let low : Glyph := ⟨65, 3, 2, 1, -1, 4, #[0xB8]⟩
    let wide : Glyph := ⟨86, 9, 1, 0, 0, 10, #[0xFF, 0x80]⟩
    let tall : Glyph := ⟨87, 1, 17, 0, 0, 2, #[0xFF, 0xFF, 0x80]⟩
    let index : List IndexEntry := [⟨87, 0, 156⟩, ⟨65, 0, 133⟩, ⟨86, 0, 144⟩]
    let p : Properties := ⟨"A", "", 16, "", 8, 16, 12, 4⟩
    let l : Layout := ⟨propertySections p ++ [Section.ofIndex index],
      .glyphData 0 (low.encode ++ wide.encode ++ tall.encode)⟩
    let font : Font := ⟨p, #[low, wide, tall]⟩
    parse l.bytes = .ok ⟨font, []⟩ ∧ font.validate = .error (.oversizedGlyph 86 9 1) ∧
      (∃ g, g.code = 86 ∧ FirstShown l.bytes index g ∧
        ∀ g', FirstShown l.bytes index g' → font.Oversized g' → g.code ≤ g'.code) ∧
      ({} : Font).HasFault .noGlyphs ∧ ({} : Font).validate = .error .emptyName := by
  intro low wide tall index p l font
  have hparse : parse l.bytes = .ok ⟨font, []⟩ := by cbv
  have hl : l.Describes l.bytes := ⟨rfl, by decide⟩
  have hindex : l.HasIndex index := by decide
  obtain ⟨-, hfault, hread⟩ := validate_names_first_fault
  have hvalid : font.validate = .error (.oversizedGlyph 86 9 1) := by cbv
  obtain ⟨l', index', g, hl', hindex', hcode, -, -, hshown, -, hleast⟩ := hread l.bytes _ 86 9 1 hparse hvalid
  obtain rfl := hl'.unique hl
  obtain rfl := hindex'.unique hindex
  exact ⟨hparse, hvalid, ⟨g, hcode, hshown, hleast⟩, rfl, (hfault {} .emptyName).2 ⟨rfl, fun _ _ => Nat.zero_le _⟩⟩

end GlyphImage.Pff2
