/-
The report about a glyph, read back. The advance is written as the hundredth of a pixel that is nearest to it
(`Metrics.advancePx_spells`); since a 64th of a pixel is more than a hundredth, a larger advance is written as a larger
number (`Metrics.hundredths_lt`). Every number in the report ends at the first blank behind it, and the character stands at
a fixed place, so that the text can be cut into what it was made of (`Metrics.report_injective`), whatever the character
is. `report_is_exact_and_reversible` puts this together.
-/
import GlyphImage.Proofs.Text.Fixed
import GlyphImage.Render

namespace GlyphImage

namespace Metrics

variable {m m' : Metrics} {character character' : Char}

/-! ## The advance -/

/-- **The advance is written as the nearest hundredth.** -/
theorem advancePx_spells (m : Metrics) :
    ∃ n, Fixed.Spells 2 (m.advancePx 2) n ∧ Fixed.Rounds 100 (m.advance / 64) n :=
  Fixed.render_spells (by decide) (by decide) (by decide) m.advance

/-- **A larger advance is written as a larger number.** -/
theorem hundredths_lt {n n' : ℤ} (h : Fixed.Spells 2 (m.advancePx 2) n) (h' : Fixed.Spells 2 (m'.advancePx 2) n')
    (hlt : m.advance < m'.advance) : n < n' := by
  obtain ⟨k, hspells, hrounds⟩ := m.advancePx_spells
  obtain ⟨k', hspells', hrounds'⟩ := m'.advancePx_spells
  obtain rfl := h.unique hspells
  obtain rfl := h'.unique hspells'
  have hstep : (m.advance + 1 : ℚ) ≤ m'.advance := by exact_mod_cast hlt
  refine hrounds.lt_of_lt (by decide) hrounds' ?_
  push_cast
  linarith

theorem advance_eq_of_advancePx (h : m.advancePx 2 = m'.advancePx 2) : m.advance = m'.advance := by
  obtain ⟨n, hspells, -⟩ := m.advancePx_spells
  have hspells' := h ▸ hspells
  rcases lt_trichotomy m.advance m'.advance with hlt | heq | hgt
  · exact absurd (hundredths_lt hspells hspells' hlt) (lt_irrefl n)
  · exact heq
  · exact absurd (hundredths_lt hspells' hspells hgt) (lt_irrefl n)

theorem advancePx_ne_minus_zero (m : Metrics) : m.advancePx 2 ≠ "-0.00" := by
  obtain ⟨n, hspells, -⟩ := m.advancePx_spells
  exact hspells.ne_minus_zero

/-! ## Texts without blanks -/

/-- where a blank first stands behind two texts without blanks, they can be cut -/
theorem append_inj_of_blank {x y blank rest rest' : String} (hx : ' ' ∉ x.toList) (hy : ' ' ∉ y.toList)
    (hblank : blank.toList.head? = some ' ') (h : x ++ (blank ++ rest) = y ++ (blank ++ rest')) :
    x = y ∧ blank ++ rest = blank ++ rest' := by
  obtain ⟨tail, htail⟩ := List.head?_eq_some_iff.1 hblank
  have hcut := congrArg String.toList h
  simp only [String.toList_append, htail, List.cons_append] at hcut
  obtain ⟨hfront, -⟩ := Fixed.append_cons_inj hx hy hcut
  obtain rfl := String.toList_inj.1 hfront
  exact ⟨rfl, (String.append_right_inj x).1 h⟩

theorem blank_not_mem_nat (n : ℕ) : ' ' ∉ (toString n).toList := by
  rw [Nat.toString_eq_ofList_toDigits, String.toList_ofList]
  exact Fixed.not_mem_toDigits (by decide) n

theorem blank_not_mem_int (n : ℤ) : ' ' ∉ (toString n).toList := by
  rw [Int.toString_eq_repr, Int.repr_eq_if]
  split_ifs
  · exact blank_not_mem_nat _
  · rw [String.toList_append, List.mem_append]
    rintro (hsign | hdigit)
    · exact absurd hsign (by decide)
    · exact blank_not_mem_nat _ hdigit

theorem blank_not_mem_advancePx (m : Metrics) : ' ' ∉ (m.advancePx 2).toList := by
  obtain ⟨n, ⟨whole, decimals, htext, -, hdigits, -⟩, -⟩ := m.advancePx_spells
  rw [htext, List.mem_append, List.mem_append, List.mem_cons]
  rintro ((hsign | hwhole) | hpoint | hdecimal)
  · split_ifs at hsign <;> simp at hsign
  · exact Fixed.not_mem_toDigits (by decide) whole hwhole
  · exact absurd hpoint (by decide)
  · exact absurd (hdigits _ hdecimal) (by decide)

/-! ## The text -/

/-- the report is the given words, with the character and the numbers in between -/
theorem report_eq (m : Metrics) (character : Char) :
    m.report character = "Glyph metrics for '" ++ String.singleton character ++ "':\n  Width: " ++ toString m.width ++
      " pixels\n  Height: " ++ toString m.height ++ " pixels\n  Advance width: " ++ m.advancePx 2 ++
      " pixels\n  Bearing X: " ++ toString m.bearingX ++ " pixels\n  Bearing Y: " ++ toString m.bearingY ++
      " pixels\n" := by
  simp only [report, reportLines, String.join, List.map_cons, List.map_nil, List.foldl_cons, List.foldl_nil,
    String.append_assoc, String.empty_append]
  rfl

/-- **A report tells what it is about**, as every number ends where a blank follows. -/
theorem report_injective (h : m.report character = m'.report character') : character = character' ∧ m = m' := by
  simp only [report_eq, String.append_assoc] at h
  have hcharacter := congrArg String.toList ((String.append_right_inj _).1 h)
  simp only [String.toList_append, String.toList_singleton, List.singleton_append, List.cons.injEq] at hcharacter
  obtain ⟨rfl, hrest⟩ := hcharacter
  simp only [← String.toList_append, String.toList_inj] at hrest
  obtain ⟨hwidth, hrest⟩ := append_inj_of_blank (blank_not_mem_nat _) (blank_not_mem_nat _) rfl
    ((String.append_right_inj _).1 hrest)
  obtain ⟨hheight, hrest⟩ := append_inj_of_blank (blank_not_mem_nat _) (blank_not_mem_nat _) rfl
    ((String.append_right_inj _).1 hrest)
  obtain ⟨hadvance, hrest⟩ := append_inj_of_blank (blank_not_mem_advancePx m) (blank_not_mem_advancePx m') rfl
    ((String.append_right_inj _).1 hrest)
  obtain ⟨hbearingX, hrest⟩ := append_inj_of_blank (blank_not_mem_int _) (blank_not_mem_int _) rfl
    ((String.append_right_inj _).1 hrest)
  have hbearingY := (String.append_left_inj _).1 ((String.append_right_inj _).1 hrest)
  refine ⟨rfl, ?_⟩
  cases m
  cases m'
  rw [Metrics.mk.injEq]
  exact ⟨Nat.repr_inj.1 hwidth, Nat.repr_inj.1 hheight, advance_eq_of_advancePx hadvance, Int.repr_inj.1 hbearingX,
    Int.repr_inj.1 hbearingY⟩

end Metrics

/-- **The report is exact, and can be read back.** It is fixed words, with the character, the width, the height, the
advance and the bearings in between. The advance is written in hundredths of a pixel, as the number of them
that is nearest to the 64ths and is even if two are; it never comes out as a negative zero, and a larger advance is
written as a larger number. Two glyphs have the same report just if they are of the same character and have the same
metrics. -/
theorem report_is_exact_and_reversible :
    (∀ g : RenderedGlyph, g.report = "Glyph metrics for '" ++ String.singleton g.character ++ "':\n  Width: " ++
      toString g.metrics.width ++ " pixels\n  Height: " ++ toString g.metrics.height ++ " pixels\n  Advance width: " ++
      g.metrics.advancePx 2 ++ " pixels\n  Bearing X: " ++ toString g.metrics.bearingX ++ " pixels\n  Bearing Y: " ++
      toString g.metrics.bearingY ++ " pixels\n") ∧
    (∀ m : Metrics, m.advancePx 2 ≠ "-0.00" ∧
      ∃ n, Fixed.Spells 2 (m.advancePx 2) n ∧ Fixed.Rounds 100 (m.advance / 64) n) ∧
    (∀ (m m' : Metrics) (n n' : ℤ), Fixed.Spells 2 (m.advancePx 2) n → Fixed.Spells 2 (m'.advancePx 2) n' →
      m.advance < m'.advance → n < n') ∧
    ∀ g g' : RenderedGlyph, g.report = g'.report ↔ g.character = g'.character ∧ g.metrics = g'.metrics := by
  refine ⟨fun g => g.metrics.report_eq g.character, fun m => ⟨m.advancePx_ne_minus_zero, m.advancePx_spells⟩, ?_,
    fun g g' => ⟨fun h => Metrics.report_injective h, ?_⟩⟩
  · intro m m' n n' h h' hlt
    exact Metrics.hundredths_lt h h' hlt
  · rintro ⟨hcharacter, hmetrics⟩
    rw [RenderedGlyph.report, RenderedGlyph.report, hcharacter, hmetrics]

/-- an eighth and three eighths of a pixel lie between two hundredths each, of which the even one is written; the quote
that is the character here is told from the quotes around it -/
theorem report_is_exact_and_reversible_ties :
    let eighth : Metrics := ⟨1, 1, 8, 0, 0⟩
    let threeEighths : Metrics := ⟨1, 1, 24, 0, 0⟩
    Fixed.Spells 2 (eighth.advancePx 2) 12 ∧ Fixed.Spells 2 (threeEighths.advancePx 2) 38 ∧ (12 : ℤ) < 38 ∧
      ∀ canvas, (RenderedGlyph.mk '\'' eighth canvas).report ≠ (RenderedGlyph.mk '\'' threeEighths canvas).report := by
  intro eighth threeEighths
  obtain ⟨-, -, hless, hsame⟩ := report_is_exact_and_reversible
  have hlow : Fixed.Spells 2 (eighth.advancePx 2) 12 := ⟨0, ['1', '2'], by cbv, rfl, by simp, rfl⟩
  have hhigh : Fixed.Spells 2 (threeEighths.advancePx 2) 38 := ⟨0, ['3', '8'], by cbv, rfl, by simp, rfl⟩
  refine ⟨hlow, hhigh, hless eighth threeEighths 12 38 hlow hhigh (by decide), fun canvas h => ?_⟩
  have hmetrics : eighth = threeEighths := ((hsame _ _).1 h).2
  exact absurd hmetrics (by decide)

end GlyphImage
