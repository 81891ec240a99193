/-
Which bitmap fonts can be used. `Font.Usable` says it without an order of checks, and `Font.validate_eq_ok_iff` that
just these fonts are let through, unchanged.
-/
import GlyphImage.Pff2.Font
import Mathlib

namespace GlyphImage.Pff2.Font

/-- a font that can be used: it has a name, measures and glyphs, and no glyph exceeds the measures -/
structure Usable (font : Font) : Prop where
  name_ne : font.name ≠ ""
  maxCharWidth_ne : font.maxCharWidth ≠ 0
  maxCharHeight_ne : font.maxCharHeight ≠ 0
  ascent_ne : font.ascent ≠ 0
  descent_ne : font.descent ≠ 0
  glyphs_ne : font.glyphs ≠ #[]
  fits : ∀ g ∈ font.glyphs, g.width ≤ font.maxCharWidth ∧ g.height ≤ font.maxCharHeight

theorem not_oversized_iff {font : Font} {g : Glyph} :
    ¬font.Oversized g ↔ g.width ≤ font.maxCharWidth ∧ g.height ≤ font.maxCharHeight := by
  unfold Oversized
  rw [not_or, UInt16.not_lt, UInt16.not_lt]

/-- **A font has no fault** just if it can be used. -/
theorem fault?_eq_none_iff {font : Font} : font.fault? = none ↔ font.Usable := by
  unfold fault?
  constructor
  · intro h
    split_ifs at h with hname hwidth hheight hascent hdescent hglyphs
    refine ⟨fun hempty => hname (by simp [hempty]), hwidth, hheight, hascent, hdescent,
      fun hempty => hglyphs (by simp [hempty]), fun g hg => ?_⟩
    rw [Option.map_eq_none_iff, List.find?_eq_none] at h
    have hfits := h g (Array.mem_toList_iff.2 hg)
    exact not_oversized_iff.1 fun hover => hfits (decide_eq_true hover)
  · rintro ⟨hname, hwidth, hheight, hascent, hdescent, hglyphs, hfits⟩
    have hnone : font.glyphs.toList.find? (fun g => font.Oversized g) = none := by
      rw [List.find?_eq_none]
      intro g hg hover
      exact not_oversized_iff.2 (hfits g (Array.mem_toList_iff.1 hg)) (of_decide_eq_true hover)
    simp [hname, hwidth, hheight, hascent, hdescent, hglyphs, hnone]

/-- **Just the usable fonts are let through**, unchanged. -/
theorem validate_eq_ok_iff {font font' : Font} : font.validate = .ok font' ↔ font' = font ∧ font.Usable := by
  unfold validate
  rw [← fault?_eq_none_iff]
  cases font.fault? with
  | some e => simp
  | none => simp [eq_comm]

theorem validate_eq_ok {font font' : Font} (h : font.validate = .ok font') : font' = font :=
  (validate_eq_ok_iff.1 h).1

end GlyphImage.Pff2.Font
