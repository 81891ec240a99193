/-
What a bitmap font answers, whatever its fields are. Its glyphs may stand in any order, a code may stand several times,
and a bitmap may have any length. Each index has one of three answers (`Font.rasterize_eq_error_iff`,
`Font.rasterize_eq_ok_iff`): there is no glyph, its bitmap is too short, or it is expanded. The metrics are sums and
products of 16 bit numbers, so 32 bits hold them (`Glyph.metrics_in_range`). `any_font_answers` puts these beside what the
search finds.
-/
import GlyphImage.Pff2.Face
import GlyphImage.Proofs.Pff2.Expansion
import GlyphImage.Proofs.Pff2.Lookup

namespace GlyphImage.Pff2

/-- **32 bits hold the metrics.** -/
theorem Glyph.metrics_in_range (g : Glyph) :
    (-2 ^ 31 ≤ g.metrics.advance ∧ g.metrics.advance < 2 ^ 31) ∧
    (-2 ^ 31 ≤ g.metrics.bearingX ∧ g.metrics.bearingX < 2 ^ 31) ∧
    (-2 ^ 31 ≤ g.metrics.bearingY ∧ g.metrics.bearingY < 2 ^ 31) := by
  have hwidth := g.deviceWidth.le_toInt
  have hwidth' := g.deviceWidth.toInt_lt
  have hleft := g.xOffset.le_toInt
  have hleft' := g.xOffset.toInt_lt
  have hbottom := g.yOffset.le_toInt
  have hbottom' := g.yOffset.toInt_lt
  have hheight := g.height.toNat_lt
  simp only [metrics]
  omega

namespace Font

variable {font : Font} {index : GlyphIndex}

/-! ## Rasterising -/

theorem rasterize_of_some {g : Glyph} (h : font.ofIndex? index = some g) :
    font.rasterize index = g.coverage.map fun bitmap => ⟨bitmap, g.metrics⟩ := by
  rw [rasterize, h]

theorem rasterize_of_none (h : font.ofIndex? index = none) : font.rasterize index = .error (.noSuchGlyph index) := by
  rw [rasterize, h]

/-- **Why an index is not rasterised**: it is beyond the glyphs, or the bitmap of its glyph is too short. -/
theorem rasterize_eq_error_iff {e : FontError} :
    font.rasterize index = .error e ↔ (font.glyphs.size < index.val.toNat ∧ e = .noSuchGlyph index) ∨
      ∃ g, font.ofIndex? index = some g ∧ g.bitmap.size < Glyph.byteCount g.width.toNat g.height.toNat ∧
        e = .malformedBitmap g.width.toNat g.height.toNat g.bitmap.size := by
  rw [← ofIndex?_eq_none_iff]
  cases h : font.ofIndex? index with
  | none => simp [rasterize_of_none h, eq_comm]
  | some g =>
    rw [rasterize_of_some h, map_eq_error_iff, Glyph.coverage_eq]
    by_cases hlong : Glyph.byteCount g.width.toNat g.height.toNat ≤ g.bitmap.size
    · simp [hlong, Nat.not_lt.2 hlong]
    · simp [hlong, Nat.not_le.1 hlong, eq_comm]

/-- **Any other index is rasterised** as its glyph is expanded. -/
theorem rasterize_eq_ok_iff {raster : RasterGlyph} :
    font.rasterize index = .ok raster ↔ ∃ g, font.ofIndex? index = some g ∧
      Glyph.byteCount g.width.toNat g.height.toNat ≤ g.bitmap.size ∧ g.coverage = .ok raster.bitmap ∧
      raster.metrics = g.metrics := by
  cases h : font.ofIndex? index with
  | none => simp [rasterize_of_none h]
  | some g =>
    rw [rasterize_of_some h]
    constructor
    · intro hraster
      obtain ⟨b, hb, rfl⟩ := map_eq_ok hraster
      exact ⟨g, rfl, (Glyph.coverage_eq_ok_iff.1 hb).1, hb, rfl⟩
    · rintro ⟨g', hg', -, hb, hmetrics⟩
      obtain rfl := Option.some.inj hg'
      rw [hb, ← hmetrics]
      rfl

/-! ## Any font -/

/-- **A font of any fields answers soundly.** Its glyphs may stand in any order, any number of times and with bitmaps of
any length. If a character has an index, then the index is one of a glyph with the character's code, and this is the
character's glyph; without an index it has no glyph. Where the codes never fall, a character has an index just if a glyph
has its code. An index beyond the glyphs means no glyph; a glyph whose bitmap is too short is malformed; any other index
is rasterised with the glyph's own coverage and metrics, which 32 bits hold. -/
theorem any_font_answers (font : Font) (hsize : font.glyphs.size ≤ 2 ^ 32 - 2) :
    (∀ character index, font.glyphIndex character = some index →
      1 ≤ index.val.toNat ∧ index.val.toNat ≤ font.glyphs.size ∧
      ∃ g, font.glyphs[index.val.toNat - 1]? = some g ∧ g.code = character.val ∧ font.glyph? character = some g) ∧
    (∀ character, font.glyphIndex character = none → font.glyph? character = none) ∧
    ((font.glyphs.toList.Pairwise fun g g' => g.code ≤ g'.code) → ∀ character : Char,
      (∃ index, font.glyphIndex character = some index) ↔ ∃ g ∈ font.glyphs, g.code = character.val) ∧
    ∀ index : GlyphIndex,
      (∀ e, font.rasterize index = .error e ↔
        (font.glyphs.size < index.val.toNat ∧ e = .noSuchGlyph index) ∨
        ∃ g, font.glyphs[index.val.toNat - 1]? = some g ∧
          g.bitmap.size < (g.width.toNat * g.height.toNat + 7) / 8 ∧
          e = .malformedBitmap g.width.toNat g.height.toNat g.bitmap.size) ∧
      (∀ raster, font.rasterize index = .ok raster ↔
        ∃ g, font.glyphs[index.val.toNat - 1]? = some g ∧
          (g.width.toNat * g.height.toNat + 7) / 8 ≤ g.bitmap.size ∧ g.coverage = .ok raster.bitmap ∧
          raster.metrics = ⟨g.width.toNat, g.height.toNat, 64 * g.deviceWidth.toInt, g.xOffset.toInt,
            g.yOffset.toInt + g.height.toNat⟩) ∧
      ∀ raster, font.rasterize index = .ok raster →
        (-2 ^ 31 ≤ raster.metrics.advance ∧ raster.metrics.advance < 2 ^ 31) ∧
        (-2 ^ 31 ≤ raster.metrics.bearingX ∧ raster.metrics.bearingX < 2 ^ 31) ∧
        (-2 ^ 31 ≤ raster.metrics.bearingY ∧ raster.metrics.bearingY < 2 ^ 31) := by
  refine ⟨fun character index hindex => ?_, fun character hindex => ?_, fun hordered character => ?_, fun index =>
    ⟨fun e => rasterize_eq_error_iff, fun raster => rasterize_eq_ok_iff, fun raster hraster => ?_⟩⟩
  · obtain ⟨g, hg, hcode⟩ := exists_of_glyphIndex hindex
    have hbound : ¬font.glyphs.size < index.val.toNat := by
      rw [← ofIndex?_eq_none_iff, hg]
      simp
    refine ⟨Nat.one_le_iff_ne_zero.2 index.toNat_ne_zero, Nat.not_lt.1 hbound, g, hg, hcode, ?_⟩
    rw [glyph?, hindex, Option.bind_some, hg]
  · rw [glyph?, hindex, Option.bind_none]
  · exact Ordered.exists_glyphIndex_iff hordered (Nat.lt_of_le_of_lt hsize (by decide))
  · obtain ⟨g, -, -, -, hmetrics⟩ := rasterize_eq_ok_iff.1 hraster
    rw [hmetrics]
    exact g.metrics_in_range

/-- a font whose codes fall and repeat, with one bitmap that is too short: of the two glyphs for `A` the later one is
found, `B` is overlooked, and the first index is malformed; the same glyphs in order are all found -/
theorem any_font_answers_unordered :
    let short : Glyph := ⟨66, 3, 3, 0, 0, 4, #[0xA4]⟩
    let first : Glyph := ⟨65, 1, 1, 0, 0, 2, #[0x80]⟩
    let second : Glyph := ⟨65, 2, 1, -1, 3, -7, #[0x40]⟩
    let font : Font := { glyphs := #[short, first, second] }
    let ordered : Font := { glyphs := #[first, second, short] }
    font.glyphs.size ≤ 2 ^ 32 - 2 ∧ ordered.glyphs.size ≤ 2 ^ 32 - 2 ∧
    (∃ index, font.glyphIndex 'A' = some index ∧ index.val = 3 ∧ font.glyph? 'A' = some second) ∧
    font.glyphIndex 'B' = none ∧ font.glyph? 'B' = none ∧
    font.rasterize ⟨1, by decide⟩ = .error (.malformedBitmap 3 3 1) ∧
    font.rasterize ⟨4, by decide⟩ = .error (.noSuchGlyph ⟨4, by decide⟩) ∧
    (∃ raster, font.rasterize ⟨3, by decide⟩ = .ok raster ∧ raster.bitmap.rows = [[0, 255]] ∧
      raster.metrics = ⟨2, 1, -448, -1, 4⟩ ∧ -2 ^ 31 ≤ raster.metrics.advance) ∧
    ordered.glyphs.toList.Pairwise (fun g g' => g.code ≤ g'.code) ∧
    ∃ index, ordered.glyphIndex 'B' = some index := by
  intro short first second font ordered
  have hsize : font.glyphs.size ≤ 2 ^ 32 - 2 := by decide
  have hsize' : ordered.glyphs.size ≤ 2 ^ 32 - 2 := by decide
  have hordered : ordered.glyphs.toList.Pairwise fun g g' => g.code ≤ g'.code := by decide
  obtain ⟨hfound, hmissing, -, hraster⟩ := any_font_answers font hsize
  obtain ⟨-, -, hcomplete, -⟩ := any_font_answers ordered hsize'
  have hA : font.glyphIndex 'A' = some ⟨3, by decide⟩ := by cbv
  have hB : font.glyphIndex 'B' = none := by cbv
  obtain ⟨-, -, g, hg, -, hglyph⟩ := hfound 'A' _ hA
  obtain rfl : second = g := Option.some.inj hg
  have hexpanded : ∃ b, second.coverage = .ok b ∧ b.rows = [[0, 255]] :=
    ⟨_, Glyph.coverage_eq_ok_iff.2 ⟨by decide, rfl⟩, by decide⟩
  obtain ⟨b, hb, hrows⟩ := hexpanded
  have hmetrics : second.metrics = ⟨2, 1, -448, -1, 4⟩ := by decide
  have hrastered := ((hraster ⟨3, by decide⟩).2.1 ⟨b, ⟨2, 1, -448, -1, 4⟩⟩).2
    ⟨second, rfl, by decide, hb, hmetrics.symm⟩
  obtain ⟨⟨hadvance, -⟩, -⟩ := (hraster ⟨3, by decide⟩).2.2 _ hrastered
  refine ⟨hsize, hsize', ⟨_, hA, rfl, hglyph⟩, hB, hmissing 'B' hB, ?_, ?_, ⟨_, hrastered, hrows, rfl, hadvance⟩,
    hordered, ?_⟩
  · exact ((hraster _).1 _).2 (Or.inr ⟨short, rfl, by decide, rfl⟩)
  · exact ((hraster _).1 _).2 (Or.inl ⟨by decide, rfl⟩)
  · exact (hcomplete hordered 'B').2 ⟨short, by simp [ordered], rfl⟩

end Font

end GlyphImage.Pff2
