/-
An outline font at a size. Only glyphs that the font has are rasterised: an index is a glyph number just if it takes 16
bits and lies below the number of glyphs. The bitmap has the size that the metrics tell, and it is accepted like any
other buffer, so its extent has to fit a 64 bit size.
-/
import GlyphImage.Font.Face
import GlyphImage.TrueType.Font
import GlyphImage.TrueType.Raster

namespace GlyphImage.TrueType

/-- a glyph that was filled: its metrics, and its coverage bytes row by row -/
structure Raster where
  metrics : Metrics
  bytes : Array UInt8
  deriving DecidableEq, Repr

/-- the bytes as the bitmap that the metrics tell, without padding, if they are accepted as such -/
def Raster.toGlyph (r : Raster) : Except FontError RasterGlyph :=
  match Coverage.ofBuffer? r.metrics.width r.metrics.height r.metrics.width r.bytes with
  | some bitmap => .ok ⟨bitmap, r.metrics⟩
  | none => .error (.malformedBitmap r.metrics.width r.metrics.height r.bytes.size)

namespace Font

/-- the outline of a glyph; one that no character maps to, or that cannot be read, is empty -/
def outline (font : Font) (glyph : Nat) : Outline :=
  if font.isMapped glyph then
    match (font.outlineData? glyph).bind contours? with
    | some contours => .ofContours font.unitsPerEm contours
    | none => .empty
  else .empty

/-- the width of a glyph in font units; one that no character maps to has none -/
def width (font : Font) (glyph : Nat) : Nat := if font.isMapped glyph then font.advance glyph else 0

/-- a glyph of the font at a pixel size; the top edge is counted in 32 bits and wraps around -/
def raster (font : Font) (sizePx : UInt32) (glyph : Nat) : Raster :=
  let outline := font.outline glyph
  let scale := sizePx.toFloat32 / Float32.ofNat font.unitsPerEm
  let frame := Frame.of outline scale
  { bytes := coverageBytes frame outline
    metrics :=
      { width := frame.width
        height := frame.height
        advance := (scale * Float32.ofNat (font.width glyph) * 64).round.toInt32.toInt
        bearingX := frame.left.toInt
        bearingY := (frame.bottom + Int32.ofNat frame.height).toInt } }

/-- the glyph number of an index: it takes 16 bits, and the font has a glyph of this number -/
def glyphId? (font : Font) (index : GlyphIndex) : Option UInt16 :=
  index.toUInt16?.filter fun id => id.toNat < font.glyphCount

end Font

/-- an outline font at a selected size -/
structure Face where
  font : Font
  /-- 16 pixels until another size is selected -/
  sizePx : UInt32 := 16
  deriving DecidableEq, Repr

namespace Face

/-- the same font at another size, which is not 0 -/
def setPixelSize (face : Face) (sizePx : UInt32) : Except FontError Face :=
  if sizePx = 0 then .error (.invalidPixelSize sizePx) else .ok { face with sizePx }

/-- the index of a character's glyph -/
def glyphIndex (face : Face) (character : Char) : Option GlyphIndex :=
  (face.font.glyph? character).bind GlyphIndex.ofNat?

/-- the glyph of an index at the selected size -/
def rasterize (face : Face) (index : GlyphIndex) : Except FontError RasterGlyph :=
  match face.font.glyphId? index with
  | some id => (face.font.raster face.sizePx id.toNat).toGlyph
  | none => .error (.noSuchGlyph index)

end Face

end GlyphImage.TrueType
