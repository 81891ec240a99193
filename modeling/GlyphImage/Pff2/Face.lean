/-
A bitmap font as something to render from. It comes in one size: any other size is noted with a warning and changes
nothing, so there is no state to keep.
-/
import GlyphImage.Font.Face
import GlyphImage.Pff2.Font

namespace GlyphImage.Pff2.Font

/-- what is noted when a size is selected; 0 is no size -/
def setPixelSize (font : Font) (sizePx : UInt32) : Except FontError (List Warning) :=
  if sizePx = 0 then .error (.invalidPixelSize sizePx)
  else if sizePx = font.pointSize.toUInt32 then .ok []
  else .ok [.sizeMismatch font.name font.pointSize sizePx]

/-- the glyph of an index -/
def rasterize (font : Font) (index : GlyphIndex) : Except FontError RasterGlyph :=
  match font.ofIndex? index with
  | none => .error (.noSuchGlyph index)
  | some glyph => glyph.coverage.map fun bitmap => ⟨bitmap, glyph.metrics⟩

end GlyphImage.Pff2.Font
