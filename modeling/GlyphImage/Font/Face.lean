/-
What rendering needs to know about a font, whatever its kind: a `Face` can be set to a size, asked for a character's
glyph, and asked to rasterise a glyph. Its three operations run in a monad, which holds whatever state and side effects
the font has. `Face.traced` is the same face with a record of the calls made to it.
-/
import GlyphImage.Font.Error
import GlyphImage.Metrics

namespace GlyphImage

/-- a glyph's coverage with its metrics -/
structure RasterGlyph where
  bitmap : Coverage
  metrics : Metrics
  deriving DecidableEq, Repr

/-- a font that can rasterise single glyphs -/
structure Face (m : Type → Type) where
  /-- selects the pixel height for what follows -/
  setPixelSize : UInt32 → m (Except FontError Unit)
  /-- the glyph of a character, if the font has one -/
  glyphIndex : Char → m (Option GlyphIndex)
  /-- the coverage of a glyph at the selected size -/
  rasterize : GlyphIndex → m (Except FontError RasterGlyph)

/-- a call of a face's operation -/
inductive Call where
  | setPixelSize (sizePx : UInt32)
  | glyphIndex (character : Char)
  | rasterize (index : GlyphIndex)
  deriving DecidableEq, Repr

namespace Face

variable {m : Type → Type} [Monad m]

/-- notes a call before it is made -/
def note {α : Type} (call : Call) (action : m α) : StateT (List Call) m α := do
  modify (· ++ [call])
  StateT.lift action

/-- the same face; every call is noted -/
def traced (face : Face m) : Face (StateT (List Call) m) where
  setPixelSize size := note (.setPixelSize size) (face.setPixelSize size)
  glyphIndex character := note (.glyphIndex character) (face.glyphIndex character)
  rasterize index := note (.rasterize index) (face.rasterize index)

end Face

end GlyphImage
