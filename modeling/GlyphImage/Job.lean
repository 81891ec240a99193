/-
A job: which character of which font to render, at what size, and where to put the image. Without a word about the
output, the image goes to a file in the working directory that is named after the character and the size.
-/

namespace GlyphImage

/-- one image to make -/
structure Job where
  fontPath : String
  character : Char
  /-- pixel height -/
  sizePx : UInt32
  output : String
  deriving DecidableEq, Repr

namespace Job

/-- the image file for a character at a size -/
def defaultOutput (character : Char) (sizePx : UInt32) : String :=
  s!"glyph_{character}_{sizePx.toNat}px.ppm"

/-- the job with the image file named after the character and the size -/
def new (fontPath : String) (character : Char) (sizePx : UInt32) : Job :=
  ⟨fontPath, character, sizePx, defaultOutput character sizePx⟩

/-- the same job with another image file -/
def withOutput (job : Job) (output : String) : Job := { job with output }

end Job

end GlyphImage
