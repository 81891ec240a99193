/-
Opening a font file of either kind, and using it step by step. The first bytes of a file decide its format.
`openFont` reads it and answers with a face, or an error, and with the warnings noted on the way. A `Session` is an open
face with the warnings so far; `Session.face` offers it to rendering, and `Session.step` makes one step of a longer use,
so that `Session.run` is the history of a face.
-/
import GlyphImage.Pff2.Face
import GlyphImage.Pff2.File
import GlyphImage.Render
import GlyphImage.TrueType.Face

namespace GlyphImage

/-! ## Formats -/

/-- the kinds of font files -/
inductive FontFormat where
  | pff2
  | trueType
  deriving DecidableEq, Repr

namespace FontFormat

/-- the first four bytes of outline fonts -/
def trueTypeTags : List (List UInt8) :=
  [[0x00, 0x01, 0x00, 0x00], [0x74, 0x72, 0x75, 0x65], [0x4F, 0x54, 0x54, 0x4F], [0x74, 0x74, 0x63, 0x66]]

/-- the format that the first bytes name -/
def detect (bytes : List UInt8) : Option FontFormat :=
  if Pff2.magic.isPrefixOf bytes then some .pff2
  else if bytes.take 4 ∈ trueTypeTags then some .trueType
  else none

end FontFormat

/-! ## Opening -/

/-- a font of either kind, ready for use -/
inductive OpenFace where
  | pff2 (font : Pff2.Font)
  | trueType (face : TrueType.Face)
  deriving DecidableEq, Repr

/-- reads a bitmap font and checks that it can be used; the warnings stand also when it cannot -/
def openPff2 (bytes : List UInt8) : Except FontError OpenFace × List Pff2.Warning :=
  match Pff2.parse bytes with
  | .error e => (.error (.pff2 e), [])
  | .ok parsed =>
    match parsed.font.validate with
    | .error e => (.error (.pff2Validation e), parsed.warnings)
    | .ok font => (.ok (.pff2 font), parsed.warnings)

/-- reads an outline font -/
def openTrueType (bytes : List UInt8) : Except FontError OpenFace :=
  match TrueType.Font.load bytes with
  | .error e => .error (.trueType e)
  | .ok font => .ok (.trueType { font })

/-- reads the contents of a font file -/
def openFont (bytes : List UInt8) : Except FontError OpenFace × List Pff2.Warning :=
  match FontFormat.detect bytes with
  | some .pff2 => openPff2 bytes
  | some .trueType => (openTrueType bytes, [])
  | none => (.error .unknownFormat, [])

/-! ## Use -/

namespace OpenFace

/-- the face at another size, and what is noted about it -/
def setPixelSize (face : OpenFace) (sizePx : UInt32) : Except FontError (OpenFace × List Pff2.Warning) :=
  match face with
  | pff2 font => (font.setPixelSize sizePx).map fun warnings => (pff2 font, warnings)
  | trueType face => (face.setPixelSize sizePx).map fun face => (trueType face, [])

/-- the index of a character's glyph -/
def glyphIndex : OpenFace → Char → Option GlyphIndex
  | pff2 font, character => font.glyphIndex character
  | trueType face, character => face.glyphIndex character

/-- the glyph of an index at the selected size -/
def rasterize : OpenFace → GlyphIndex → Except FontError RasterGlyph
  | pff2 font, index => font.rasterize index
  | trueType face, index => face.rasterize index

end OpenFace

/-- an open face and the warnings noted while it is used -/
structure Session where
  face : OpenFace
  warnings : List Pff2.Warning := []
  deriving DecidableEq, Repr

namespace Session

/-- selects a size; a refused size changes nothing -/
def setPixelSize (sizePx : UInt32) : StateM Session (Except FontError Unit) := fun s =>
  match s.face.setPixelSize sizePx with
  | .error e => (.error e, s)
  | .ok (face, warnings) => (.ok (), ⟨face, s.warnings ++ warnings⟩)

/-- the open face as rendering sees it -/
def asFace : Face (StateM Session) where
  setPixelSize := setPixelSize
  glyphIndex character := fun s => (s.face.glyphIndex character, s)
  rasterize index := fun s => (s.face.rasterize index, s)

/-- one use of a face -/
inductive Step where
  | setPixelSize (sizePx : UInt32)
  | glyphIndex (character : Char)
  | rasterize (index : GlyphIndex)
  | render (character : Char) (sizePx : UInt32)
  deriving DecidableEq, Repr

/-- what a use of a face gives -/
inductive Answer where
  | sizeSet (result : Except FontError Unit)
  | index (result : Option GlyphIndex)
  | raster (result : Except FontError RasterGlyph)
  | rendered (result : Except RenderError RenderedGlyph)

/-- uses the face once -/
def step : Step → StateM Session Answer
  | .setPixelSize sizePx => Answer.sizeSet <$> asFace.setPixelSize sizePx
  | .glyphIndex character => Answer.index <$> asFace.glyphIndex character
  | .rasterize index => Answer.raster <$> asFace.rasterize index
  | .render character sizePx => Answer.rendered <$> asFace.render (Job.new "" character sizePx)

/-- the session after a history of uses -/
def run (s : Session) (steps : List Step) : Session := steps.foldl (fun s use => (step use s).2) s

end Session

end GlyphImage
