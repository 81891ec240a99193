/-
Rendering a glyph: select the size, find the character, rasterise its glyph, and frame the coverage on a canvas. Each
step happens only if those before it succeeded. `RenderError` names the step that failed and keeps its cause; an
allocation failure is reported as such whichever step meets it.
-/
import GlyphImage.Font.Face
import GlyphImage.Job

namespace GlyphImage

/-! ## Errors -/

/-- why an image could not be stored -/
inductive WriteError where
  /-- the file could not be created -/
  | openFile (path : String) (cause : IoError)
  /-- the file could not be filled -/
  | writeFile (path : String) (cause : IoError)
  deriving DecidableEq, Repr

namespace WriteError

/-- the error in words -/
def message : WriteError → String
  | openFile path _ => "Failed to open file for writing: " ++ path
  | writeFile path _ => "Failed to write image data to " ++ path

/-- the causes below the error, outermost first -/
def causes : WriteError → List String
  | openFile _ cause => [cause.message]
  | writeFile _ cause => [cause.message]

end WriteError

/-- why a job failed -/
inductive RenderError where
  | loadFont (path : String) (cause : FontError)
  | setSize (sizePx : UInt32) (cause : FontError)
  | glyphNotFound (character : Char)
  | rasterize (character : Char) (cause : FontError)
  | allocation (cause : AllocationError)
  | write (cause : WriteError)
  deriving DecidableEq, Repr

namespace RenderError

/-- the error in words -/
def message : RenderError → String
  | loadFont path _ => "Failed to load font " ++ path
  | setSize sizePx _ => s!"Failed to set font size to {sizePx.toNat}px"
  | glyphNotFound character => "Character " ++ Quoted.char character ++ " not found in font"
  | rasterize character _ => "Failed to render glyph for " ++ Quoted.char character
  | allocation _ => "Failed to allocate memory for buffer"
  | write cause => cause.message

/-- the causes below the error, outermost first -/
def causes : RenderError → List String
  | loadFont _ cause => cause.message :: cause.causes
  | setSize _ cause => cause.message :: cause.causes
  | glyphNotFound _ => []
  | rasterize _ cause => cause.message :: cause.causes
  | allocation cause => cause.message :: cause.causes
  | write cause => cause.causes

/-- the error of a face that could not rasterise the glyph of a character -/
def ofRasterize (character : Char) : FontError → RenderError
  | .allocation cause => .allocation cause
  | cause => .rasterize character cause

end RenderError

/-! ## Rendering -/

/-- a glyph on its canvas -/
structure RenderedGlyph where
  character : Char
  metrics : Metrics
  canvas : Canvas
  deriving DecidableEq, Repr

namespace RenderedGlyph

/-- the report about the glyph -/
def report (g : RenderedGlyph) : String := g.metrics.report g.character

/-- frames what a face rasterised for a character -/
def ofRaster (character : Char) : Except FontError RasterGlyph → Except RenderError RenderedGlyph
  | .error cause => .error (.ofRasterize character cause)
  | .ok glyph =>
    match Canvas.framing glyph.bitmap with
    | .error cause => .error (.allocation cause)
    | .ok canvas => .ok ⟨character, glyph.metrics, canvas⟩

end RenderedGlyph

/-- renders the job's character at the job's size -/
def Face.render {m : Type → Type} [Monad m] (face : Face m) (job : Job) : m (Except RenderError RenderedGlyph) := do
  match ← face.setPixelSize job.sizePx with
  | .error cause => pure (.error (.setSize job.sizePx cause))
  | .ok () =>
    match ← face.glyphIndex job.character with
    | none => pure (.error (.glyphNotFound job.character))
    | some index => RenderedGlyph.ofRaster job.character <$> face.rasterize index

end GlyphImage
