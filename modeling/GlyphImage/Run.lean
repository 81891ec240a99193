/-
Running a job: open the font, render the character, and store the image through a buffer. Nothing is created before the
image is complete, and the confirmation is printed after its last byte is written.
-/
import GlyphImage.Font.Open
import GlyphImage.Host.Buffer
import GlyphImage.Pixmap

namespace GlyphImage

variable {m : Type → Type} [Monad m] {handle : Type}

/-- the line that confirms an image -/
def savedLine (path : String) : String := "Saved output to " ++ path ++ "\n"

/-- stores a canvas as an image file and confirms it -/
def Canvas.save (host : Host m handle) (canvas : Canvas) (path : String) : m (Except WriteError Unit) := do
  match ← host.createFile path with
  | .error e => pure (.error (.openFile path e))
  | .ok file =>
    match ← host.writeAll file (Buffer.batches #[] (Pixmap.chunks canvas)) with
    | .error e => pure (.error (.writeFile path e))
    | .ok () =>
      host.print (savedLine path)
      pure (.ok ())

/-- notes warnings in order -/
def Host.warnAll (host : Host m handle) : List Pff2.Warning → m Unit
  | [] => pure ()
  | warning :: rest => do
    host.warn warning
    host.warnAll rest

/-- renders a job with an open face and notes the warnings -/
def OpenFace.render (host : Host m handle) (face : OpenFace) (job : Job) : m (Except RenderError RenderedGlyph) := do
  let (result, session) := Session.asFace.render job { face }
  host.warnAll session.warnings
  pure result

/-- runs a job -/
def Job.run (host : Host m handle) (job : Job) : m (Except RenderError RenderedGlyph) := do
  match ← host.readFile job.fontPath with
  | .error e => pure (.error (.loadFont job.fontPath (.io e)))
  | .ok bytes =>
    let (opened, warnings) := openFont bytes
    host.warnAll warnings
    match opened with
    | .error e => pure (.error (.loadFont job.fontPath e))
    | .ok face =>
      match ← face.render host job with
      | .error e => pure (.error e)
      | .ok rendered =>
        match ← rendered.canvas.save host job.output with
        | .error e => pure (.error (.write e))
        | .ok () => pure (.ok rendered)

end GlyphImage
