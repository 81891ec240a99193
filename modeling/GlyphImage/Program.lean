/-
The program as a whole: read the command line, run the job, report. The exit code is 0 for an image (and for help and
version texts), 1 for a failed job, and 2 for a command line that asks for none.
-/
import GlyphImage.CommandLine.Parse
import GlyphImage.Run

namespace GlyphImage.Program

/-- the answer to `--version` -/
def versionText : String := "glyph-render 0.1.0\n"

/-- the answer to `--help` -/
def helpText : String :=
  "Render a single glyph into a PPM image and print its metrics\n\n" ++
  "Usage: glyph-render [OPTIONS] --font-file <FONT_FILE>\n\n" ++
  "Options:\n" ++
  "  -f, --font-file <FONT_FILE>  TrueType/OpenType (.ttf, .otf) or GRUB (.pf2) font\n" ++
  "  -c, --char <CHARACTER>       [default: A]\n" ++
  "  -s, --size <SIZE>            Pixel height to rasterize at [default: 48]\n" ++
  "  -o, --output <OUTPUT>        Defaults to glyph_<char>_<size>px.ppm\n" ++
  "  -h, --help                   Print help\n" ++
  "  -V, --version                Print version\n"

/-- a command line that cannot be used, in words -/
def usageText : CommandLine.Stop → String
  | .displayHelp => helpText
  | .displayVersion => versionText
  | .unknownArgument => "error: unexpected argument found\n"
  | .invalidValue => "error: a value is required for an option but none was supplied\n"
  | .valueValidation => "error: invalid value for an option\n"
  | .argumentConflict => "error: an option cannot be used multiple times\n"
  | .tooManyValues => "error: unexpected value for an option that takes none\n"
  | .missingRequiredArgument => "error: the following required arguments were not provided: --font-file <FONT_FILE>\n"

/-- causes below each other, indented, and numbered from `first` if there are several -/
def causeLines (numbered : Bool) (first : Nat) : List String → String
  | [] => ""
  | cause :: rest =>
    (if numbered then s!"    {first}: " else "    ") ++ cause ++ "\n" ++ causeLines numbered (first + 1) rest

/-- a failed job in words: the error, and what caused it -/
def failureText (e : RenderError) : String :=
  "Error: " ++ e.message ++ "\n" ++
    if e.causes = [] then "" else "\nCaused by:\n" ++ causeLines (1 < e.causes.length) 0 e.causes

variable {m : Type → Type} [Monad m] {handle : Type}

/-- does what the arguments ask for; gives the exit code -/
def run (host : Host m handle) (arguments : List String) : m UInt32 := do
  match CommandLine.parse arguments with
  | .error .displayHelp =>
    host.print helpText
    pure 0
  | .error .displayVersion =>
    host.print versionText
    pure 0
  | .error stop =>
    host.complain (usageText stop)
    pure 2
  | .ok job =>
    match ← job.run host with
    | .error e =>
      host.complain (failureText e)
      pure 1
    | .ok rendered =>
      host.print rendered.report
      pure 0

end GlyphImage.Program
