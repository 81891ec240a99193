/-
The command line program on a real system.
-/
import GlyphImage.Program

namespace GlyphImage

/-- the failure with a system's error number, which may come with its sign changed -/
def numberedError (code : UInt32) (text : String) : IoError :=
  match (if code < 0x80000000 then code else 0 - code).toNat with
  | 2 => .notFound
  | 20 => .notADirectory
  | 21 => .isADirectory
  | 28 => .noSpace
  | 36 => .nameTooLong
  | number => .other (text.capitalize ++ s!" (os error {number})")

/-- the failure that a system reports -/
def systemError (e : IO.Error) : IoError :=
  match e with
  | .noFileOrDirectory .. => .notFound
  | .inappropriateType _ code text => numberedError code text
  | .resourceExhausted _ code text => numberedError code text
  | .invalidArgument _ code text => numberedError code text
  | .permissionDenied _ code text => numberedError code text
  | e => .other (toString e)

/-- runs an action and keeps its failure -/
def attempt {α : Type} (action : IO α) : IO (Except IoError α) := do
  try
    return .ok (← action)
  catch e => return .error (systemError e)

/-- the running system as the surroundings of a job; warnings are not shown -/
def systemHost : Host IO IO.FS.Handle where
  readFile path := attempt do return (← IO.FS.readBinFile path).toList
  createFile path := attempt (IO.FS.Handle.mk path .write)
  writeFile file bytes := attempt do
    file.write ⟨bytes.toArray⟩
    file.flush
  print text := IO.print text
  complain text := IO.eprint text
  warn _ := pure ()

end GlyphImage

def main (arguments : List String) : IO UInt32 :=
  GlyphImage.Program.run GlyphImage.systemHost arguments
