/-
What a job asks of its surroundings: to read a file, to create one and fill it, to print, and to note warnings. A `Host`
answers these in a monad of its own, so that the same job runs on a real system and on the simulated machine of
`Host.Machine`.
-/
import GlyphImage.IoError
import GlyphImage.Pff2.Error

namespace GlyphImage

/-- the surroundings of a job; `handle` stands for a file that is open for writing -/
structure Host (m : Type → Type) (handle : Type) where
  /-- the contents of the file at a path -/
  readFile : String → m (Except IoError (List UInt8))
  /-- creates the file at a path, or empties it -/
  createFile : String → m (Except IoError handle)
  /-- adds to an open file -/
  writeFile : handle → List UInt8 → m (Except IoError Unit)
  /-- prints to the standard output -/
  print : String → m Unit
  /-- prints to the standard error output -/
  complain : String → m Unit
  /-- notes a warning -/
  warn : Pff2.Warning → m Unit

end GlyphImage
