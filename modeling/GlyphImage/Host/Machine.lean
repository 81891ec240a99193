/-
A simulated machine: a directory tree with a working directory, what was printed, and the warnings noted. It is a host
like any other, so what a job does to a machine can be computed and compared with the machine before. `Machine.hostOn`
is the same machine with a disk that fails at times, as its `Faults` say; a disk without faults is `Machine.host`.
-/
import GlyphImage.Host.Basic
import GlyphImage.Host.FileTree

namespace GlyphImage

/-- a machine between two actions -/
structure Machine where
  tree : FileTree
  workDir : Location
  output : String := ""
  errorOutput : String := ""
  warnings : List Pff2.Warning := []
  deriving DecidableEq, Repr

namespace Machine

/-- creates a file on the machine -/
def createFile (path : String) : StateM Machine (Except IoError Location) := fun s =>
  match s.tree.create s.workDir path with
  | .error e => (.error e, s)
  | .ok (place, tree) => (.ok place, { s with tree })

/-- adds to a file of the machine -/
def writeFile (place : Location) (bytes : List UInt8) : StateM Machine (Except IoError Unit) := fun s =>
  match s.tree.append place bytes with
  | .error e => (.error e, s)
  | .ok tree => (.ok (), { s with tree })

/-- the machine as the surroundings of a job -/
def host : Host (StateM Machine) Location where
  readFile path := fun s => (s.tree.read s.workDir path, s)
  createFile := createFile
  writeFile := writeFile
  print text := fun s => ((), { s with output := s.output ++ text })
  complain text := fun s => ((), { s with errorOutput := s.errorOutput ++ text })
  warn warning := fun s => ((), { s with warnings := s.warnings ++ [warning] })

/-! ## Faults -/

/-- when a disk fails, whatever its tree says -/
structure Faults where
  /-- the file at a path cannot be read -/
  reading : FileTree → String → Option IoError := fun _ _ => none
  /-- no file can be created at a path -/
  creating : FileTree → String → Option IoError := fun _ _ => none
  /-- bytes cannot be added to a file; the given number of them still arrives -/
  writing : FileTree → Location → List UInt8 → Option (Nat × IoError) := fun _ _ _ => none

/-- the machine with a disk that has faults -/
def hostOn (faults : Faults) : Host (StateM Machine) Location where
  readFile path := fun s =>
    match faults.reading s.tree path with
    | some e => (.error e, s)
    | none => host.readFile path s
  createFile path := fun s =>
    match faults.creating s.tree path with
    | some e => (.error e, s)
    | none => createFile path s
  writeFile place bytes := fun s =>
    match faults.writing s.tree place bytes with
    | some (arrived, e) => (.error e, (writeFile place (bytes.take arrived) s).2)
    | none => writeFile place bytes s
  print := host.print
  complain := host.complain
  warn := host.warn

theorem hostOn_faultless : hostOn {} = host := rfl

end Machine

end GlyphImage
