/-
Directory trees and the paths into them, with the rules of POSIX systems. A tree is a list of named entries of which the
first of a name counts; `find?` looks one up and `store` replaces one, which changes no other (`find?_store`). Paths
are followed name by name from a directory: `readTarget` and `writeTarget` say which entry a path means for reading and
for writing, or why it means none.
-/
import GlyphImage.IoError
import GlyphImage.Text.Utf8

namespace GlyphImage

/-! ## Trees -/

/-- a device that stands in a directory like a file -/
inductive Device where
  /-- takes everything and keeps nothing -/
  | null
  /-- has no room for a single byte -/
  | full
  deriving DecidableEq, Repr

/-- what stands at a place of a tree -/
inductive Entry where
  | directory
  | file (contents : List UInt8)
  | device (device : Device)
  deriving DecidableEq, Repr

/-- a place: the names from the root down to it -/
abbrev Location := List String

/-- a directory tree; the root is always there -/
structure FileTree where
  entries : List (Location × Entry)
  deriving DecidableEq, Repr

namespace FileTree

/-- the entry at a place -/
def find? (t : FileTree) (place : Location) : Option Entry :=
  if place = [] then some .directory else t.entries.lookup place

/-- puts an entry at a place -/
def store (t : FileTree) (place : Location) (e : Entry) : FileTree := ⟨(place, e) :: t.entries⟩

/-- only the place that is stored to changes -/
theorem find?_store (t : FileTree) (place other : Location) (e : Entry) (h : place ≠ []) :
    (t.store place e).find? other = if other = place then some e else t.find? other := by
  unfold find? store
  by_cases ho : other = place
  · subst ho; simp [h]
  · have hb : (other == place) = false := beq_false_of_ne ho
    simp [List.lookup_cons, hb, ho]

/-! ## Paths -/

/-- a path, cut at its slashes; empty parts are dropped -/
structure Path where
  absolute : Bool
  names : List String
  /-- the path ends in a slash -/
  slashAtEnd : Bool
  deriving DecidableEq, Repr

/-- the parts between slashes -/
def splitSlash : List Char → List (List Char)
  | [] => [[]]
  | c :: rest =>
    if c = '/' then [] :: splitSlash rest
    else
      match splitSlash rest with
      | [] => [[c]]
      | part :: parts => (c :: part) :: parts

/-- the path that a text spells -/
def Path.ofString (text : String) : Path :=
  let chars := text.toList
  { absolute := chars.head? = some '/'
    names := ((splitSlash chars).filter (· ≠ [])).map String.ofList
    slashAtEnd := chars.getLast? = some '/' }

/-- the most bytes that a path may take -/
def pathLimit : Nat := 4095

/-- the most bytes that a name may take -/
def nameLimit : Nat := 255

/-- a path that no system call takes -/
def pathFault? (text : String) : Option IoError :=
  if '\x00' ∈ text.toList then some .nulInPath
  else if text.isEmpty then some .notFound
  else if pathLimit < (Utf8.encode text).length then some .nameTooLong
  else none

/-- the place that a name means in a directory -/
def child (directory : Location) (name : String) : Except IoError Location :=
  if name = "." then .ok directory
  else if name = ".." then .ok directory.dropLast
  else if nameLimit < (Utf8.encode name).length then .error .nameTooLong
  else .ok (directory ++ [name])

/-- follows names from a directory down to a directory -/
def descend (t : FileTree) (directory : Location) : List String → Except IoError Location
  | [] => .ok directory
  | name :: rest =>
    match child directory name with
    | .error e => .error e
    | .ok place =>
      match t.find? place with
      | none => .error .notFound
      | some .directory => t.descend place rest
      | some _ => .error .notADirectory

/-- where following a path starts -/
def Path.origin (p : Path) (workDir : Location) : Location := if p.absolute then [] else workDir

/-- the file or device that a path means for reading -/
def readTarget (t : FileTree) (workDir : Location) (text : String) : Except IoError Location :=
  match pathFault? text with
  | some e => .error e
  | none =>
    let p := Path.ofString text
    match p.names.getLast? with
    | none => .error .isADirectory
    | some last => do
      let directory ← t.descend (p.origin workDir) p.names.dropLast
      let place ← child directory last
      match t.find? place with
      | none => .error .notFound
      | some .directory => .error .isADirectory
      | some _ => if p.slashAtEnd then .error .notADirectory else .ok place

/-- the place that a path means for writing: a file or device that is there, or a free place in a directory -/
def writeTarget (t : FileTree) (workDir : Location) (text : String) : Except IoError Location :=
  match pathFault? text with
  | some e => .error e
  | none =>
    let p := Path.ofString text
    match p.names.getLast? with
    | none => .error .isADirectory
    | some last => do
      let directory ← t.descend (p.origin workDir) p.names.dropLast
      if last = "." ∨ last = ".." ∨ p.slashAtEnd then .error .isADirectory
      else
        let place ← child directory last
        match t.find? place with
        | some .directory => .error .isADirectory
        | _ => .ok place

/-! ## Files -/

/-- the contents that a path leads to; devices have none -/
def read (t : FileTree) (workDir : Location) (text : String) : Except IoError (List UInt8) :=
  (t.readTarget workDir text).map fun place =>
    match t.find? place with
    | some (.file contents) => contents
    | _ => []

/-- an empty file at the place that a path means; a device stays as it is -/
def create (t : FileTree) (workDir : Location) (text : String) : Except IoError (Location × FileTree) :=
  (t.writeTarget workDir text).map fun place =>
    match t.find? place with
    | some (.device _) => (place, t)
    | _ => (place, t.store place (.file []))

/-- adds to what stands at a place -/
def append (t : FileTree) (place : Location) (bytes : List UInt8) : Except IoError FileTree :=
  match t.find? place with
  | some (.file contents) => .ok (t.store place (.file (contents ++ bytes)))
  | some (.device .full) => if bytes = [] then .ok t else .error .noSpace
  | _ => .ok t

/-- the files below a directory that are new or have other contents than in `earlier`, named from that directory -/
def changes (t earlier : FileTree) (directory : Location) : List (Location × List UInt8) :=
  (t.entries.map (·.1)).eraseDups.filterMap fun place =>
    match t.find? place with
    | some (.file contents) =>
      if directory.isPrefixOf place ∧ earlier.find? place ≠ some (.file contents) then
        some (place.drop directory.length, contents)
      else none
    | _ => none

end FileTree

end GlyphImage
