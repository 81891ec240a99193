/-
The words of a command line: what an argument is by its spelling alone, before anyone asks whether such an option
exists.
-/

namespace GlyphImage.CommandLine

/-- an argument by its spelling -/
inductive Word where
  /-- two dashes alone -/
  | separator
  /-- two dashes and a name, with the value behind an equals sign if there is one -/
  | long (name : String) (value : Option String)
  /-- a dash and a letter, and what follows the letter -/
  | short (letter : Char) (rest : List Char)
  /-- anything else; also a dash alone -/
  | plain (text : String)
  deriving DecidableEq, Repr

namespace Word

/-- what stands before the first equals sign, and what stands behind it if there is one -/
def splitEquals : List Char → List Char × Option (List Char)
  | [] => ([], none)
  | c :: rest =>
    if c = '=' then ([], some rest)
    else
      let (name, value) := splitEquals rest
      (c :: name, value)

/-- the word that a list of characters spells -/
def ofChars : List Char → Word
  | ['-', '-'] => separator
  | '-' :: '-' :: rest =>
    let (name, value) := splitEquals rest
    long (String.ofList name) (value.map String.ofList)
  | '-' :: letter :: rest => short letter rest
  | chars => plain (String.ofList chars)

/-- the word that an argument spells -/
def ofString (argument : String) : Word := ofChars argument.toList

end Word

end GlyphImage.CommandLine
