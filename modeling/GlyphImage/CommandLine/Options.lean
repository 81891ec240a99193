/-
The switches of the program, and how the values of its settings are read. A setting is settled in a fixed order: a
missing value is noticed first, then a second use, then what is wrong with the value itself.
-/
import GlyphImage.CommandLine.Word
import GlyphImage.Job

namespace GlyphImage.CommandLine

/-- why a command line gives no job -/
inductive Stop where
  | displayHelp
  | displayVersion
  | unknownArgument
  /-- a setting without a value, or an empty path -/
  | invalidValue
  /-- no number in range, or not one character -/
  | valueValidation
  /-- a setting is given twice -/
  | argumentConflict
  /-- a value for a switch that takes none -/
  | tooManyValues
  | missingRequiredArgument
  deriving DecidableEq, Repr

/-! ## Switches -/

/-- what a switch sets -/
inductive Setting where
  | fontFile
  | character
  | size
  | output
  deriving DecidableEq, Repr

/-- a switch of the program -/
inductive Switch where
  /-- takes a value -/
  | setting (s : Setting)
  | help
  | version
  deriving DecidableEq, Repr

namespace Switch

/-- the switch with a long name -/
def ofLong? (name : String) : Option Switch :=
  if name = "font-file" then some (setting .fontFile)
  else if name = "char" then some (setting .character)
  else if name = "size" then some (setting .size)
  else if name = "output" then some (setting .output)
  else if name = "help" then some help
  else if name = "version" then some version
  else none

/-- the switch with a letter -/
def ofLetter? (letter : Char) : Option Switch :=
  match letter with
  | 'f' => some (setting .fontFile)
  | 'c' => some (setting .character)
  | 's' => some (setting .size)
  | 'o' => some (setting .output)
  | 'h' => some help
  | 'V' => some version
  | _ => none

end Switch

/-! ## Values -/

/-- a path has at least one character -/
def readPath (text : String) : Except Stop String := if text.isEmpty then .error .invalidValue else .ok text

/-- exactly one character -/
def readCharacter (text : String) : Except Stop Char :=
  match text.toList with
  | [c] => .ok c
  | _ => .error .valueValidation

/-- the number that decimal digits spell -/
def digitsValue (digits : List Char) : Nat := digits.foldl (fun n d => 10 * n + (d.toNat - 48)) 0

/-- the digits of a number, after a plus sign if there is one -/
def unsignedDigits : List Char → List Char
  | '+' :: rest => rest
  | chars => chars

/-- a decimal number from 1 to the largest that 32 bits hold -/
def readSize (text : String) : Except Stop UInt32 :=
  let digits := unsignedDigits text.toList
  if digits ≠ [] ∧ digits.all Char.isDigit ∧ 0 < digitsValue digits ∧ digitsValue digits < UInt32.size then
    .ok (UInt32.ofNat (digitsValue digits))
  else .error .valueValidation

/-! ## Settings -/

/-- the settings made so far -/
structure Settings where
  fontFile : Option String := none
  character : Option Char := none
  size : Option UInt32 := none
  output : Option String := none
  deriving DecidableEq, Repr

namespace Settings

/-- a value that has not been set before -/
def once {α : Type} (before : Option α) (value : Except Stop α) : Except Stop (Option α) :=
  if before.isSome then .error .argumentConflict else value.map some

/-- makes a setting -/
def settle (s : Settings) (setting : Setting) (value : String) : Except Stop Settings :=
  match setting with
  | .fontFile => (once s.fontFile (readPath value)).map ({ s with fontFile := · })
  | .character => (once s.character (readCharacter value)).map ({ s with character := · })
  | .size => (once s.size (readSize value)).map ({ s with size := · })
  | .output => (once s.output (readPath value)).map ({ s with output := · })

/-- the character when none is given -/
def defaultCharacter : Char := 'A'

/-- the pixel height when none is given -/
def defaultSize : UInt32 := 48

/-- the job that the settings describe; only the font file has no default -/
def job (s : Settings) : Except Stop Job :=
  match s.fontFile with
  | none => .error .missingRequiredArgument
  | some fontFile =>
    let job := Job.new fontFile (s.character.getD defaultCharacter) (s.size.getD defaultSize)
    .ok (s.output.elim job job.withOutput)

end Settings

end GlyphImage.CommandLine
