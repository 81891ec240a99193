/-
How settings are spelled on a command line, apart from any reader. A value is attached to the name of its setting, or it
is the argument that follows the name. `Assigns` says which settings a whole command line spells, in the order of its
arguments, and `Gives` looks for one of them. `Settings.assignments` are the values that spell some settings, and
`Numeral` says which number a text is.
-/
import GlyphImage.CommandLine.Parse

namespace GlyphImage.CommandLine

/-! ## Names and values -/

namespace Setting

/-- every setting -/
def all : List Setting := [.fontFile, .character, .size, .output]

/-- the name behind two dashes -/
def longName : Setting → String
  | fontFile => "font-file"
  | character => "char"
  | size => "size"
  | output => "output"

/-- the letter behind one dash -/
def letter : Setting → Char
  | fontFile => 'f'
  | character => 'c'
  | size => 's'
  | output => 'o'

/-- the argument that attaches a value to the long name -/
def spelled (setting : Setting) (value : String) : String := "--" ++ setting.longName ++ "=" ++ value

/-- the argument names the setting, and the next one is to be its value -/
def Names (setting : Setting) (argument : String) : Prop :=
  argument = "--" ++ setting.longName ∨ argument = "-" ++ String.singleton setting.letter

/-- the argument names the setting and holds its value: behind an equals sign, or right behind the letter if the value is
not empty and does not start with that sign itself -/
def Attaches (setting : Setting) (value argument : String) : Prop :=
  argument = setting.spelled value ∨
  argument = "-" ++ String.singleton setting.letter ++ "=" ++ value ∨
  argument = "-" ++ String.singleton setting.letter ++ value ∧ value ≠ "" ∧ value.toList.head? ≠ some '='

end Setting

/-- the argument can be a value of its own: it does not start with a dash, or it is the dash alone -/
def IsValue (argument : String) : Prop := argument = "-" ∨ argument.toList.head? ≠ some '-'

/-! ## Command lines -/

/-- a setting and the value that is given to it -/
abbrev Assignment := Setting × String

/-- the arguments spell these settings, one behind the other, and nothing else but perhaps two dashes at the end -/
inductive Assigns : List String → List Assignment → Prop where
  | nothing : Assigns [] []
  | separator : Assigns ["--"] []
  | attached {setting : Setting} {value argument : String} {rest : List String} {later : List Assignment}
      (hargument : setting.Attaches value argument) (hlater : Assigns rest later) :
      Assigns (argument :: rest) ((setting, value) :: later)
  | following {setting : Setting} {value argument : String} {rest : List String} {later : List Assignment}
      (hargument : setting.Names argument) (hvalue : IsValue value) (hlater : Assigns rest later) :
      Assigns (argument :: value :: rest) ((setting, value) :: later)

/-- somewhere among the arguments the setting is named with this value attached to it or right behind it -/
def Gives (arguments : List String) (setting : Setting) (value : String) : Prop :=
  (∃ argument ∈ arguments, setting.Attaches value argument) ∨
  ∃ argument, setting.Names argument ∧ [argument, value] <:+: arguments

namespace Settings

/-- makes settings one after another, up to the first that is refused -/
def settleAll (s : Settings) : List Assignment → Except Stop Settings
  | [] => .ok s
  | (setting, value) :: rest => do
    let s' ← s.settle setting value
    s'.settleAll rest

theorem settleAll_cons {s made : Settings} {setting : Setting} {value : String} {later : List Assignment}
    (h : s.settle setting value = .ok made) : s.settleAll ((setting, value) :: later) = made.settleAll later := by
  rw [settleAll, h]
  rfl

/-! ## Values of settings -/

/-- the value that spells what a setting is set to -/
def text? (s : Settings) : Setting → Option String
  | .fontFile => s.fontFile
  | .character => s.character.map String.singleton
  | .size => s.size.map fun n => toString n.toNat
  | .output => s.output

/-- the values that spell the settings -/
def assignments (s : Settings) : List Assignment :=
  Setting.all.filterMap fun setting => (s.text? setting).map fun value => (setting, value)

/-- no path is empty, and the size is not 0 -/
def Allowed (s : Settings) : Prop := s.fontFile ≠ some "" ∧ s.size ≠ some 0 ∧ s.output ≠ some ""

instance (s : Settings) : Decidable s.Allowed := inferInstanceAs (Decidable (_ ∧ _))

end Settings

/-- the text is a decimal number: one digit or more, after a plus sign if there is one -/
def Numeral (text : String) (n : Nat) : Prop :=
  ∃ digits : List Char, (text.toList = digits ∨ text.toList = '+' :: digits) ∧ digits ≠ [] ∧
    (∀ d ∈ digits, d.isDigit = true) ∧ Nat.ofDigitChars 10 digits 0 = n

end GlyphImage.CommandLine
