/-
Reading a command line from left to right. A setting whose value is the next argument stays open until the next switch
or the end, and only then its value is checked; an attached value is checked at once. A word that is no switch and no
awaited value stops the reading immediately, before an open setting is looked at.
-/
import GlyphImage.CommandLine.Options

namespace GlyphImage.CommandLine

/-- a setting that waits for its value, or for the check of it -/
structure Pending where
  setting : Setting
  value : Option String
  deriving DecidableEq, Repr

/-- how far the reading has come -/
structure Reading where
  settings : Settings := {}
  pending : Option Pending := none
  deriving DecidableEq, Repr

namespace Reading

/-- settles the open setting -/
def settle (r : Reading) : Except Stop Settings :=
  match r.pending with
  | none => .ok r.settings
  | some ⟨_, none⟩ => .error .invalidValue
  | some ⟨setting, some value⟩ => r.settings.settle setting value

/-- meets a switch, with its attached value if it has one -/
def meet (r : Reading) (switch : Switch) (attached : Option String) : Except Stop Reading := do
  let settings ← r.settle
  match switch with
  | .help => .error .displayHelp
  | .version => .error .displayVersion
  | .setting setting =>
    match attached with
    | none => .ok ⟨settings, some ⟨setting, none⟩⟩
    | some value => .ok ⟨← settings.settle setting value, none⟩

/-- what follows a letter is its value; one equals sign between them is dropped -/
def attachedTo : List Char → Option String
  | [] => none
  | '=' :: rest => some (String.ofList rest)
  | rest => some (String.ofList rest)

/-- meets a word other than the separator -/
def word (r : Reading) : Word → Except Stop Reading
  | .separator => .error .unknownArgument
  | .long name attached =>
    match Switch.ofLong? name with
    | none => .error .unknownArgument
    | some (.setting setting) => r.meet (.setting setting) attached
    | some switch => if attached.isSome then .error .tooManyValues else r.meet switch none
  | .short letter rest =>
    match Switch.ofLetter? letter with
    | none => .error .unknownArgument
    | some switch => r.meet switch (attachedTo rest)
  | .plain text =>
    match r.pending with
    | some ⟨setting, none⟩ => .ok { r with pending := some ⟨setting, some text⟩ }
    | _ => .error .unknownArgument

/-- reads on; nothing may follow the separator -/
def words (r : Reading) : List String → Except Stop Settings
  | [] => r.settle
  | argument :: rest =>
    match Word.ofString argument with
    | .separator => if rest = [] then r.settle else .error .unknownArgument
    | w =>
      match r.word w with
      | .error stop => .error stop
      | .ok r' => r'.words rest

end Reading

/-- the job that a command line asks for -/
def parse (arguments : List String) : Except Stop Job :=
  match Reading.words {} arguments with
  | .error stop => .error stop
  | .ok settings => settings.job

end GlyphImage.CommandLine
