/-
The ways in which reading or writing a file fails, with the texts under which they are reported.
-/

namespace GlyphImage

/-- why a file operation failed -/
inductive IoError where
  /-- a name on the path does not exist -/
  | notFound
  /-- the path goes on below something that is no directory -/
  | notADirectory
  /-- a directory stands where a file is wanted -/
  | isADirectory
  /-- the device is full -/
  | noSpace
  /-- a name, or the whole path, is too long -/
  | nameTooLong
  /-- the path contains the character NUL -/
  | nulInPath
  /-- a memory of fixed size is full -/
  | writeZero
  /-- any other failure, in the words of the system -/
  | other (text : String)
  deriving DecidableEq, Repr

/-- the failure in words, with the number of the system error if there is one -/
def IoError.message : IoError → String
  | notFound => "No such file or directory (os error 2)"
  | notADirectory => "Not a directory (os error 20)"
  | isADirectory => "Is a directory (os error 21)"
  | noSpace => "No space left on device (os error 28)"
  | nameTooLong => "File name too long (os error 36)"
  | nulInPath => "file name contained an unexpected NUL byte"
  | writeZero => "failed to write whole buffer"
  | other text => text

end GlyphImage
