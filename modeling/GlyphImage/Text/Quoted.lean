/-
Text between quotes, as error messages show it. `char` and `string` write a value so that nothing invisible stays in
it: the usual short escapes, the quote in use, and a code point in braces for a character that only changes its
neighbour or shows nothing of its own.
-/
import GlyphImage.Text.Combining
import GlyphImage.Text.Hexadecimal
import GlyphImage.Text.Unprintable

namespace GlyphImage.Quoted

/-- one character between quotes of the kind `quote` -/
def escape (quote c : Char) : String :=
  if c = '\x00' then "\\0"
  else if c = '\t' then "\\t"
  else if c = '\n' then "\\n"
  else if c = '\r' then "\\r"
  else if c = '\\' then "\\\\"
  else if c = quote then "\\" ++ String.singleton quote
  else if Combining.holds c || Unprintable.holds c then "\\u\x7b" ++ Hexadecimal.lower c.toNat ++ "\x7d"
  else String.singleton c

/-- a character in single quotes -/
def char (c : Char) : String := "'" ++ escape '\x27' c ++ "'"

/-- a text in double quotes -/
def string (text : List Char) : String := "\"" ++ String.join (text.map (escape '"')) ++ "\""

end GlyphImage.Quoted
