/-
What can be wrong with a bitmap font: the faults of its bytes (`ParseError`), the faults of its contents
(`ValidationError`), and what is only worth a warning (`Warning`).
-/
import GlyphImage.Text.Hexadecimal
import GlyphImage.Text.Quoted
import GlyphImage.Text.Utf8

namespace GlyphImage.Pff2

/-- a code point as messages show it -/
def codePointText (code : UInt32) : String := "U+" ++ Hexadecimal.upper 4 code.toNat

/-- the name of a section: four bytes -/
structure Tag where
  first : UInt8
  second : UInt8
  third : UInt8
  fourth : UInt8
  deriving DecidableEq, Repr

/-- the bytes of a name -/
def Tag.bytes (t : Tag) : List UInt8 := [t.first, t.second, t.third, t.fourth]

/-! ## Faults of the bytes -/

/-- why a byte string is no bitmap font -/
inductive ParseError where
  /-- it does not start with the magic bytes -/
  | badMagicBytes
  /-- fewer bytes than a section header are left -/
  | insufficientHeaderBytes
  /-- a section claims more bytes than are left -/
  | truncatedSection (tag : Tag)
  /-- a text is not UTF-8 -/
  | invalidText (fault : Utf8.Fault)
  /-- a 16 bit field has `length` bytes -/
  | invalidNumberLength (length : Nat)
  /-- the character index is no sequence of whole entries -/
  | invalidCharacterIndex
  deriving DecidableEq, Repr

namespace ParseError

/-- the error in words -/
def message : ParseError → String
  | badMagicBytes => "Bad PFF2 magic bytes"
  | insufficientHeaderBytes => "Insufficient section header bytes"
  | truncatedSection tag => "Section " ++ Quoted.string (Utf8.lossy tag.bytes) ++ " is longer than the file"
  | invalidText fault => "Invalid UTF-8 string: " ++ fault.message
  | invalidNumberLength length => s!"A u16 is not encoded using exactly 2 bytes, instead: {length}b"
  | invalidCharacterIndex => "Invalid data in the character index"

/-- the causes below the error, outermost first -/
def causes : ParseError → List String
  | invalidText fault => [fault.message]
  | _ => []

end ParseError

/-! ## Faults of the contents -/

/-- why a font cannot be used -/
inductive ValidationError where
  | emptyName
  | zeroMaxCharWidth
  | zeroMaxCharHeight
  | zeroAscent
  | zeroDescent
  | noGlyphs
  /-- a glyph exceeds the font's own maximum -/
  | oversizedGlyph (code : UInt32) (width height : UInt16)
  deriving DecidableEq, Repr

/-- the error in words -/
def ValidationError.message : ValidationError → String
  | emptyName => "Font has no name"
  | zeroMaxCharWidth => "Font doesnt define maximum glyph width"
  | zeroMaxCharHeight => "Font doesnt define maximum glyph height"
  | zeroAscent => "Font doesnt define char ascent"
  | zeroDescent => "Font doesnt define char descent"
  | noGlyphs => "Font contains no glyphs"
  | oversizedGlyph code width height =>
    "Glyph " ++ codePointText code ++ s!" is {width.toNat}x{height.toNat}, larger than the font's maximum glyph size"

/-! ## Warnings -/

/-- what is noted while a font is read or used, without being an error -/
inductive Warning where
  /-- a glyph's offset is behind the end of the file -/
  | pastEnd (code : UInt32)
  /-- a glyph's record runs over the end of the file -/
  | truncated (code : UInt32)
  /-- a bitmap font has one size only -/
  | sizeMismatch (name : String) (pointSize : UInt16) (sizePx : UInt32)
  deriving DecidableEq, Repr

/-- the warning in words -/
def Warning.message : Warning → String
  | pastEnd code => "Glyph " ++ codePointText code ++ " points past the end of the file, skipping"
  | truncated code => "Glyph " ++ codePointText code ++ " is truncated, skipping"
  | sizeMismatch name pointSize sizePx =>
    name ++ s!" is a {pointSize.toNat}px bitmap font, rendering at {sizePx.toNat}px is not supported"

end GlyphImage.Pff2
