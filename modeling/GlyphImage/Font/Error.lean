/-
Glyph indices and the errors of opening and using a font of any kind.
-/
import GlyphImage.Canvas
import GlyphImage.IoError
import GlyphImage.Pff2.Error
import GlyphImage.TrueType.Error

namespace GlyphImage

/-- a font's own number for a glyph; 0 is the missing glyph and no index -/
structure GlyphIndex where
  val : UInt32
  val_ne_zero : val ≠ 0
  deriving DecidableEq, Repr

namespace GlyphIndex

/-- the index with this number, unless it is 0 -/
def ofUInt32? (n : UInt32) : Option GlyphIndex := if h : n ≠ 0 then some ⟨n, h⟩ else none

/-- the index with this number, unless it is 0 or takes more than 32 bits -/
def ofNat? (n : Nat) : Option GlyphIndex := if n < UInt32.size then ofUInt32? (UInt32.ofNat n) else none

/-- the index in 16 bits, if it fits -/
def toUInt16? (index : GlyphIndex) : Option UInt16 :=
  if index.val.toNat < UInt16.size then some index.val.toUInt16 else none

end GlyphIndex

/-- why a font cannot be opened or asked for a glyph -/
inductive FontError where
  | io (e : IoError)
  | unknownFormat
  | trueType (e : TrueType.LoadError)
  | pff2 (e : Pff2.ParseError)
  | pff2Validation (e : Pff2.ValidationError)
  | invalidPixelSize (size : UInt32)
  | noSuchGlyph (index : GlyphIndex)
  | allocation (e : AllocationError)
  /-- a bitmap of this size does not go with `length` bytes of data -/
  | malformedBitmap (width height length : Nat)
  deriving DecidableEq, Repr

namespace FontError

/-- the error in words -/
def message : FontError → String
  | io e => "Failed to read font file: " ++ e.message
  | unknownFormat => "Unrecognized font format"
  | trueType e => "Failed to load TrueType font: " ++ e.message
  | pff2 e => "Failed to parse PFF2 font: " ++ e.message
  | pff2Validation e => "Invalid PFF2 font: " ++ e.message
  | invalidPixelSize size => s!"Invalid pixel size: {size.toNat}"
  | noSuchGlyph index => s!"Glyph GlyphIndex({index.val.toNat}) does not exist in this font"
  | allocation e => e.message
  | malformedBitmap width height length =>
    s!"Glyph bitmap of {width}x{height} does not match its {length} bytes of data"

/-- the causes below the error, outermost first -/
def causes : FontError → List String
  | io e => [e.message]
  | pff2 e => e.message :: e.causes
  | pff2Validation e => [e.message]
  | allocation e => e.causes
  | _ => []

end FontError

end GlyphImage
