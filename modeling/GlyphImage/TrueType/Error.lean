/-
What can be wrong with the tables of an outline font.
-/

namespace GlyphImage.TrueType

/-- why a byte string is no usable outline font -/
inductive LoadError where
  /-- a collection without a single font -/
  | noFaces
  /-- the font does not start with a known magic number -/
  | unknownMagic
  /-- the table directory reaches beyond the file -/
  | outOfBounds
  | badHead
  | badHhea
  | badMaxp
  /-- a character is mapped to a glyph that the font does not have -/
  | mappingOutOfBounds
  deriving DecidableEq, Repr

/-- the error in words -/
def LoadError.message : LoadError → String
  | noFaces => "The face index is larger than the number of faces in the font."
  | unknownMagic => "Face data must start with 0x00010000, 0x74727565, 0x4F54544F or 0x74746366."
  | outOfBounds => "An attempt to read out of bounds detected."
  | badHead => "The head table is missing or malformed."
  | badHhea => "The hhea table is missing or malformed."
  | badMaxp => "The maxp table is missing or malformed."
  | mappingOutOfBounds => "Attempted to map a codepoint out of bounds."

end GlyphImage.TrueType
