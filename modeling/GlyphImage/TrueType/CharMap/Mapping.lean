/-
Mappings of characters to glyphs, as the subtables of a character map yield them: a subtable lists code points and
answers for each of them. Glyph 0 and code points that are no characters are never mapped.
-/
import GlyphImage.TrueType.Table

namespace GlyphImage.TrueType

/-- a character's glyph -/
structure Mapping where
  character : Char
  glyph : Nat
  deriving DecidableEq, Repr

namespace Mapping

/-- the mapping of a code point, if it counts -/
def of? (code glyph : Nat) : Option Mapping :=
  if glyph ≠ 0 ∧ code.isValidChar then some ⟨Char.ofNat code, glyph⟩ else none

/-- the mappings of listed code points, where `glyph?` has an answer -/
def ofCodes (glyph? : Nat → Option Nat) (codes : List Nat) : List Mapping :=
  codes.filterMap fun code => (glyph? code).bind fun glyph => of? code glyph

end Mapping

/-- the numbers from `first` to `last` -/
def span (first last : Nat) : List Nat := List.range' first (last + 1 - first)

end GlyphImage.TrueType
