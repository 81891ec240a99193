/-
Bitmap fonts: the properties and the glyph table. `Font.validate` lets usable fonts through unchanged and names the
first fault of any other. A character is found by halving the table (`Font.position?`): what is found always has the
right code, and where the codes rise nothing is missed. Every value of `Font` can be asked; only those that `validate`
accepts promise an answer.
-/
import GlyphImage.Halving
import GlyphImage.Pff2.Glyph

namespace GlyphImage.Pff2

/-- what a font says about itself as a whole -/
structure Properties where
  name : String := ""
  family : String := ""
  pointSize : UInt16 := 0
  weight : String := ""
  maxCharWidth : UInt16 := 0
  maxCharHeight : UInt16 := 0
  ascent : UInt16 := 0
  descent : UInt16 := 0
  deriving DecidableEq, Repr

/-- a bitmap font -/
structure Font extends Properties where
  /-- in rising order of their codes, if the font was read from a file -/
  glyphs : Array Glyph := #[]
  deriving DecidableEq, Repr

namespace Font

/-! ## Validation -/

/-- a glyph that exceeds the font's own maximum -/
def Oversized (font : Font) (g : Glyph) : Prop := font.maxCharWidth < g.width ∨ font.maxCharHeight < g.height

instance (font : Font) (g : Glyph) : Decidable (font.Oversized g) := inferInstanceAs (Decidable (_ ∨ _))

/-- the first reason why a font cannot be used -/
def fault? (font : Font) : Option ValidationError :=
  if font.name.isEmpty then some .emptyName
  else if font.maxCharWidth = 0 then some .zeroMaxCharWidth
  else if font.maxCharHeight = 0 then some .zeroMaxCharHeight
  else if font.ascent = 0 then some .zeroAscent
  else if font.descent = 0 then some .zeroDescent
  else if font.glyphs.isEmpty then some .noGlyphs
  else (font.glyphs.toList.find? fun g => font.Oversized g).map fun g => .oversizedGlyph g.code g.width g.height

/-- the font itself, if it can be used -/
def validate (font : Font) : Except ValidationError Font :=
  match font.fault? with
  | some e => .error e
  | none => .ok font

/-! ## Looking up a character -/

/-- the glyph at a position has a code of at most `code` -/
def codeAtMost (font : Font) (position : Nat) (code : UInt32) : Bool :=
  (font.glyphs[position]?).any fun g => g.code ≤ code

/-- where the search finds a glyph with this code -/
def position? (font : Font) (code : UInt32) : Option Nat :=
  let position := Halving.last (font.codeAtMost · code) 0 font.glyphs.size
  (font.glyphs[position]?).bind fun g => if g.code = code then some position else none

/-- the index of a character's glyph: indices count from 1 -/
def glyphIndex (font : Font) (character : Char) : Option GlyphIndex :=
  (font.position? character.val).bind fun position => GlyphIndex.ofNat? (position + 1)

/-- the glyph of an index -/
def ofIndex? (font : Font) (index : GlyphIndex) : Option Glyph := font.glyphs[index.val.toNat - 1]?

/-- the glyph of a character -/
def glyph? (font : Font) (character : Char) : Option Glyph := (font.glyphIndex character).bind font.ofIndex?

end Font

end GlyphImage.Pff2
