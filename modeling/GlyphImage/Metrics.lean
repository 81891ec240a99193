/-
The metrics of a rasterised glyph and the report about them. The advance is a 26.6 fixed point number, so `advancePx`
is exact at six decimals and rounds once at fewer.
-/
import GlyphImage.Text.Fixed

namespace GlyphImage

/-- how a glyph sits on the line -/
structure Metrics where
  /-- bitmap width in pixels -/
  width : Nat
  /-- bitmap height in pixels -/
  height : Nat
  /-- horizontal advance in 64ths of a pixel -/
  advance : Int
  /-- from the pen position to the left edge of the bitmap -/
  bearingX : Int
  /-- from the baseline to the top edge of the bitmap, upwards -/
  bearingY : Int
  deriving DecidableEq, Repr

namespace Metrics

/-- the advance in pixels with the given number of decimals -/
def advancePx (m : Metrics) (places : Nat) : String := Fixed.render places m.advance 64

/-- the lines of the report about a character's glyph -/
def reportLines (m : Metrics) (character : Char) : List String :=
  [s!"Glyph metrics for '{character}':",
    s!"  Width: {m.width} pixels",
    s!"  Height: {m.height} pixels",
    s!"  Advance width: " ++ m.advancePx 2 ++ " pixels",
    s!"  Bearing X: {m.bearingX} pixels",
    s!"  Bearing Y: {m.bearingY} pixels"]

/-- the report about a character's glyph, each line ended -/
def report (m : Metrics) (character : Char) : String :=
  String.join ((m.reportLines character).map (· ++ "\n"))

end Metrics

end GlyphImage
