/-
Subtables that hold glyph numbers for consecutive code points: formats 0, 6 and 10. They differ in where the code points
start, how many there are, and how wide the numbers are.
-/
import GlyphImage.TrueType.CharMap.Mapping

namespace GlyphImage.TrueType.CharMap

/-- the mappings of the code points from `first` on to glyphs in order -/
def consecutive (first : Nat) (glyphs : List Nat) : List Mapping :=
  glyphs.zipIdx.filterMap fun (glyph, i) => Mapping.of? (first + i) glyph

/-- format 0: a byte for each of the first 256 code points -/
def byteTable? (t : Table) : Option (List Mapping) := do
  let glyphs ← (List.range 256).mapM fun code => t.uint8? (6 + code)
  return consecutive 0 (glyphs.map UInt8.toNat)

/-- the 16 bit numbers of a table from a position on -/
def numbers? (t : Table) (position count : Nat) : Option (List Nat) := do
  let _ ← t.part? position (2 * count)
  (List.range count).mapM fun i => t.nat16? (position + 2 * i)

/-- format 6: code points of 16 bits; numbers for later ones are not used -/
def trimmedTable? (t : Table) : Option (List Mapping) := do
  let first ← t.nat16? 6
  let count ← t.nat16? 8
  let glyphs ← numbers? t 10 count
  return consecutive first (glyphs.take (65536 - first))

/-- format 10: code points of 32 bits -/
def trimmedArray? (t : Table) : Option (List Mapping) := do
  let first ← t.nat32? 12
  let count ← t.nat32? 16
  let glyphs ← numbers? t 20 count
  return consecutive first glyphs

end GlyphImage.TrueType.CharMap
