/-
The character map of an outline font (`cmap`): a list of subtables, read in order up to the first that cannot be read.
The map is kept as the list of its mappings in reading order; a later mapping of a character replaces an earlier one.
-/
import GlyphImage.TrueType.CharMap.Consecutive
import GlyphImage.TrueType.CharMap.Groups
import GlyphImage.TrueType.CharMap.HighByte
import GlyphImage.TrueType.CharMap.Segments

namespace GlyphImage.TrueType.CharMap

/-! ## Subtables -/

/-- format 14 is about variants of characters: its records have to be there, but it maps nothing -/
def variationTable? (t : Table) : Option (List Mapping) := do
  let count ← t.nat32? 6
  let _ ← t.part? 10 (11 * count)
  return []

/-- the mappings of a subtable, if its format is known and it can be read; those of format 8 are not used -/
def subtable? (t : Table) : Option (List Mapping) := do
  match (← t.nat16? 0) with
  | 0 => byteTable? t
  | 2 => highByteTable? t
  | 4 => segmentTable? t
  | 6 => trimmedTable? t
  | 8 => some []
  | 10 => trimmedArray? t
  | 12 => sequentialTable? t
  | 13 => sharedTable? t
  | 14 => variationTable? t
  | _ => none

/-! ## Maps -/

/-- the platforms 0 to 4 are known -/
def lastPlatform : Nat := 4

/-- the subtable with number `i`; one for an unknown platform cannot be read -/
def subtableAt? (cmap : Table) (i : Nat) : Option (List Mapping) := do
  let platform ← cmap.nat16? (4 + 8 * i)
  let offset ← cmap.nat32? (4 + 8 * i + 4)
  if lastPlatform < platform then none else subtable? (← cmap.from? offset)

/-- the mappings of subtables up to the first that cannot be read -/
def readable (cmap : Table) : List Nat → List Mapping
  | [] => []
  | i :: rest =>
    match subtableAt? cmap i with
    | some mappings => mappings ++ readable cmap rest
    | none => []

/-- every mapping of a character map; none if its list of subtables cannot be read -/
def mappings (cmap : Table) : List Mapping :=
  match cmap.nat16? 2 with
  | none => []
  | some count => if 4 + 8 * count ≤ cmap.length then readable cmap (List.range count) else []

/-- the glyph that the last mapping of a character names -/
def glyph? (mappings : List Mapping) (character : Char) : Option Nat :=
  mappings.foldl (fun found m => if m.character = character then some m.glyph else found) none

end GlyphImage.TrueType.CharMap
