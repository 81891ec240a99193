/-
Loaded outline fonts: the few numbers and tables that looking up and rasterising a glyph need. `Font.load` checks the
required tables and that no character is mapped beyond the last glyph; outlines and widths are read when a glyph is
asked for, because a glyph that cannot be read is empty and no error. A glyph that no character maps to is empty too.
-/
import GlyphImage.TrueType.CharMap

namespace GlyphImage.TrueType

/-- a loaded outline font -/
structure Font where
  unitsPerEm : Nat
  glyphCount : Nat
  /-- whether glyph positions are stored in four bytes -/
  wideLocations : Bool
  /-- the number of widths -/
  metricCount : Nat
  /-- every mapping of the character map, in reading order -/
  mappings : List Mapping
  widths : Option Table
  locations : Option Table
  outlines : Option Table
  deriving DecidableEq, Repr

namespace Font

/-! ## Loading -/

/-- units per em and the form of glyph positions -/
def readHead (t : Option Table) : Except LoadError (Nat × Bool) :=
  match (do
    let head ← t
    let units ← head.nat16? 18
    let form ← head.nat16? 50
    if 54 ≤ head.length ∧ 16 ≤ units ∧ units ≤ 16384 ∧ form ≤ 1 then some (units, form == 1) else none) with
  | some answer => .ok answer
  | none => .error .badHead

/-- the number of widths -/
def readHhea (t : Option Table) : Except LoadError Nat :=
  match (do
    let hhea ← t
    let count ← hhea.nat16? 34
    if 36 ≤ hhea.length then some count else none) with
  | some count => .ok count
  | none => .error .badHhea

/-- the number of glyphs -/
def readMaxp (t : Option Table) : Except LoadError Nat :=
  match (do
    let maxp ← t
    let version ← maxp.nat32? 0
    let count ← maxp.nat16? 4
    if (version = 0x5000 ∨ version = 0x10000) ∧ count ≠ 0 then some count else none) with
  | some count => .ok count
  | none => .error .badMaxp

/-- the font of a file -/
def load (bytes : List UInt8) : Except LoadError Font := do
  let file := Table.ofFile bytes.toArray
  let records ← directory file
  let (unitsPerEm, wideLocations) ← readHead (table? file records "head")
  let metricCount ← readHhea (table? file records "hhea")
  let glyphCount ← readMaxp (table? file records "maxp")
  let mappings := (table? file records "cmap").elim [] CharMap.mappings
  if mappings.any fun m => glyphCount ≤ m.glyph then .error .mappingOutOfBounds
  else
    .ok ⟨unitsPerEm, glyphCount, wideLocations, metricCount, mappings, table? file records "hmtx",
      table? file records "loca", table? file records "glyf"⟩

/-! ## Asking for a glyph -/

/-- the glyph of a character -/
def glyph? (font : Font) (character : Char) : Option Nat := CharMap.glyph? font.mappings character

/-- some character maps to the glyph -/
def isMapped (font : Font) (glyph : Nat) : Bool := font.mappings.any fun m => m.glyph = glyph

/-- the width of a glyph in font units; without a usable table of widths it is 0 -/
def advance (font : Font) (glyph : Nat) : Nat :=
  match font.widths with
  | none => 0
  | some t =>
    if font.metricCount ≠ 0 ∧ 4 * font.metricCount ≤ t.length then
      (t.nat16? (4 * min glyph (font.metricCount - 1))).getD 0
    else 0

/-- the number of positions that a table of outline positions holds -/
def locationCount (font : Font) (t : Table) : Nat := t.length / if font.wideLocations then 4 else 2

/-- the position of a glyph's outline; positions beyond the last glyph's end are not used, and none is if 16 bits cannot
count them -/
def location? (font : Font) (t : Table) (i : Nat) : Option Nat :=
  if font.glyphCount < i ∨ font.locationCount t ≤ i ∨ 65535 < font.locationCount t then none
  else if font.wideLocations then t.nat32? (4 * i)
  else (t.nat16? (2 * i)).map (2 * ·)

/-- the outline data of a glyph -/
def outlineData? (font : Font) (glyph : Nat) : Option Table := do
  let locations ← font.locations
  let outlines ← font.outlines
  let first ← font.location? locations glyph
  let last ← font.location? locations (glyph + 1)
  if first < last then outlines.part? first (last - first) else none

end Font

end GlyphImage.TrueType
