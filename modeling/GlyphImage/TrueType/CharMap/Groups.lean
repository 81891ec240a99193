/-
Subtables that hold groups of consecutive code points of all planes: in format 12 the glyphs of a group are consecutive
too, in format 13 a group has one glyph. Format 12 answers by a search that expects the groups in rising order, format
13 by the first group that has the code point.
-/
import GlyphImage.Halving
import GlyphImage.TrueType.CharMap.Mapping

namespace GlyphImage.TrueType.CharMap

/-- a run of code points -/
structure Group where
  first : Nat
  last : Nat
  glyph : Nat
  deriving DecidableEq, Repr

namespace Group

/-- the groups of a table -/
def readAll? (t : Table) : Option (List Group) := do
  let count ← t.nat32? 12
  let _ ← t.part? 16 (12 * count)
  (List.range count).mapM fun i => do
    let first ← t.nat32? (16 + 12 * i)
    let last ← t.nat32? (20 + 12 * i)
    let glyph ← t.nat32? (24 + 12 * i)
    return ⟨first, last, glyph⟩

/-- the code point belongs to the group -/
def Has (g : Group) (code : Nat) : Prop := g.first ≤ code ∧ code ≤ g.last

instance (g : Group) (code : Nat) : Decidable (g.Has code) := inferInstanceAs (Decidable (_ ∧ _))

/-- the code points of a group that can be characters -/
def codes (g : Group) : List Nat := span g.first (min g.last 0x10FFFF)

/-- a glyph number of 16 bits -/
def short? (glyph : Nat) : Option Nat := if glyph < 65536 then some glyph else none

/-- the glyph of a code point where the glyphs of a group are consecutive; a sum beyond 32 bits names none -/
def sequential? (groups : Array Group) (code : Nat) : Option Nat :=
  let position := Halving.last (fun i => (groups[i]?).any fun g => g.first ≤ code) 0 groups.size
  (groups[position]?).bind fun g =>
    if g.Has code ∧ g.glyph + code < UInt32.size then short? (g.glyph + code - g.first) else none

/-- the glyph of a code point where a group has one glyph -/
def shared? (groups : List Group) (code : Nat) : Option Nat :=
  (groups.find? fun g => g.Has code).bind fun g => short? g.glyph

end Group

/-- format 12: groups with consecutive glyphs -/
def sequentialTable? (t : Table) : Option (List Mapping) := do
  let groups ← Group.readAll? t
  return Mapping.ofCodes (Group.sequential? groups.toArray) (groups.flatMap Group.codes)

/-- format 13: groups with one glyph each -/
def sharedTable? (t : Table) : Option (List Mapping) := do
  let groups ← Group.readAll? t
  return Mapping.ofCodes (Group.shared? groups) (groups.flatMap Group.codes)

end GlyphImage.TrueType.CharMap
