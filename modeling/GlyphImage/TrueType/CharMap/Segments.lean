/-
Subtables of format 4: segments of code points of the basic plane. Code points are listed segment by segment, but
answered by a search that expects the segments in rising order: `find?` halves the window of segments that are left, so
where they overlap or are out of order, a listed code point may get another segment's answer or none.
-/
import GlyphImage.TrueType.CharMap.Mapping

namespace GlyphImage.TrueType.CharMap

/-- a run of code points with a common rule -/
structure Segment where
  first : Nat
  last : Nat
  delta : Nat
  /-- distance from `offsetPosition` to the glyph numbers, 0 for none -/
  rangeOffset : Nat
  offsetPosition : Nat
  deriving DecidableEq, Repr

namespace Segment

/-- the segment number `i` of `count` -/
def read? (t : Table) (count i : Nat) : Option Segment := do
  let last ← t.nat16? (14 + 2 * i)
  let first ← t.nat16? (16 + 2 * count + 2 * i)
  let delta ← t.nat16? (16 + 4 * count + 2 * i)
  let position := 16 + 6 * count + 2 * i
  let rangeOffset ← t.nat16? position
  return ⟨first, last, delta, rangeOffset, position⟩

/-- the segment at which the listing stops -/
def isLast (s : Segment) : Bool := s.first = 0xFFFF && s.last = 0xFFFF

/-- the glyph of a code point of the segment; positions of glyph numbers wrap at 16 bits -/
def glyph? (t : Table) (s : Segment) (code : Nat) : Option Nat :=
  if s.rangeOffset = 0 then some ((code + s.delta) % 65536)
  else if s.rangeOffset = 0xFFFF ∨ 65536 ≤ 2 * (code - s.first) then none
  else do
    let value ← t.nat16? ((s.offsetPosition + s.rangeOffset + 2 * (code - s.first)) % 65536)
    let glyph := (value + s.delta) % 65536
    if value = 0 ∨ 32768 ≤ glyph then none else some glyph

/-- the segment of a code point among those from position `lo` up to `hi` -/
def find? (segments : Array Segment) (code lo hi : Nat) : Option Segment :=
  if lo < hi then
    let middle := (lo + hi) / 2
    match segments[middle]? with
    | none => none
    | some s =>
      if s.last < code then find? segments code (middle + 1) hi
      else if code < s.first then find? segments code lo middle
      else some s
  else none
termination_by hi - lo

end Segment

/-- format 4: segments of the basic plane -/
def segmentTable? (t : Table) : Option (List Mapping) := do
  let twice ← t.nat16? 6
  if twice < 2 then none
  else
    let segments ← (List.range (twice / 2)).mapM fun i => Segment.read? t (twice / 2) i
    let inOrder := segments.toArray
    let listed := (segments.takeWhile fun s => !s.isLast).flatMap fun s => span s.first s.last
    let answer (code : Nat) : Option Nat := (Segment.find? inOrder code 0 inOrder.size).bind fun s => s.glyph? t code
    return Mapping.ofCodes answer listed

end GlyphImage.TrueType.CharMap
