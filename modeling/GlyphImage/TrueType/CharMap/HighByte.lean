/-
Subtables of format 2, for code points of one or two bytes. A key for each high byte names a run of low bytes; run 0 is
for single bytes. Listing and answering follow rules of their own: a byte is listed as a code point of its own if its
key names run 0, and below 0xFF every code point is answered from run 0.
-/
import GlyphImage.TrueType.CharMap.Mapping

namespace GlyphImage.TrueType.CharMap

/-- a run of low bytes -/
structure LowBytes where
  first : Nat
  count : Nat
  delta : Int
  /-- distance from `offsetPosition` to the glyph numbers -/
  rangeOffset : Nat
  offsetPosition : Nat
  deriving DecidableEq, Repr

namespace LowBytes

/-- the position behind the keys, where the runs start -/
def start : Nat := 518

/-- the run with number `i` -/
def read? (t : Table) (i : Nat) : Option LowBytes := do
  let position := start + 8 * i
  let first ← t.nat16? position
  let count ← t.nat16? (position + 2)
  let delta ← t.int16? (position + 4)
  let rangeOffset ← t.nat16? (position + 6)
  return ⟨first, count, delta.toInt, rangeOffset, position + 6⟩

/-- the run has more low bytes than 16 bits count -/
def isOverlong (r : LowBytes) : Bool := 65535 < r.first + r.count

/-- the glyph of a low byte; a sum below 0 names none -/
def glyph? (t : Table) (r : LowBytes) (low : Nat) : Option Nat :=
  if r.isOverlong ∨ low < r.first ∨ r.first + r.count ≤ low then none
  else do
    let value ← t.nat16? (r.offsetPosition + r.rangeOffset + 2 * (low - r.first))
    if value = 0 ∨ value + r.delta < 0 then none else some ((value + r.delta).toNat % 65536)

end LowBytes

/-- what a subtable of format 2 says -/
structure HighBytes where
  /-- the number of the run for each high byte -/
  keys : Array Nat
  runs : Array LowBytes
  deriving DecidableEq, Repr

namespace HighBytes

/-- the keys, and as many runs as they name -/
def read? (t : Table) : Option HighBytes := do
  let keys ← (List.range 256).mapM fun high => (t.nat16? (6 + 2 * high)).map (· / 8)
  let runs ← (List.range (keys.foldl max 0 + 1)).mapM (LowBytes.read? t)
  return ⟨keys.toArray, runs.toArray⟩

/-- the number of the run for a high byte -/
def key (h : HighBytes) (high : Nat) : Nat := h.keys.getD high 0

/-- the glyph of a code point -/
def glyph? (t : Table) (h : HighBytes) (code : Nat) : Option Nat :=
  (h.runs[if code < 0xFF then 0 else h.key (code / 256)]?).bind fun r => r.glyph? t (code % 256)

/-- the code points that a byte starts, and whether the listing goes on after them -/
def listed (h : HighBytes) (byte : Nat) : List Nat × Bool :=
  match h.runs[h.key byte]? with
  | none => ([], false)
  | some r =>
    if h.key byte = 0 then
      if r.isOverlong then ([], false)
      else (if r.first ≤ byte ∧ byte < r.first + r.count then [byte] else [], true)
    else
      let first := byte * 256 + r.first
      (List.range' first (min r.count (65536 - first)), first ≤ 65535 && first + r.count ≤ 65536)

/-- the code points that the bytes start, up to the first that leaves the 16 bits -/
def codesFrom (h : HighBytes) : List Nat → List Nat
  | [] => []
  | byte :: rest =>
    let (codes, goesOn) := h.listed byte
    codes ++ if goesOn then h.codesFrom rest else []

end HighBytes

/-- format 2: code points of one or two bytes -/
def highByteTable? (t : Table) : Option (List Mapping) := do
  let h ← HighBytes.read? t
  return Mapping.ofCodes (h.glyph? t) (h.codesFrom (List.range 256))

end GlyphImage.TrueType.CharMap
