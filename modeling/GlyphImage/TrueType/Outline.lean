/-
Glyph outlines. A simple glyph lists contours of points that lie on the curve or pull it. `Contour.segments` turns a
contour into straight lines and quadratic curves, and `Outline.ofContours` cuts the curves into lines that are flat
enough, drops level ones, and turns and moves the rest so that filling can start. All coordinates are binary32
numbers, rounded after every single operation.
-/
import GlyphImage.TrueType.Table

namespace GlyphImage.TrueType

/-- a point of the plane -/
structure Point where
  x : Float32
  y : Float32

namespace Point

/-- the point half way to another -/
def mid (a b : Point) : Point := ⟨a.x + 0.5 * (b.x - a.x), a.y + 0.5 * (b.y - a.y)⟩

end Point

/-! ## Reading contours -/

/-- a point of a contour -/
structure Knot where
  point : Point
  onCurve : Bool

/-- the flag byte of a knot -/
structure Flag where
  byte : UInt8
  deriving DecidableEq, Repr

/-- a bit of a flag byte -/
def Flag.bit (f : Flag) (i : Nat) : Bool := f.byte.toNat.testBit i

/-- a flag on its own, or repeated as often as the byte behind it says: how often, and the position after it -/
def flagRun? (t : Table) (position : Nat) : Option (Flag × Nat × Nat) := do
  let flag := Flag.mk (← t.uint8? position)
  if flag.bit 3 then
    let again ← t.uint8? (position + 1)
    return (flag, again.toNat + 1, position + 2)
  else return (flag, 1, position + 1)

/-- the flags of `wanted` knots from a position on, and the position after them; a run that is too long fails -/
def flags? (t : Table) (wanted position : Nat) : Option (List Flag × Nat) :=
  if wanted = 0 then some ([], position)
  else
    match flagRun? t position with
    | none => none
    | some (flag, count, next) =>
      if _h : 0 < count ∧ count ≤ wanted then
        (flags? t (wanted - count) next).map fun (later, stop) => (List.replicate count flag ++ later, stop)
      else none
termination_by wanted

/-- the step of a coordinate, and the position after it. `short` marks a step of one byte, with its sign in `same`;
otherwise `same` marks the lack of a step -/
def step? (t : Table) (short same : Bool) (position : Nat) : Option (Int16 × Nat) :=
  if short then do
    let size := Int16.ofNat (← t.uint8? position).toNat
    return (if same then size else -size, position + 1)
  else if same then some (0, position)
  else do return (← t.int16? position, position + 2)

/-- coordinates in steps from `before`, with the bits of a flag that describe a step; and the position after them -/
def coordinates? (t : Table) (shortBit sameBit : Nat) (before : Int16) (position : Nat) :
    List Flag → Option (List Int16 × Nat)
  | [] => some ([], position)
  | flag :: rest => do
    let (step, next) ← step? t (flag.bit shortBit) (flag.bit sameBit) position
    let here := before + step
    let (later, stop) ← coordinates? t shortBit sameBit here next rest
    return (here :: later, stop)

/-- the number of points in each contour, from the numbers of their last points; none has fewer than one -/
def contourSizes : List Nat → List Nat
  | [] => []
  | first :: rest => (first + 1) :: ((first :: rest).zip rest).map fun (before, last) => max (last - before) 1

/-- a contour; one whose points run out stays open -/
structure Contour where
  knots : List Knot
  closed : Bool

/-- deals knots out to contours of the given sizes; surplus knots are contours of their own -/
def deal : List Nat → List Knot → List Contour
  | [], knots => knots.map fun knot => ⟨[knot], true⟩
  | _ :: _, [] => []
  | size :: sizes, knots =>
    if size ≤ knots.length then ⟨knots.take size, true⟩ :: deal sizes (knots.drop size) else [⟨knots, false⟩]

/-- the contours of a glyph's outline data; a composite or empty glyph has none -/
def contours? (t : Table) : Option (List Contour) := do
  let count := (← t.int16? 0).toInt.toNat
  if count = 0 then none
  else
    let lasts ← (List.range count).mapM fun i => t.nat16? (10 + 2 * i)
    let last := lasts.getLastD 0
    if last = 0 ∨ last = 65535 then none
    else
      let instructions ← t.nat16? (10 + 2 * count)
      let (flags, afterFlags) ← flags? t (last + 1) (12 + 2 * count + instructions)
      let (xs, afterXs) ← coordinates? t 1 4 0 afterFlags flags
      let (ys, _) ← coordinates? t 2 5 0 afterXs flags
      let knots := (flags.zip (xs.zip ys)).map fun (flag, x, y) =>
        (⟨⟨Float32.ofInt x.toInt, Float32.ofInt y.toInt⟩, flag.bit 0⟩ : Knot)
      return deal (contourSizes lasts) knots

/-! ## Segments -/

/-- a piece of a contour -/
inductive Segment where
  | line (a b : Point)
  /-- a quadratic curve from `a` to `b`, pulled towards `c` -/
  | curve (a c b : Point)

/-- the state of walking along a contour -/
structure Pen where
  /-- where the contour starts on the curve -/
  start : Option Point := none
  /-- a pulling point before the start -/
  firstOff : Option Point := none
  /-- a pulling point that waits for its end -/
  lastOff : Option Point := none
  here : Point := ⟨0, 0⟩
  /-- the segments so far, last first -/
  drawn : List Segment := []

namespace Pen

/-- draws a straight line -/
def line (pen : Pen) (p : Point) : Pen := { pen with drawn := .line pen.here p :: pen.drawn, here := p }

/-- draws a curve -/
def curve (pen : Pen) (c p : Point) : Pen := { pen with drawn := .curve pen.here c p :: pen.drawn, here := p }

/-- goes on to the next knot -/
def visit (pen : Pen) (k : Knot) : Pen :=
  let p := k.point
  match pen.start, pen.firstOff, pen.lastOff with
  | none, first, _ =>
    if k.onCurve then { pen with start := some p, here := p }
    else
      match first with
      | some off => { pen with start := some (off.mid p), here := off.mid p, lastOff := some p }
      | none => { pen with firstOff := some p }
  | some _, _, some off =>
    if k.onCurve then { pen.curve off p with lastOff := none }
    else { pen.curve off (off.mid p) with lastOff := some p }
  | some _, _, none => if k.onCurve then pen.line p else { pen with lastOff := some p }

/-- goes back to the start -/
def close (pen : Pen) : Pen :=
  match pen.start with
  | none => pen
  | some start =>
    match pen.firstOff, pen.lastOff with
    | some first, some last => (pen.curve last (last.mid first)).curve first start
    | some first, none => pen.curve first start
    | none, some last => pen.curve last start
    | none, none => pen.line start

end Pen

/-- the lines and curves of a contour in drawing order -/
def Contour.segments (c : Contour) : List Segment :=
  let pen := c.knots.foldl Pen.visit {}
  (if c.closed then pen.close else pen).drawn.reverse

/-! ## Lines -/

/-- a straight line with a direction -/
structure Line where
  a : Point
  b : Point

namespace Line

/-- the same line in the other direction -/
def reverse (l : Line) : Line := ⟨l.b, l.a⟩

/-- an upright line stays in its column -/
def isUpright (l : Line) : Bool := l.a.x == l.b.x

end Line

/-- twice the area that the three points span -/
def spannedArea (a b e : Point) : Float32 := (b.x - a.x) * (e.y - a.y) - (e.x - a.x) * (b.y - a.y)

/-- a coordinate of the quadratic curve from `a` to `b` at `t` -/
def curveAt (t a c b : Float32) : Float32 :=
  let m := 1 - t
  m * m * a + 2 * m * t * c + t * t * b

/-- cuts a curve between two of its points into lines until they span no more than `limit`; the last lines come first.
`depth` bounds the halvings, which run out of distinct parameters long before it does -/
def flatten (limit : Float32) (a c b : Point) : (depth : Nat) → (p : Point) → (pt : Float32) → (q : Point) →
    (qt : Float32) → List Line
  | 0, p, _, q, _ => [⟨p, q⟩]
  | depth + 1, p, pt, q, qt =>
    let t := (pt + qt) * 0.5
    let mid : Point := ⟨curveAt t a.x c.x b.x, curveAt t a.y c.y b.y⟩
    if (spannedArea p mid q).abs > limit then
      flatten limit a c b depth mid t q qt ++ flatten limit a c b depth p pt mid t
    else [⟨p, q⟩]

/-- the lines of a segment -/
def Segment.lines (limit : Float32) : Segment → List Line
  | .line a b => [⟨a, b⟩]
  | .curve a c b => flatten limit a c b 512 a 0 b 1

/-! ## Outlines -/

/-- the lines around a glyph's area, with the rectangle they fill before they are moved to its corner. Moving rounds,
so the upright lines are those that were upright before -/
structure Outline where
  upright : List Line
  slanted : List Line
  left : Float32
  right : Float32
  bottom : Float32
  top : Float32

namespace Outline

/-- no lines -/
def empty : Outline := ⟨[], [], 0, 0, 0, 0⟩

/-- the signed area left of a line, doubled -/
def doubledArea (lines : List Line) : Float32 :=
  lines.foldl (fun sum l => sum + (l.b.y - l.a.y) * (l.b.x + l.a.x)) 0

/-- the least number; 0 of none -/
def least : List Float32 → Float32
  | [] => 0
  | first :: rest => rest.foldl (fun m v => if v < m then v else m) first

/-- the greatest number; 0 of none -/
def greatest : List Float32 → Float32
  | [] => 0
  | first :: rest => rest.foldl (fun m v => if m < v then v else m) first

/-- moves a point so that the left top corner of the rectangle is the origin and `y` runs down -/
def place (left top : Float32) (p : Point) : Point := ⟨p.x - left, (p.y - top).abs⟩

/-- the outline of contours in a font of so many units per em -/
def ofContours (unitsPerEm : Nat) (contours : List Contour) : Outline :=
  let limit := 6 * (Float32.ofNat unitsPerEm / 40)
  let drawn := (contours.flatMap Contour.segments).flatMap (Segment.lines limit)
  let lines := drawn.filter fun l => l.a.y != l.b.y
  let xs := lines.flatMap fun l => [l.a.x, l.b.x]
  let ys := lines.flatMap fun l => [l.a.y, l.b.y]
  let left := least xs
  let top := greatest ys
  let backwards := decide (doubledArea lines > 0)
  let turn (l : Line) : Line := if backwards then l.reverse else l
  let move (l : Line) : Line := ⟨place left top (turn l).a, place left top (turn l).b⟩
  let (upright, slanted) := lines.partition Line.isUpright
  ⟨upright.map move, slanted.map move, left, greatest xs, least ys, top⟩

end Outline

end GlyphImage.TrueType
