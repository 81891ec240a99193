/-
Filling an outline. Every line adds to the cells it crosses how much of the area right of it begins there, and a running
sum along the rows turns these amounts into coverage. `Frame.of` says where the scaled outline comes to lie and how many
pixels it takes; `coverageBytes` fills exactly that many. All numbers are binary32, rounded after every single operation.
-/
import GlyphImage.TrueType.Outline

namespace GlyphImage.TrueType

/-! ## Number parts -/

/-- the whole part, towards zero: of the 23 bits behind the point of the significand, the exponent says how many count -/
def whole (v : Float32) : Float32 :=
  let exponent := (v.toBits >>> 23) &&& 0xFF
  if exponent < 127 then Float32.ofBits (v.toBits &&& 0x80000000)
  else if exponent < 150 then Float32.ofBits (v.toBits &&& (0xFFFFFFFF <<< (150 - exponent)))
  else v

/-- what the whole part leaves -/
def fraction (v : Float32) : Float32 := v - whole v

/-- the largest whole number that is not above -/
def floor (v : Float32) : Float32 := if v < whole v then whole v - 1 else whole v

/-- the least whole number that is not below -/
def ceiling (v : Float32) : Float32 := if whole v < v then whole v + 1 else whole v

/-- the sign bit is set -/
def isNegative (v : Float32) : Bool := v.toBits ≥ 0x80000000

/-- one, with the sign of a number -/
def signOf (v : Float32) : Int := if isNegative v then -1 else 1

/-- the whole number that a float stands for -/
def wholeNumber (v : Float32) : Int := v.toInt64.toInt

/-- the number whose bit pattern comes just before -/
def before (v : Float32) : Float32 := Float32.ofBits (v.toBits - 1)

/-! ## Placing the outline on pixels -/

/-- the place of a scaled outline on the pixel grid -/
structure Frame where
  scale : Float32
  /-- shift of the left edge into its pixel -/
  shiftX : Float32
  /-- shift of the top edge into its pixel -/
  shiftY : Float32
  width : Nat
  height : Nat
  /-- the left edge in whole pixels -/
  left : Int32
  /-- the bottom edge in whole pixels -/
  bottom : Int32

namespace Frame

/-- a shift is never negative -/
def normalShift (v : Float32) : Float32 := if isNegative v then v + 1 else v

/-- the place of an outline at a scale -/
def of (outline : Outline) (scale : Float32) : Frame :=
  let left := outline.left * scale
  let bottom := outline.bottom * scale
  let width := (outline.right - outline.left) * scale
  let height := (outline.top - outline.bottom) * scale
  let shiftX := normalShift (fraction left)
  let shiftY := normalShift (fraction (1 - fraction height - fraction bottom))
  { scale, shiftX, shiftY
    width := (ceiling (width + shiftX)).toUInt64.toNat
    height := (ceiling (height + shiftY)).toUInt64.toNat
    left := (floor left).toInt32
    bottom := (floor bottom).toInt32 }

end Frame

/-! ## Cells -/

/-- the amounts at which area begins, one for each pixel and a few more -/
abbrev Cells := Array Float32

namespace Cells

/-- adds to one cell -/
def bump (cells : Cells) (i : Int) (amount : Float32) : Cells :=
  if i < 0 then cells else cells.modify i.toNat (· + amount)

/-- adds a piece of a line that is `height` tall and on average `middle` right of the cell's left edge -/
def add (cells : Cells) (i : Int) (height middle : Float32) : Cells :=
  (cells.bump i (height - height * middle)).bump (i + 1) (height * middle)

end Cells

/-! ## Lines -/

/-- a line in pixels: its ends, the cells of its ends, and the grid lines it meets first -/
structure Track where
  startX : Float32
  startY : Float32
  stopX : Float32
  stopY : Float32
  /-- column and row where the line starts -/
  firstX : Float32
  firstY : Float32
  /-- column and row where the line stops -/
  lastX : Float32
  lastY : Float32
  /-- the first grid lines ahead -/
  nextX : Float32
  nextY : Float32

namespace Track

/-- a line on the pixels of a frame; an end on a grid line counts to the cell that the line passes -/
def of (f : Frame) (l : Line) : Track :=
  let startX := l.a.x * f.scale + f.shiftX
  let startY := l.a.y * f.scale + f.shiftY
  let stopX := l.b.x * f.scale + f.shiftX
  let stopY := l.b.y * f.scale + f.shiftY
  let firstX := whole (if l.b.x < l.a.x then before startX else startX)
  let firstY := whole (if l.b.y < l.a.y then before startY else startY)
  { startX, startY, stopX, stopY, firstX, firstY
    lastX := whole (if l.a.x < l.b.x then before stopX else stopX)
    lastY := whole (if l.a.y < l.b.y then before stopY else stopY)
    nextX := firstX + (if l.a.x ≤ l.b.x then 1 else 0)
    nextY := firstY + (if l.a.y ≤ l.b.y then 1 else 0) }

/-- the cell where the line starts -/
def firstCell (t : Track) (f : Frame) : Int := wholeNumber t.firstX + wholeNumber t.firstY * f.width

/-- the cell where the line stops -/
def lastCell (t : Track) (f : Frame) : Int := wholeNumber t.lastX + wholeNumber t.lastY * f.width

/-- the number of rows between the ends -/
def rowCount (t : Track) : Nat := (wholeNumber t.firstY - wholeNumber t.lastY).natAbs

/-- the number of columns between the ends -/
def columnCount (t : Track) : Nat := (wholeNumber t.firstX - wholeNumber t.lastX).natAbs

end Track

/-- the state of following an upright line from row to row -/
structure Drop where
  cells : Cells
  cell : Int
  y : Float32
  nextY : Float32

/-- adds an upright line -/
def addUpright (f : Frame) (l : Line) (cells : Cells) : Cells :=
  let t := Track.of f l
  let down := signOf (t.stopY - t.startY)
  let middle := fraction t.startX
  let row (d : Drop) : Drop :=
    { cells := d.cells.add d.cell (d.y - d.nextY) middle
      cell := d.cell + down * f.width
      y := d.nextY
      nextY := d.nextY + Float32.ofInt down }
  let d := Nat.repeat row t.rowCount ⟨cells, t.firstCell f, t.startY, t.nextY⟩
  d.cells.add (t.lastCell f) (d.y - t.stopY) middle

/-- the state of following a slanted line from cell to cell -/
structure Slide where
  cells : Cells
  cell : Int
  x : Float32
  y : Float32
  nextX : Float32
  nextY : Float32
  /-- how far along the line the next column begins -/
  reachX : Float32
  /-- how far along the line the next row begins -/
  reachY : Float32

/-- adds a slanted line -/
def addSlanted (f : Frame) (l : Line) (cells : Cells) : Cells :=
  let t := Track.of f l
  let dx := l.b.x - l.a.x
  let dy := l.b.y - l.a.y
  let inverse := 1 / f.scale
  let perColumn := 1 / dx * inverse
  let perRow := 1 / dy * inverse
  let lengthX := dx * f.scale
  let lengthY := dy * f.scale
  let right := signOf perColumn
  let down := signOf perRow
  let stepX := perColumn.abs
  let stepY := perRow.abs
  let cross (s : Slide) : Slide :=
    if s.reachX < s.reachY then
      let y := s.reachX * lengthY + t.startY
      let x := s.nextX
      { s with
        cells := s.cells.add s.cell (s.y - y) (fraction ((s.x + x) / 2))
        cell := s.cell + right
        x, y
        nextX := s.nextX + Float32.ofInt right
        reachX := s.reachX + stepX }
    else
      let y := s.nextY
      let x := s.reachY * lengthX + t.startX
      { s with
        cells := s.cells.add s.cell (s.y - y) (fraction ((s.x + x) / 2))
        cell := s.cell + down * f.width
        x, y
        nextY := s.nextY + Float32.ofInt down
        reachY := s.reachY + stepY }
  let s := Nat.repeat cross (t.columnCount + t.rowCount)
    { cells, cell := t.firstCell f, x := t.startX, y := t.startY, nextX := t.nextX, nextY := t.nextY,
      reachX := perColumn * (t.nextX - t.startX), reachY := perRow * (t.nextY - t.startY) }
  s.cells.add (t.lastCell f) (s.y - t.stopY) (fraction ((s.x + t.stopX) / 2))

/-! ## Filling -/

/-- the amounts of all lines, upright ones first -/
def cellsOf (f : Frame) (outline : Outline) : Cells :=
  let clear : Cells := Array.replicate (f.width * f.height + 3) 0
  let upright := outline.upright.foldl (fun cells l => addUpright f l cells) clear
  outline.slanted.foldl (fun cells l => addSlanted f l cells) upright

/-- the coverage byte of a running sum -/
def level (sum : Float32) : UInt8 := (sum * 255.9).abs.toUInt8

/-- running sums, four cells at a time: what is filled so far and the sum up to there -/
structure Running where
  filled : Array UInt8
  sum : Float32

/-- goes on over the four cells from position `4 * group` on -/
def Running.advance (cells : Cells) (r : Running) (group : Nat) : Running :=
  let a := cells.getD (4 * group) 0
  let b := cells.getD (4 * group + 1) 0
  let c := cells.getD (4 * group + 2) 0
  let d := cells.getD (4 * group + 3) 0
  let ab := b + a
  let bc := c + b
  let cd := d + c
  let last := cd + ab + r.sum
  ⟨(((r.filled.push (level (a + r.sum))).push (level (ab + r.sum))).push (level (bc + a + r.sum))).push (level last),
    last⟩

/-- the coverage bytes of all cells -/
def levels (cells : Cells) : Array UInt8 :=
  ((List.range ((cells.size + 3) / 4)).foldl (Running.advance cells) ⟨#[], 0⟩).filled

/-- the coverage of an outline in its frame: a byte for every pixel, row by row; cells behind the last pixel do not show -/
def coverageBytes (f : Frame) (outline : Outline) : Array UInt8 :=
  (levels (cellsOf f outline)).extract 0 (f.width * f.height)

end GlyphImage.TrueType
