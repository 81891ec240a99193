/-
The glyphs of a PFF2 font: bitmaps of one bit per pixel, most significant bit first, whose rows follow each other
without padding. `Glyph.coverage` expands the bits into bytes; it fails exactly on a bitmap that is too short. In a file
a glyph is a record of ten header bytes and the bitmap; `Glyph.read?` reads one and `Glyph.encode` writes one.
-/
import GlyphImage.Bytes.BigEndian
import GlyphImage.Font.Error
import GlyphImage.Metrics

namespace GlyphImage.Pff2

/-- a glyph of a bitmap font -/
structure Glyph where
  /-- the code point -/
  code : UInt32
  width : UInt16
  height : UInt16
  /-- from the pen position to the bitmap's left edge -/
  xOffset : Int16
  /-- from the baseline to the bitmap's bottom edge -/
  yOffset : Int16
  /-- horizontal advance in pixels -/
  deviceWidth : Int16
  /-- one bit per pixel, most significant bit first, no padding between rows -/
  bitmap : Array UInt8
  deriving DecidableEq, Repr

namespace Glyph

/-! ## Pixels -/

/-- the bytes that hold the bits of a bitmap of this size -/
def byteCount (width height : Nat) : Nat := (width * height + 7) / 8

/-- bit `i` of the bitmap, counted along the rows, if the bitmap reaches that far -/
def bit? (g : Glyph) (i : Nat) : Option Bool := (g.bitmap[i / 8]?).map fun byte => byte.toNat.testBit (7 - i % 8)

/-- whether a pixel is filled, if it is inside the glyph and the bitmap reaches it -/
def pixel? (g : Glyph) (x y : Nat) : Option Bool :=
  if x < g.width.toNat ∧ y < g.height.toNat then g.bit? (y * g.width.toNat + x) else none

/-- a filled pixel is fully covered, any other not at all -/
def coverageOf (filled : Option Bool) : UInt8 := if filled = some true then 255 else 0

/-- the coverage bytes of a row, if the bitmap reaches all of its pixels -/
def rowCoverage? (g : Glyph) (y : Nat) : Option (List UInt8) :=
  (List.range g.width.toNat).mapM fun x => (g.pixel? x y).map fun filled => coverageOf (some filled)

/-- the coverage bytes of all rows, one behind the other -/
def coverageBytes? (g : Glyph) : Option (Array UInt8) :=
  ((List.range g.height.toNat).mapM g.rowCoverage?).map fun rows => rows.flatten.toArray

/-- the bits as coverage, one byte per pixel without padding. Room for the bytes is asked for first; then a pixel that
the bitmap does not reach spoils the glyph -/
def coverage (g : Glyph) : Except FontError Coverage :=
  let width := g.width.toNat
  let height := g.height.toNat
  if sizeLimit ≤ width * height then .error (.allocation (.overflow width height))
  else if reserveLimit ≤ width * height then .error (.allocation .reserve)
  else
    match g.coverageBytes?.bind (Coverage.ofBuffer? width height width) with
    | some b => .ok b
    | none => .error (.malformedBitmap width height g.bitmap.size)

/-- how the glyph sits on the line -/
def metrics (g : Glyph) : Metrics where
  width := g.width.toNat
  height := g.height.toNat
  advance := 64 * g.deviceWidth.toInt
  bearingX := g.xOffset.toInt
  bearingY := g.yOffset.toInt + g.height.toNat

/-! ## Records -/

/-- the bytes of a record in front of the bitmap -/
def headerSize : Nat := 10

/-- reads the record at `offset` of the file, if it lies wholly inside -/
def read? (file : Array UInt8) (code : UInt32) (offset : Nat) : Option Glyph :=
  match (file.extract offset (offset + headerSize)).toList with
  | [w1, w2, h1, h2, x1, x2, y1, y2, d1, d2] =>
    let width := Bytes.uint16 w1 w2
    let height := Bytes.uint16 h1 h2
    let start := offset + headerSize
    let bitmap := file.extract start (start + byteCount width.toNat height.toNat)
    if bitmap.size = byteCount width.toNat height.toNat then
      some ⟨code, width, height, Bytes.int16 x1 x2, Bytes.int16 y1 y2, Bytes.int16 d1 d2, bitmap⟩
    else none
  | _ => none

/-- the record of a glyph -/
def encode (g : Glyph) : List UInt8 :=
  Bytes.ofUInt16 g.width ++ Bytes.ofUInt16 g.height ++ Bytes.ofInt16 g.xOffset ++ Bytes.ofInt16 g.yOffset ++
    Bytes.ofInt16 g.deviceWidth ++ g.bitmap.toList

end Glyph

end GlyphImage.Pff2
