/-
Tables of an outline font: windows into the file from which big-endian fields are read. Reading answers `none` beyond
the window, so no field is ever taken from a neighbouring table. The table directory names the windows; a window that
reaches beyond the file counts as missing.
-/
import GlyphImage.Bytes.BigEndian
import GlyphImage.Text.Utf8
import GlyphImage.TrueType.Error

namespace GlyphImage.TrueType

/-! ## Windows -/

/-- `length` bytes of a file from `start` on -/
structure Table where
  file : Array UInt8
  start : Nat
  length : Nat
  deriving DecidableEq, Repr

namespace Table

/-- the whole file -/
def ofFile (file : Array UInt8) : Table := ⟨file, 0, file.size⟩

/-- the part of the window from `start` on with the given length, if it is inside -/
def part? (t : Table) (start length : Nat) : Option Table :=
  if start + length ≤ t.length then some ⟨t.file, t.start + start, length⟩ else none

/-- the window without its first `start` bytes -/
def from? (t : Table) (start : Nat) : Option Table := t.part? start (t.length - start)

/-- the byte at a position -/
def uint8? (t : Table) (i : Nat) : Option UInt8 := if i < t.length then t.file[t.start + i]? else none

/-- the unsigned 16 bit field at a position -/
def uint16? (t : Table) (i : Nat) : Option UInt16 := do
  let hi ← t.uint8? i
  let lo ← t.uint8? (i + 1)
  return Bytes.uint16 hi lo

/-- the signed 16 bit field at a position -/
def int16? (t : Table) (i : Nat) : Option Int16 := (t.uint16? i).map UInt16.toInt16

/-- the unsigned 32 bit field at a position -/
def uint32? (t : Table) (i : Nat) : Option UInt32 := do
  let a ← t.uint8? i
  let b ← t.uint8? (i + 1)
  let c ← t.uint8? (i + 2)
  let d ← t.uint8? (i + 3)
  return Bytes.uint32 a b c d

/-- the unsigned 16 bit field at a position as a number -/
def nat16? (t : Table) (i : Nat) : Option Nat := (t.uint16? i).map UInt16.toNat

/-- the unsigned 32 bit field at a position as a number -/
def nat32? (t : Table) (i : Nat) : Option Nat := (t.uint32? i).map UInt32.toNat

end Table

/-! ## Magic numbers -/

/-- the magic number of outlines in TrueType form -/
def magicTrueType : UInt32 := 0x00010000

/-- the magic number `true` -/
def magicTrue : UInt32 := 0x74727565

/-- the magic number `OTTO` -/
def magicOpenType : UInt32 := 0x4F54544F

/-- the magic number `ttcf` of a collection -/
def magicCollection : UInt32 := 0x74746366

/-- the magic numbers a single font may start with -/
def faceMagics : List UInt32 := [magicTrueType, magicTrue, magicOpenType]

/-! ## Directory -/

/-- what the directory says about a table -/
structure Record where
  tag : UInt32
  offset : Nat
  length : Nat
  deriving DecidableEq, Repr

/-- the bounds of a read decide the error -/
def within {α : Type} (field : Option α) : Except LoadError α :=
  match field with
  | some a => .ok a
  | none => .error .outOfBounds

/-- where the first font of a collection starts: offsets lie behind the list of offsets -/
def collectionStart (file : Table) : Except LoadError Nat := do
  let count := (← within (file.uint32? 8)).toNat
  let _ ← within (file.part? 12 (4 * count))
  if count = 0 then .error .noFaces
  else
    let start := (← within (file.uint32? 12)).toNat
    if start < 12 + 4 * count ∨ file.length < start then .error .outOfBounds else .ok start

/-- where the font of a file starts: at the front, or where a collection says -/
def faceStart (file : Table) : Except LoadError Nat :=
  match file.uint32? 0 with
  | none => .error .unknownMagic
  | some magic =>
    if magic = magicCollection then do
      let start ← collectionStart file
      match file.uint32? start with
      | none => .error .unknownMagic
      | some inner => if inner ∈ faceMagics then .ok start else .error .unknownMagic
    else if magic ∈ faceMagics then .ok 0
    else .error .unknownMagic

/-- the directory record at a position -/
def record? (file : Table) (position : Nat) : Option Record := do
  let tag ← file.uint32? position
  let offset ← file.nat32? (position + 8)
  let length ← file.nat32? (position + 12)
  return ⟨tag, offset, length⟩

/-- the table directory of a file -/
def directory (file : Table) : Except LoadError (List Record) := do
  let start ← faceStart file
  let count ← within (file.nat16? (start + 4))
  let _ ← within (file.part? (start + 12) (16 * count))
  within ((List.range count).mapM fun i => record? file (start + 12 + 16 * i))

/-- the number a tag of four characters stands for -/
def tagOf (name : String) : UInt32 :=
  match Utf8.encode name with
  | [a, b, c, d] => Bytes.uint32 a b c d
  | _ => 0

/-- the table of this name; the last record of the name counts -/
def table? (file : Table) (records : List Record) (name : String) : Option Table :=
  (records.reverse.find? fun r => r.tag = tagOf name).bind fun r => file.part? r.offset r.length

end GlyphImage.TrueType
