/-
Glyph coverage: one byte per pixel, 0 for clear and 255 for full, in rows that may be padded. Row `y` starts at
`y * pitch`, and of its `pitch` bytes the first `width` are visible. `Coverage.ofBuffer?` accepts a buffer exactly when
every visible pixel can be read from it and its extent fits a 64 bit size; from then on reading is total
(`index_lt_size`). `Coverage.tabulate` builds an unpadded one from a function.
-/

namespace GlyphImage

/-- one past the largest size of a 64 bit machine -/
def sizeLimit : Nat := UInt64.size

/-- a coverage bitmap whose rows all lie inside its buffer -/
structure Coverage where
  width : Nat
  height : Nat
  /-- the distance from one row to the next -/
  pitch : Nat
  buffer : Array UInt8
  width_le_pitch : width ≤ pitch
  extent_le_size : height * pitch ≤ buffer.size
  deriving DecidableEq, Repr

namespace Coverage

/-- takes the buffer as a bitmap: rows are wide enough, their extent fits a size, and the buffer holds them all -/
def ofBuffer? (width height pitch : Nat) (buffer : Array UInt8) : Option Coverage :=
  if h : width ≤ pitch ∧ height * pitch < sizeLimit ∧ height * pitch ≤ buffer.size then
    some ⟨width, height, pitch, buffer, h.1, h.2.2⟩
  else none

theorem extent_tabulate (width height : Nat) (value : Nat → UInt8) :
    height * width ≤ (Array.ofFn fun i : Fin (height * width) => value i.val).size := by
  simp

/-- the unpadded bitmap whose byte `i`, counted along the rows, is `value i` -/
def tabulate (width height : Nat) (value : Nat → UInt8) : Coverage :=
  ⟨width, height, width, Array.ofFn fun i : Fin (height * width) => value i.val, Nat.le_refl _,
    extent_tabulate width height value⟩

/-- a row ends inside the extent of the bitmap -/
theorem row_end_le_extent (b : Coverage) {y : Nat} (hy : y < b.height) :
    y * b.pitch + b.width ≤ b.height * b.pitch :=
  calc y * b.pitch + b.width
      ≤ y * b.pitch + b.pitch := Nat.add_le_add_left b.width_le_pitch _
    _ = (y + 1) * b.pitch := (Nat.succ_mul y b.pitch).symm
    _ ≤ b.height * b.pitch := Nat.mul_le_mul_right _ hy

/-- and so inside the buffer -/
theorem row_end_le_size (b : Coverage) {y : Nat} (hy : y < b.height) : y * b.pitch + b.width ≤ b.buffer.size :=
  Nat.le_trans (b.row_end_le_extent hy) b.extent_le_size

/-- the position of a visible pixel lies inside the buffer -/
theorem index_lt_size (b : Coverage) {x y : Nat} (hx : x < b.width) (hy : y < b.height) :
    y * b.pitch + x < b.buffer.size :=
  Nat.lt_of_lt_of_le (Nat.add_lt_add_left hx _) (b.row_end_le_size hy)

/-- the coverage of a pixel, if it is inside the bitmap -/
def at? (b : Coverage) (x y : Nat) : Option UInt8 :=
  if h : x < b.width ∧ y < b.height then
    have := b.index_lt_size h.1 h.2
    some b.buffer[y * b.pitch + x]
  else none

/-- the visible part of row `y` -/
def row (b : Coverage) (y : Nat) : List UInt8 :=
  (b.buffer.extract (y * b.pitch) (y * b.pitch + b.width)).toList

/-- the visible part of the first `count` rows; padding shows in none -/
def firstRows (b : Coverage) (count : Nat) : List (List UInt8) :=
  (List.range (min count b.height)).map b.row

/-- the visible part of every row -/
def rows (b : Coverage) : List (List UInt8) := b.firstRows b.height

end Coverage

end GlyphImage
