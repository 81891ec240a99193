/-
Reading bitmaps. A row is the coverage of its pixels, and the rows show the visible coverage and nothing else
(`Coverage.getElem?_row`, `Coverage.rows_congr`). `probe?` and `rows?` read with every step checked: they give up as soon
as a number is no 64 bit size, or a byte or a slice is not in the buffer. On a bitmap that was accepted they never give up
(`Coverage.probe?_eq`, `Coverage.rows?_eq`), although acceptance looks at one product only: every place and every end of a
row stays below it. `accepted_bitmap_is_readable` says when a buffer is accepted and what is then read.
-/
import GlyphImage.Coverage
import GlyphImage.Proofs.Results

namespace GlyphImage

/-! ## Sizes -/

/-- a number, if it is a size -/
def size? (n : Nat) : Option Nat := if n < sizeLimit then some n else none

theorem size?_of_lt {n : Nat} (h : n < sizeLimit) : size? n = some n := if_pos h

theorem size?_of_le {n : Nat} (h : sizeLimit ≤ n) : size? n = none := if_neg (Nat.not_lt.2 h)

namespace Coverage

/-! ## Accepted buffers -/

/-- the bytes between the first row and the end of the last can be counted -/
def Countable (b : Coverage) : Prop := b.height * b.pitch < sizeLimit

/-- a buffer that is accepted becomes a bitmap with the given numbers -/
theorem eq_of_ofBuffer? {width height pitch : Nat} {buffer : Array UInt8} {b : Coverage}
    (h : ofBuffer? width height pitch buffer = some b) :
    b.width = width ∧ b.height = height ∧ b.pitch = pitch ∧ b.buffer = buffer ∧ b.Countable := by
  unfold ofBuffer? at h
  split_ifs at h with haccepted
  obtain rfl := Option.some.inj h
  exact ⟨rfl, rfl, rfl, rfl, haccepted.2.1⟩

theorem exists_ofBuffer?_iff {width height pitch : Nat} {buffer : Array UInt8} :
    (∃ b, ofBuffer? width height pitch buffer = some b) ↔
      width ≤ pitch ∧ height * pitch < sizeLimit ∧ height * pitch ≤ buffer.size := by
  unfold ofBuffer?
  split_ifs with haccepted
  · simp [haccepted]
  · simp [haccepted]

/-! ## Pixels and rows -/

variable {b b' : Coverage} {x y : Nat}

theorem at?_tabulate (width height : Nat) (value : Nat → UInt8) (x y : Nat) :
    (tabulate width height value).at? x y = if x < width ∧ y < height then some (value (y * width + x)) else none := by
  unfold at? tabulate
  simp only [Array.getElem_ofFn]
  split <;> rfl

theorem at?_of_lt (hx : x < b.width) (hy : y < b.height) : b.at? x y = b.buffer[y * b.pitch + x]? := by
  rw [at?, dif_pos ⟨hx, hy⟩, Array.getElem?_eq_getElem (b.index_lt_size hx hy)]

theorem at?_outside (h : ¬(x < b.width ∧ y < b.height)) : b.at? x y = none := dif_neg h

theorem getElem?_row (b : Coverage) {y : Nat} (hy : y < b.height) (x : Nat) : (b.row y)[x]? = b.at? x y := by
  have hend := b.row_end_le_size hy
  rw [row, Array.getElem?_toList, Array.getElem?_extract]
  by_cases hx : x < b.width
  · rw [if_pos (by omega), at?_of_lt hx hy]
  · rw [if_neg (by omega), at?_outside fun h => hx h.1]

theorem length_row (b : Coverage) {y : Nat} (hy : y < b.height) : (b.row y).length = b.width := by
  have hend := b.row_end_le_size hy
  rw [row, Array.length_toList, Array.size_extract]
  omega

theorem rows_eq (b : Coverage) : b.rows = (List.range b.height).map b.row := by
  rw [rows, firstRows, Nat.min_self]

theorem length_rows (b : Coverage) : b.rows.length = b.height := by
  rw [rows_eq, List.length_map, List.length_range]

theorem length_of_mem_rows {b : Coverage} {row : List UInt8} (h : row ∈ b.rows) : row.length = b.width := by
  rw [rows_eq] at h
  obtain ⟨y, hy, rfl⟩ := List.mem_map.1 h
  exact b.length_row (List.mem_range.1 hy)

theorem getElem?_rows (hy : y < b.height) : b.rows[y]? = some (b.row y) := by
  rw [rows_eq, List.getElem?_map, List.getElem?_range hy, Option.map_some]

/-- the rows show the visible coverage and nothing else -/
theorem rows_congr (hheight : b'.height = b.height) (hat : ∀ x y, b'.at? x y = b.at? x y) : b'.rows = b.rows := by
  rw [rows_eq, rows_eq, hheight]
  refine List.map_congr_left fun y hy => List.ext_getElem? fun x => ?_
  have hlt := List.mem_range.1 hy
  rw [getElem?_row b' (hheight ▸ hlt), getElem?_row b hlt, hat]

/-! ## Checked reading -/

/-- where a pixel stands in the buffer, if every number on the way is a size -/
def index? (b : Coverage) (x y : Nat) : Option Nat := do
  let start ← size? (y * b.pitch)
  size? (start + x)

/-- the coverage of a pixel, every step checked: the outer answer is missing if a step fails, the inner one if the pixel
is outside the bitmap -/
def probe? (b : Coverage) (x y : Nat) : Option (Option UInt8) :=
  if b.width ≤ x ∨ b.height ≤ y then some none
  else do
    let value ← b.buffer[← b.index? x y]?
    some (some value)

/-- the bytes from `start` up to `stop`, if they are a slice of the buffer -/
def slice? (b : Coverage) (start stop : Nat) : Option (List UInt8) :=
  if start ≤ stop ∧ stop ≤ b.buffer.size then some (b.buffer.extract start stop).toList else none

/-- the visible part of a row, every step checked -/
def row? (b : Coverage) (y : Nat) : Option (List UInt8) := do
  let start ← size? ((← size? y) * b.pitch)
  let stop ← size? (start + b.width)
  b.slice? start stop

/-- the visible part of every row, every step checked -/
def rows? (b : Coverage) : Option (List (List UInt8)) := (List.range b.height).mapM b.row?

/-! ## No step fails -/

/-- **Every pixel is safe**: inside, its place is below the end of its row. -/
theorem probe?_eq (hcount : b.Countable) (x y : Nat) : b.probe? x y = some (b.at? x y) := by
  unfold Countable at hcount
  unfold probe?
  split_ifs with houtside
  · rw [at?_outside (by omega)]
  · obtain ⟨hx, hy⟩ : x < b.width ∧ y < b.height := by omega
    have hend := b.row_end_le_extent hy
    have hstart : size? (y * b.pitch) = some (y * b.pitch) := size?_of_lt (by omega)
    have hplace : size? (y * b.pitch + x) = some (y * b.pitch + x) := size?_of_lt (by omega)
    have hbyte := Array.getElem?_eq_getElem (b.index_lt_size hx hy)
    simp [index?, hstart, hplace, at?_of_lt hx hy, hbyte]

/-- **A row is safe**: it ends inside the extent of the bitmap, and the extent inside the buffer. -/
theorem row?_eq (hcount : b.Countable) (hheight : b.height < sizeLimit) (hy : y < b.height) :
    b.row? y = some (b.row y) := by
  unfold Countable at hcount
  have hend := b.row_end_le_extent hy
  have hline : size? y = some y := size?_of_lt (by omega)
  have hstart : size? (y * b.pitch) = some (y * b.pitch) := size?_of_lt (by omega)
  have hstop : size? (y * b.pitch + b.width) = some (y * b.pitch + b.width) := size?_of_lt (by omega)
  have hslice : y * b.pitch ≤ y * b.pitch + b.width ∧ y * b.pitch + b.width ≤ b.buffer.size :=
    ⟨Nat.le_add_right _ _, b.row_end_le_size hy⟩
  simp [row?, hline, hstart, hstop, slice?, hslice, row]

/-- **All rows are safe**, as many as there are. -/
theorem rows?_eq (hcount : b.Countable) (hheight : b.height < sizeLimit) : b.rows? = some b.rows := by
  rw [rows?, rows_eq]
  exact mapM_eq_some_map fun y hy => row?_eq hcount hheight (List.mem_range.1 hy)

/-- **A bitmap that was accepted can always be read.** A buffer is accepted if and only if no row is wider than the
distance to the next, the rows' bytes can be counted in 64 bits, and the buffer has that many. Then a pixel inside is the
byte at its place, which the buffer has, and outside there is no pixel. There are as many rows as the height tells, each
of the width, and they consist of the pixels. Read with every step checked, whether pixel by pixel or row by row, the
answers are the same: no product or sum is too large, no place and no slice is outside the buffer. -/
theorem accepted_bitmap_is_readable (width height pitch : Nat) (buffer : Array UInt8) :
    ((∃ b, ofBuffer? width height pitch buffer = some b) ↔
      width ≤ pitch ∧ height * pitch < 2 ^ 64 ∧ height * pitch ≤ buffer.size) ∧
    ∀ b, ofBuffer? width height pitch buffer = some b →
      (∀ x y, x < width → y < height →
        y * pitch + x < buffer.size ∧ b.at? x y = buffer[y * pitch + x]?) ∧
      (∀ x y, width ≤ x ∨ height ≤ y → b.at? x y = none) ∧
      b.rows.length = height ∧
      (∀ y, y < height → ∃ row, b.rows[y]? = some row ∧ row.length = width ∧ ∀ x, row[x]? = b.at? x y) ∧
      (∀ x y, b.probe? x y = some (b.at? x y)) ∧
      (height < 2 ^ 64 → b.rows? = some b.rows) := by
  refine ⟨exists_ofBuffer?_iff, fun b haccepted => ?_⟩
  obtain ⟨rfl, rfl, rfl, rfl, hcount⟩ := eq_of_ofBuffer? haccepted
  refine ⟨fun x y hx hy => ?_, fun x y houtside => ?_, b.length_rows, fun y hy => ?_, ?_, ?_⟩
  · exact ⟨b.index_lt_size hx hy, at?_of_lt hx hy⟩
  · apply at?_outside
    omega
  · exact ⟨b.row y, getElem?_rows hy, b.length_row hy, b.getElem?_row hy⟩
  · exact probe?_eq hcount
  · intro hheight
    exact rows?_eq hcount hheight

/-- the largest height over rows of no bytes, the largest width over no rows, and two rows of which the last ends with
the buffer -/
theorem accepted_bitmap_is_readable_degenerate :
    (∃ b, ofBuffer? 0 (2 ^ 64 - 1) 0 #[] = some b ∧ b.rows.length = 2 ^ 64 - 1 ∧ b.at? 0 0 = none ∧
      b.rows? = some b.rows) ∧
    (∃ b, ofBuffer? (2 ^ 64 - 1) 0 (2 ^ 64 - 1) #[] = some b ∧ b.rows? = some b.rows ∧ b.rows.length = 0 ∧
      b.probe? (2 ^ 64 - 2) 0 = some none) ∧
    ∃ b, ofBuffer? 2 2 2 #[1, 2, 3, 4] = some b ∧ b.at? 1 1 = some 4 ∧ b.rows? = some b.rows := by
  obtain ⟨htall, htallRead⟩ := accepted_bitmap_is_readable 0 (2 ^ 64 - 1) 0 #[]
  obtain ⟨hwide, hwideRead⟩ := accepted_bitmap_is_readable (2 ^ 64 - 1) 0 (2 ^ 64 - 1) #[]
  obtain ⟨hfull, hfullRead⟩ := accepted_bitmap_is_readable 2 2 2 #[1, 2, 3, 4]
  refine ⟨?_, ?_, ?_⟩
  · obtain ⟨b, hb⟩ := htall.2 ⟨by decide, by decide, by decide⟩
    obtain ⟨-, houtside, hlength, -, -, hrows⟩ := htallRead b hb
    exact ⟨b, hb, hlength, houtside 0 0 (Or.inl (by decide)), hrows (by decide)⟩
  · obtain ⟨b, hb⟩ := hwide.2 ⟨by decide, by decide, by decide⟩
    obtain ⟨-, houtside, hlength, -, hprobe, hrows⟩ := hwideRead b hb
    have hmissing := houtside (2 ^ 64 - 2) 0 (Or.inr (by decide))
    exact ⟨b, hb, hrows (by decide), hlength, (hprobe _ _).trans (congrArg some hmissing)⟩
  · obtain ⟨b, hb⟩ := hfull.2 ⟨by decide, by decide, by decide⟩
    obtain ⟨hinside, -, -, -, -, hrows⟩ := hfullRead b hb
    exact ⟨b, hb, (hinside 1 1 (by decide) (by decide)).2, hrows (by decide)⟩

end Coverage

end GlyphImage
