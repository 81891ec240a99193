/-
Compositing with every step checked. `Canvas.composite?` does what `Canvas.composite` does, but gives up as soon as a
number is no 64 bit size or four bytes to be replaced are no slice of the buffer. On the canvas made for a bitmap it never
gives up (`Canvas.composite?_blank`): one pixel is safe if its place is on the canvas, and from this follow the rows and
the whole bitmap. `Canvas.bytes_eq`: the bytes of a canvas are its pixels in row-major order.
`framing_places_the_bitmap` says what the canvas made for a bitmap is, at every place and as a whole, and that it depends
on nothing of the bitmap but its size and its visible coverage.
-/
import GlyphImage.Proofs.Canvas

namespace GlyphImage

/-- the four bytes of a pixel -/
def Pixel.bytes (p : Pixel) : List UInt8 := [p.red, p.green, p.blue, p.alpha]

namespace Canvas

variable {c : Canvas} {x y : Nat}

/-! ## Checked steps -/

/-- where the bytes of a pixel start, if every number on the way is a size -/
def offset? (c : Canvas) (x y : Nat) : Option Nat := do
  let above ← size? (y * c.width)
  let cell ← size? (above + x)
  size? (cell * 4)

/-- replaces a pixel of the canvas, if its bytes are a slice of the buffer -/
def put? (c : Canvas) (x y : Nat) (p : Pixel) : Option Canvas := do
  let start ← c.offset? (← size? x) (← size? y)
  let stop ← size? (start + 4)
  if stop ≤ c.bytes.size then some (c.put x y p) else none

/-- puts one row of coverage from `(x, y)` on, every step checked -/
def putRow? (c : Canvas) (x y : Nat) : List UInt8 → Option Canvas
  | [] => some c
  | alpha :: rest => (c.put? x y (.black alpha)).bind fun c' => c'.putRow? (x + 1) y rest

/-- puts rows of coverage below each other, every step checked -/
def putRows? (c : Canvas) (y : Nat) : List (List UInt8) → Option Canvas
  | [] => some c
  | row :: rest => (c.putRow? margin y row).bind fun c' => c'.putRows? (y + 1) rest

/-- places the bitmap inside the margins, every step checked; on a canvas that is too small it has no place -/
def composite? (c : Canvas) (b : Coverage) : Option Canvas := do
  let width ← size? (b.width + 2 * margin)
  let height ← size? (b.height + 2 * margin)
  if width ≤ c.width ∧ height ≤ c.height then c.putRows? margin b.rows else none

/-! ## No step fails -/

/-- the bytes of the canvas can be counted -/
def Countable (c : Canvas) : Prop := c.bytes.size < sizeLimit

/-- a canvas of the same size can be counted as well -/
theorem Countable.of_dims {c' : Canvas} (h : c.Countable) (hwidth : c'.width = c.width) (hheight : c'.height = c.height) :
    c'.Countable := by
  unfold Countable at h ⊢
  rw [size_bytes] at h ⊢
  rwa [hwidth, hheight]

theorem offset?_eq (hcount : c.Countable) (hx : x < c.width) (hy : y < c.height) :
    c.offset? x y = some (c.offset x y) := by
  have hinside := c.offset_add_four_le hx hy
  unfold Countable at hcount
  unfold offset at hinside ⊢
  have habove : size? (y * c.width) = some (y * c.width) := size?_of_lt (by omega)
  have hcell : size? (y * c.width + x) = some (y * c.width + x) := size?_of_lt (by omega)
  have hstart : size? ((y * c.width + x) * 4) = some (4 * (y * c.width + x)) := by
    rw [Nat.mul_comm]
    exact size?_of_lt (by omega)
  simp [offset?, habove, hcell, hstart]

/-- **One pixel is safe** if its place is on the canvas. -/
theorem put?_eq (hcount : c.Countable) (hx : x < c.width) (hy : y < c.height) (p : Pixel) :
    c.put? x y p = some (c.put x y p) := by
  have hinside := c.offset_add_four_le hx hy
  have hstart := offset?_eq hcount hx hy
  unfold Countable at hcount
  have hx_le : x ≤ c.offset x y := by unfold offset; omega
  have hy_le : y ≤ y * c.width := Nat.le_mul_of_pos_right y (Nat.zero_lt_of_lt hx)
  have hy_le' : y * c.width ≤ c.offset x y := by unfold offset; omega
  have hcolumn : size? x = some x := size?_of_lt (by omega)
  have hline : size? y = some y := size?_of_lt (by omega)
  have hstop : size? (c.offset x y + 4) = some (c.offset x y + 4) := size?_of_lt (by omega)
  simp [put?, hcolumn, hline, hstart, hstop, hinside]

/-- **A row is safe** if it ends on the canvas. -/
theorem putRow?_eq (row : List UInt8) (hcount : c.Countable) (hx : x + row.length ≤ c.width) (hy : y < c.height) :
    c.putRow? x y row = some (c.putRow x y row) := by
  induction row generalizing c x with
  | nil => rfl
  | cons alpha rest ih =>
    rw [List.length_cons] at hx
    have hcount' : (c.put x y (.black alpha)).Countable := hcount.of_dims rfl rfl
    have hx' : x + 1 + rest.length ≤ (c.put x y (.black alpha)).width := by
      simp only [put]
      omega
    rw [putRow?, put?_eq hcount (by omega) hy, Option.bind_some, ih hcount' hx' hy, putRow]

/-- **All rows are safe** if they end on the canvas. -/
theorem putRows?_eq (rows : List (List UInt8)) (hcount : c.Countable)
    (hrows : ∀ row ∈ rows, margin + row.length ≤ c.width) (hy : y + rows.length ≤ c.height) :
    c.putRows? y rows = some (c.putRows y rows) := by
  induction rows generalizing c y with
  | nil => rfl
  | cons row rest ih =>
    rw [List.length_cons] at hy
    obtain ⟨hwidth, hheight⟩ := width_putRow c margin y row
    have hrest : ∀ r ∈ rest, margin + r.length ≤ (c.putRow margin y row).width := by
      intro r hr
      rw [hwidth]
      exact hrows r (List.mem_cons_of_mem row hr)
    have hrow := hrows row List.mem_cons_self
    rw [putRows?, putRow?_eq row hcount hrow (by omega), Option.bind_some,
      ih (hcount.of_dims hwidth hheight) hrest (by omega), putRows]

theorem countable_of_blank {width height : Nat} (h : blank width height = .ok c) : c.Countable := by
  obtain ⟨hgranted, -, -, hbytes⟩ := blank_eq_ok_iff.1 h
  rw [Countable, hbytes, Array.size_replicate]
  exact Nat.lt_of_lt_of_le hgranted reserveLimit_le_sizeLimit

/-- **Placing a bitmap on the canvas made for it** takes no step that fails. -/
theorem composite?_blank {b : Coverage} (hwidth : b.width + 2 * margin < sizeLimit)
    (hheight : b.height + 2 * margin < sizeLimit) (h : blank (b.width + 2 * margin) (b.height + 2 * margin) = .ok c) :
    c.composite? b = some (c.composite b) := by
  have hfits := fits_framing h
  have hrows : ∀ row ∈ b.rows, margin + row.length ≤ c.width := by
    intro row hrow
    have hle := hfits.1
    rw [Coverage.length_of_mem_rows hrow]
    omega
  have hlines : margin + b.rows.length ≤ c.height := by
    have hle := hfits.2
    rw [Coverage.length_rows]
    omega
  rw [composite, if_pos hfits, ← putRows?_eq b.rows (countable_of_blank h) hrows hlines]
  simp only [composite?, size?_of_lt hwidth, size?_of_lt hheight, Option.bind_eq_bind, Option.bind_some]
  exact if_pos hfits

/-! ## Bytes -/

/-- a pixel of the canvas -/
theorem exists_pixel? (hx : x < c.width) (hy : y < c.height) : ∃ p, c.pixel? x y = some p :=
  ⟨_, dif_pos ⟨hx, hy⟩⟩

theorem getElem?_bytes_pixelAt (c : Canvas) (start : Nat) (h : start + 4 ≤ c.bytes.size) {k : Nat} (hk : k < 4) :
    (c.pixelAt start h).bytes[k]? = c.bytes[start + k]? := by
  rw [Array.getElem?_eq_getElem (by omega)]
  match k, hk with
  | 0, _ => rfl
  | 1, _ => rfl
  | 2, _ => rfl
  | 3, _ => rfl

theorem bytes_eq_flatMap_pixels (c : Canvas) : c.bytes.toList = c.pixels.flatMap Pixel.bytes := by
  have hsize : ∀ p : Pixel, p.bytes.length = 4 := fun _ => rfl
  refine List.ext_getElem? fun i => ?_
  have hplace : 4 * (i / 4) + i % 4 = i := Nat.div_add_mod i 4
  have hrest : i % 4 < 4 := Nat.mod_lt i (by decide)
  rw [← hplace, getElem?_flatMap_blocks hsize _ _ hrest, Array.getElem?_toList, pixels, List.getElem?_map]
  have hcount := c.size_bytes
  by_cases hi : i / 4 < c.width * c.height
  · have hlength : i / 4 < (List.finRange (c.width * c.height)).length := by rwa [List.length_finRange]
    rw [List.getElem?_eq_getElem hlength, List.getElem_finRange, Option.map_some, Option.bind_some,
      getElem?_bytes_pixelAt _ _ _ hrest]
    rfl
  · rw [List.getElem?_eq_none (by rw [List.length_finRange]; omega), Array.getElem?_eq_none (by omega)]
    rfl

/-- **The bytes of a canvas are its pixels in row-major order.** -/
theorem bytes_eq (c : Canvas) :
    c.bytes.toList = (List.range c.height).flatMap fun y => (List.range c.width).flatMap fun x =>
      (c.pixel? x y).elim [] Pixel.bytes := by
  have hpixel : ∀ x y, x < c.width → y < c.height → c.pixel? x y = some ((c.pixel? x y).getD (.black 0)) := by
    intro x y hx hy
    obtain ⟨p, hp⟩ := exists_pixel? hx hy
    rw [hp, Option.getD_some]
  rw [bytes_eq_flatMap_pixels, pixels_eq hpixel, List.flatMap_assoc]
  refine List.flatMap_congr fun y hy => ?_
  rw [List.flatMap_map]
  refine List.flatMap_congr fun x hx => ?_
  obtain ⟨p, hp⟩ := exists_pixel? (List.mem_range.1 hx) (List.mem_range.1 hy)
  rw [hp]
  rfl

/-! ## Frames -/

/-- bitmaps of one size that look the same have the same frame -/
theorem framing_congr {b b' : Coverage} (hwidth : b'.width = b.width) (hheight : b'.height = b.height)
    (hat : ∀ x y, b'.at? x y = b.at? x y) : framing b' = framing b := by
  have hcomposite : ∀ c : Canvas, c.composite b' = c.composite b := by
    intro c
    have hfits : c.Fits b' ↔ c.Fits b := by rw [Fits, Fits, hwidth, hheight]
    simp only [composite, hfits, Coverage.rows_congr hheight hat]
  simp only [framing, hwidth, hheight, hcomposite]

/-- **The canvas made for a bitmap.** It is by ten pixels wider and higher, and these are all its places. Five pixels in
it shows the bitmap's coverage as the strength of black, and everywhere else it is clear. Its bytes are these pixels in
row-major order. Made with every step checked, down to the slices that are replaced and the numbers that place them, it
is the same canvas; and every bitmap of this size that looks the same has this canvas. -/
theorem framing_places_the_bitmap {b : Coverage} {c : Canvas} (h : framing b = .ok c) :
    c.width = b.width + 10 ∧ c.height = b.height + 10 ∧
    (∀ x y, c.pixel? x y = none ↔ b.width + 10 ≤ x ∨ b.height + 10 ≤ y) ∧
    (∀ x y, 5 ≤ x → x < b.width + 5 → 5 ≤ y → y < b.height + 5 →
      ∃ value, b.at? (x - 5) (y - 5) = some value ∧ c.pixel? x y = some ⟨0, 0, 0, value⟩) ∧
    (∀ x y, x < b.width + 10 → y < b.height + 10 →
      ¬((5 ≤ x ∧ x < b.width + 5) ∧ 5 ≤ y ∧ y < b.height + 5) → c.pixel? x y = some ⟨0, 0, 0, 0⟩) ∧
    (c.bytes.toList = (List.range (b.height + 10)).flatMap fun y => (List.range (b.width + 10)).flatMap fun x =>
      (c.pixel? x y).elim [] fun p => [p.red, p.green, p.blue, p.alpha]) ∧
    (∃ clear, blank (b.width + 10) (b.height + 10) = .ok clear ∧ clear.composite? b = some c) ∧
    ∀ b' : Coverage, b'.width = b.width → b'.height = b.height → (∀ x y, b'.at? x y = b.at? x y) →
      framing b' = .ok c := by
  obtain ⟨hwidth, hheight, hpixel⟩ := framing_spec h
  refine ⟨hwidth, hheight, ?_, ?_, ?_, ?_, ?_, ?_⟩
  · intro x y
    have hdims : c.width = b.width + 10 ∧ c.height = b.height + 10 := ⟨hwidth, hheight⟩
    rw [pixel?]
    split_ifs with hinside
    · simp only [false_iff]
      omega
    · simp only [true_iff]
      omega
  · intro x y hx hx' hy hy'
    have hat : b.at? (x - 5) (y - 5) = some _ := dif_pos ⟨by omega, by omega⟩
    refine ⟨_, hat, ?_⟩
    have hframed := Coverage.framed_of_at? hat
    rw [margin, Nat.sub_add_cancel hx, Nat.sub_add_cancel hy] at hframed
    rw [hpixel x y (by rw [hwidth, margin]; omega) (by rw [hheight, margin]; omega), hframed]
    rfl
  · intro x y hx hy houtside
    rw [hpixel x y (hwidth ▸ hx) (hheight ▸ hy), Coverage.framed_outside houtside]
    rfl
  · have hbytes := c.bytes_eq
    rwa [hwidth, hheight] at hbytes
  · unfold framing at h
    split_ifs at h with hlimit
    obtain ⟨hlimit, hlimit'⟩ := not_or.1 hlimit
    cases hblank : blank (b.width + 2 * margin) (b.height + 2 * margin) with
    | error e =>
      rw [hblank] at h
      cases h
    | ok clear =>
      rw [hblank] at h
      obtain rfl := Except.ok.inj h
      exact ⟨clear, hblank, composite?_blank (Nat.not_le.1 hlimit) (Nat.not_le.1 hlimit') hblank⟩
  · intro b' hwidth' hheight' hat
    rw [framing_congr hwidth' hheight' hat, h]

/-- a bitmap whose rows are padded, and which is followed by bytes of no row, has the canvas of the bitmap without them -/
theorem framing_places_the_bitmap_padded :
    ∃ b b' c, Coverage.ofBuffer? 2 2 3 #[1, 2, 77, 3, 255, 99, 42] = some b ∧
      Coverage.ofBuffer? 2 2 2 #[1, 2, 3, 255] = some b' ∧ framing b = .ok c ∧ framing b' = .ok c ∧
      c.pixel? 6 6 = some ⟨0, 0, 0, 255⟩ ∧ c.pixel? 7 6 = some ⟨0, 0, 0, 0⟩ ∧ c.pixel? 12 6 = none := by
  let b : Coverage := ⟨2, 2, 3, #[1, 2, 77, 3, 255, 99, 42], by decide, by decide⟩
  let b' : Coverage := ⟨2, 2, 2, #[1, 2, 3, 255], by decide, by decide⟩
  obtain ⟨c, hc⟩ : ∃ c, framing b = .ok c := exists_framing (by decide)
  obtain ⟨-, -, hnone, hinside, houtside, -, -, hsame⟩ := framing_places_the_bitmap hc
  have hat : ∀ x y, b'.at? x y = b.at? x y := by
    intro x y
    by_cases h : x < 2 ∧ y < 2
    · obtain ⟨hx, hy⟩ := h
      interval_cases x <;> interval_cases y <;> rfl
    · rw [Coverage.at?, Coverage.at?, dif_neg h, dif_neg h]
  refine ⟨b, b', c, by decide, by decide, hc, hsame b' rfl rfl hat, ?_, ?_, ?_⟩
  · obtain ⟨value, hvalue, hpixel⟩ := hinside 6 6 (by omega) (by decide) (by omega) (by decide)
    obtain rfl : 255 = value := Option.some.inj hvalue
    exact hpixel
  · exact houtside 7 6 (by decide) (by decide) (by decide)
  · exact (hnone 12 6).2 (Or.inl (by decide))

end Canvas

end GlyphImage
