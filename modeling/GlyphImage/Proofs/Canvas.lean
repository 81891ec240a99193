/-
Where the compositor writes. A pixel that is put is seen at its own place and nowhere else (`Canvas.pixel?_put`); from
this follows what a row, several rows and a whole bitmap leave on a canvas, each time with the old pixels outside
(`Canvas.pixel?_putRow`, `Canvas.pixel?_putRows`, `Canvas.pixel?_composite`). `Canvas.framing_spec`: the canvas made for
a bitmap shows the bitmap's coverage inside the margins and is clear outside. `Canvas.pixels_eq`: what is known of every
place is known of the pixels in row-major order.
-/
import GlyphImage.Canvas
import GlyphImage.Proofs.Coverage

namespace GlyphImage

/-! ## Frames of bitmaps -/

namespace Coverage

/-- the coverage at a place of the frame around the bitmap; the margins are clear -/
def framed (b : Coverage) (x y : Nat) : UInt8 :=
  if Canvas.margin ≤ x ∧ Canvas.margin ≤ y then (b.at? (x - Canvas.margin) (y - Canvas.margin)).getD 0 else 0

/-- inside the margins the frame shows the bitmap -/
theorem framed_of_at? {b : Coverage} {x y : Nat} {value : UInt8} (h : b.at? x y = some value) :
    b.framed (x + Canvas.margin) (y + Canvas.margin) = value := by
  rw [framed, if_pos ⟨Nat.le_add_left _ _, Nat.le_add_left _ _⟩, Nat.add_sub_cancel, Nat.add_sub_cancel, h,
    Option.getD_some]

/-- outside them the frame is clear -/
theorem framed_outside {b : Coverage} {x y : Nat}
    (h : ¬((Canvas.margin ≤ x ∧ x < b.width + Canvas.margin) ∧ Canvas.margin ≤ y ∧ y < b.height + Canvas.margin)) :
    b.framed x y = 0 := by
  unfold framed at?
  split_ifs with hinside hat
  · omega
  · rfl
  · rfl

end Coverage

namespace Canvas

variable {c : Canvas} {x y x' y' : Nat}

/-! ## Single pixels -/

/-- the number of a place in row-major order is below the number of places -/
theorem cell_lt {w h : Nat} (hx : x < w) (hy : y < h) : y * w + x < w * h := by
  have hrow := Nat.mul_le_mul_left w (Nat.succ_le_of_lt hy)
  rw [Nat.mul_succ, Nat.mul_comm] at hrow
  omega

/-- places in rows of one width are told apart by their number in row-major order -/
theorem cell_injective {w : Nat} (hx : x < w) (hx' : x' < w) (h : y * w + x = y' * w + x') : x = x' ∧ y = y' := by
  have hy : y = y' := by
    rcases Nat.lt_trichotomy y y' with hlt | heq | hgt
    · have := Nat.mul_le_mul_right w (Nat.succ_le_of_lt hlt)
      rw [Nat.succ_mul] at this
      omega
    · exact heq
    · have := Nat.mul_le_mul_right w (Nat.succ_le_of_lt hgt)
      rw [Nat.succ_mul] at this
      omega
  subst hy
  exact ⟨Nat.add_left_cancel h, rfl⟩

theorem pixel?_of_lt (hx : x < c.width) (hy : y < c.height) :
    c.pixel? x y = some ⟨c.bytes[c.offset x y]?.getD 0, c.bytes[c.offset x y + 1]?.getD 0,
      c.bytes[c.offset x y + 2]?.getD 0, c.bytes[c.offset x y + 3]?.getD 0⟩ := by
  have hsize := c.offset_add_four_le hx hy
  rw [pixel?, dif_pos ⟨hx, hy⟩, pixelAt]
  rw [Array.getElem?_eq_getElem (by omega), Array.getElem?_eq_getElem (by omega),
    Array.getElem?_eq_getElem (by omega), Array.getElem?_eq_getElem (by omega)]
  rfl

theorem getElem?_bytes_put (hx : x < c.width) (hy : y < c.height) (p : Pixel) (i : Nat) :
    (c.put x y p).bytes[i]? =
      if i = c.offset x y + 3 then some p.alpha
      else if i = c.offset x y + 2 then some p.blue
      else if i = c.offset x y + 1 then some p.green
      else if i = c.offset x y then some p.red
      else c.bytes[i]? := by
  have hsize := c.offset_add_four_le hx hy
  simp only [put, Array.getElem?_setIfInBounds, Array.size_setIfInBounds, eq_comm (a := i)]
  rw [if_pos (by omega : c.offset x y + 3 < c.bytes.size), if_pos (by omega : c.offset x y + 2 < c.bytes.size),
    if_pos (by omega : c.offset x y + 1 < c.bytes.size), if_pos (by omega : c.offset x y < c.bytes.size)]

/-- **A pixel that is put is seen at its own place only.** -/
theorem pixel?_put (hx : x < c.width) (hy : y < c.height) (p : Pixel) (x' y' : Nat) :
    (c.put x y p).pixel? x' y' = if x' = x ∧ y' = y then some p else c.pixel? x' y' := by
  by_cases hin : x' < c.width ∧ y' < c.height
  · have hnew := pixel?_of_lt (c := c.put x y p) hin.1 hin.2
    have hoffset : (c.put x y p).offset x' y' = c.offset x' y' := rfl
    rw [hnew, pixel?_of_lt hin.1 hin.2, hoffset]
    by_cases hsame : x' = x ∧ y' = y
    · obtain ⟨rfl, rfl⟩ := hsame
      simp [getElem?_bytes_put hx hy]
    · have hne : y * c.width + x ≠ y' * c.width + x' := fun h =>
        hsame ⟨(cell_injective hx hin.1 h).1.symm, (cell_injective hx hin.1 h).2.symm⟩
      -- the four bytes of another place are other bytes
      have hother : ∀ k, k < 4 → (c.put x y p).bytes[c.offset x' y' + k]? = c.bytes[c.offset x' y' + k]? := by
        intro k hk
        rw [getElem?_bytes_put hx hy]
        unfold offset
        rw [if_neg (by omega), if_neg (by omega), if_neg (by omega), if_neg (by omega)]
      have hfirst := hother 0 (by omega)
      rw [Nat.add_zero] at hfirst
      rw [if_neg hsame, hfirst, hother 1 (by omega), hother 2 (by omega), hother 3 (by omega)]
  · have hsame : ¬(x' = x ∧ y' = y) := by
      rintro ⟨rfl, rfl⟩
      exact hin ⟨hx, hy⟩
    have hnew : (c.put x y p).pixel? x' y' = none := dif_neg hin
    have hold : c.pixel? x' y' = none := dif_neg hin
    rw [if_neg hsame, hnew, hold]

/-! ## Rows -/

theorem width_putRow (c : Canvas) (x y : Nat) (row : List UInt8) :
    (c.putRow x y row).width = c.width ∧ (c.putRow x y row).height = c.height := by
  induction row generalizing c x with
  | nil => exact ⟨rfl, rfl⟩
  | cons alpha rest ih => exact ih (c.put x y (.black alpha)) (x + 1)

theorem width_putRows (c : Canvas) (y : Nat) (rows : List (List UInt8)) :
    (c.putRows y rows).width = c.width ∧ (c.putRows y rows).height = c.height := by
  induction rows generalizing c y with
  | nil => exact ⟨rfl, rfl⟩
  | cons row rest ih =>
    obtain ⟨hwidth, hheight⟩ := width_putRow c margin y row
    obtain ⟨hwidth', hheight'⟩ := ih (c.putRow margin y row) (y + 1)
    exact ⟨hwidth'.trans hwidth, hheight'.trans hheight⟩

/-- a row shows from its first place on; everything else stays -/
theorem pixel?_putRow (row : List UInt8) (hx : x + row.length ≤ c.width) (hy : y < c.height) (x' y' : Nat) :
    (c.putRow x y row).pixel? x' y' =
      (if y' = y ∧ x ≤ x' then (row[x' - x]?).map Pixel.black else none).or (c.pixel? x' y') := by
  induction row generalizing c x with
  | nil => simp [putRow]
  | cons alpha rest ih =>
    rw [List.length_cons] at hx
    rw [putRow, ih (c := c.put x y (.black alpha)) (by simp only [put]; omega) hy, pixel?_put (by omega) hy]
    by_cases hrow : y' = y
    · subst hrow
      rcases Nat.lt_trichotomy x' x with hlt | rfl | hgt
      · rw [if_neg (by omega), if_neg (by omega), if_neg (by omega)]
      · rw [if_neg (by omega), if_pos ⟨rfl, rfl⟩, if_pos ⟨rfl, Nat.le_refl _⟩, Nat.sub_self]
        rfl
      · have hstep : x' - x = x' - (x + 1) + 1 := by omega
        rw [if_pos ⟨rfl, hgt⟩, if_neg (by omega), if_pos ⟨rfl, by omega⟩, hstep, List.getElem?_cons_succ]
    · rw [if_neg (fun h => hrow h.1), if_neg (fun h => hrow h.2), if_neg (fun h => hrow h.1)]

theorem pixel?_putRows (rows : List (List UInt8)) (hrows : ∀ row ∈ rows, margin + row.length ≤ c.width)
    (hy : y + rows.length ≤ c.height) (x' y' : Nat) :
    (c.putRows y rows).pixel? x' y' =
      (if y ≤ y' ∧ margin ≤ x' then (rows[y' - y]?).bind fun row => (row[x' - margin]?).map Pixel.black
        else none).or (c.pixel? x' y') := by
  induction rows generalizing c y with
  | nil => simp [putRows]
  | cons row rest ih =>
    rw [List.length_cons] at hy
    obtain ⟨hwidth, hheight⟩ := width_putRow c margin y row
    have hrest : ∀ r ∈ rest, margin + r.length ≤ (c.putRow margin y row).width := fun r hr =>
      hwidth ▸ hrows r (List.mem_cons_of_mem row hr)
    rw [putRows, ih hrest (by omega), pixel?_putRow row (hrows row List.mem_cons_self) (by omega)]
    rcases Nat.lt_trichotomy y' y with hlt | rfl | hgt
    · rw [if_neg (by omega), if_neg (by omega), if_neg (by omega), Option.none_or]
    · rw [if_neg (by omega), Nat.sub_self, List.getElem?_cons_zero, Option.bind_some, Option.none_or]
      simp only [true_and, Nat.le_refl]
    · have hstep : y' - y = y' - (y + 1) + 1 := by omega
      rw [if_neg (by omega : ¬(y' = y ∧ margin ≤ x')), Option.none_or, hstep, List.getElem?_cons_succ]
      simp only [show y + 1 ≤ y' by omega, show y ≤ y' by omega, true_and]

/-! ## Bitmaps -/

/-- **The bitmap shows inside the margins; everything else stays.** -/
theorem pixel?_composite {b : Coverage} (h : c.Fits b) (x y : Nat) :
    (c.composite b).pixel? x y =
      (if margin ≤ x ∧ margin ≤ y then (b.at? (x - margin) (y - margin)).map Pixel.black else none).or
        (c.pixel? x y) := by
  have hfits := h
  obtain ⟨hwidth, hheight⟩ := h
  have hrows : ∀ row ∈ b.rows, margin + row.length ≤ c.width := by
    intro row hrow
    rw [Coverage.length_of_mem_rows hrow]
    omega
  have hlength := b.length_rows
  rw [composite, if_pos hfits, pixel?_putRows b.rows hrows (by omega)]
  by_cases hin : margin ≤ x ∧ margin ≤ y
  · rw [if_pos hin, if_pos ⟨hin.2, hin.1⟩, b.rows_eq, List.getElem?_map]
    by_cases hy : y - margin < b.height
    · rw [List.getElem?_range hy, Option.map_some, Option.bind_some, b.getElem?_row hy]
    · have hat : b.at? (x - margin) (y - margin) = none := dif_neg fun h => hy h.2
      rw [List.getElem?_eq_none (by rw [List.length_range]; omega), hat]
      rfl
  · rw [if_neg hin, if_neg fun h => hin ⟨h.2, h.1⟩]

theorem pixel?_blank {width height : Nat} (h : blank width height = .ok c) (hx : x < c.width) (hy : y < c.height) :
    c.pixel? x y = some (.black 0) := by
  obtain ⟨-, -, -, hbytes⟩ := blank_eq_ok_iff.1 h
  have hget : ∀ i : Nat, (c.bytes[i]?).getD 0 = 0 := by
    intro i
    rw [hbytes, Array.getElem?_replicate]
    split_ifs <;> rfl
  rw [pixel?_of_lt hx hy]
  simp only [hget]
  rfl

/-- a bitmap whose margins take it beyond the sizes has no canvas -/
theorem framing_of_le {b : Coverage} (h : sizeLimit ≤ b.width + 2 * margin ∨ sizeLimit ≤ b.height + 2 * margin) :
    framing b = .error (.overflow b.width b.height) :=
  if_pos h

/-- any other is placed on a clear canvas, if that can be had -/
theorem framing_of_lt {b : Coverage} (hwidth : b.width + 2 * margin < sizeLimit)
    (hheight : b.height + 2 * margin < sizeLimit) :
    framing b = (blank (b.width + 2 * margin) (b.height + 2 * margin)).map (·.composite b) :=
  if_neg (by omega)

theorem exists_blank_of_framing {b : Coverage} (h : framing b = .ok c) :
    b.width + 2 * margin < sizeLimit ∧ b.height + 2 * margin < sizeLimit ∧
      ∃ clear, blank (b.width + 2 * margin) (b.height + 2 * margin) = .ok clear ∧ clear.composite b = c := by
  by_cases hlimit : sizeLimit ≤ b.width + 2 * margin ∨ sizeLimit ≤ b.height + 2 * margin
  · rw [framing_of_le hlimit] at h
    cases h
  · obtain ⟨hwidth, hheight⟩ := not_or.1 hlimit
    rw [framing_of_lt (Nat.not_le.1 hwidth) (Nat.not_le.1 hheight)] at h
    exact ⟨Nat.not_le.1 hwidth, Nat.not_le.1 hheight, map_eq_ok h⟩

/-- **The canvas made for a bitmap**: the bitmap's size with a margin on every side, and everywhere black at the strength
of the coverage. -/
theorem framing_spec {b : Coverage} (h : framing b = .ok c) :
    c.width = b.width + 2 * margin ∧ c.height = b.height + 2 * margin ∧
      ∀ x y, x < c.width → y < c.height → c.pixel? x y = some (.black (b.framed x y)) := by
  obtain ⟨-, -, clear, hblank, rfl⟩ := exists_blank_of_framing h
  obtain ⟨hwidth, hheight⟩ := blank_dims hblank
  have hdims : (clear.composite b).width = clear.width ∧ (clear.composite b).height = clear.height := by
    rw [composite, if_pos (fits_framing hblank)]
    exact width_putRows clear margin b.rows
  refine ⟨hdims.1.trans hwidth, hdims.2.trans hheight, fun x y hx hy => ?_⟩
  rw [pixel?_composite (fits_framing hblank), pixel?_blank hblank (hdims.1 ▸ hx) (hdims.2 ▸ hy), Coverage.framed]
  split_ifs
  · cases b.at? (x - margin) (y - margin) <;> rfl
  · rfl

/-- a frame that takes fewer bytes than an allocator grants can be had -/
theorem exists_framing {b : Coverage}
    (h : byteCount (b.width + 2 * margin) (b.height + 2 * margin) < reserveLimit) : ∃ c, framing b = .ok c := by
  have hlimits := reserveLimit_le_sizeLimit
  have hwidth : b.width + 2 * margin ≤ (b.width + 2 * margin) * (b.height + 2 * margin) :=
    Nat.le_mul_of_pos_right _ (Nat.succ_pos _)
  have hheight : b.height + 2 * margin ≤ (b.width + 2 * margin) * (b.height + 2 * margin) :=
    Nat.le_mul_of_pos_left _ (Nat.succ_pos _)
  have hcount : byteCount (b.width + 2 * margin) (b.height + 2 * margin) =
      4 * ((b.width + 2 * margin) * (b.height + 2 * margin)) := rfl
  rw [framing_of_lt (by omega) (by omega)]
  exact exists_map_eq_ok (exists_blank h)

/-! ## Row-major order -/

theorem map_range_mul {α : Type} (f : Nat → α) (height width : Nat) :
    (List.range (height * width)).map f =
      (List.range height).flatMap fun y => (List.range width).map fun x => f (y * width + x) := by
  induction height with
  | zero => simp
  | succ height ih =>
    rw [Nat.succ_mul, List.range_add, List.map_append, ih, List.range_succ, List.flatMap_append, List.flatMap_singleton,
      List.map_map]
    rfl

/-- **What holds of every place holds of the pixels in row-major order.** -/
theorem pixels_eq {value : Nat → Nat → Pixel}
    (h : ∀ x y, x < c.width → y < c.height → c.pixel? x y = some (value x y)) :
    c.pixels = (List.range c.height).flatMap fun y => (List.range c.width).map fun x => value x y := by
  have hcell : ∀ i : Fin (c.width * c.height), c.pixelAt (4 * i.val) (by rw [c.size_bytes]; omega) =
      value (i.val % c.width) (i.val / c.width) := by
    intro i
    have hwidth : 0 < c.width := Nat.pos_of_mul_pos_right (Nat.lt_of_le_of_lt (Nat.zero_le _) i.isLt)
    have hx := Nat.mod_lt i.val hwidth
    have hy := Nat.div_lt_of_lt_mul i.isLt
    have hvalue := h _ _ hx hy
    rw [pixel?, dif_pos ⟨hx, hy⟩] at hvalue
    have hoffset : c.offset (i.val % c.width) (i.val / c.width) = 4 * i.val := by
      rw [offset, Nat.div_add_mod']
    rw [← Option.some.inj hvalue]
    simp only [hoffset]
  have hpixels : c.pixels = (List.range (c.height * c.width)).map fun i => value (i % c.width) (i / c.width) := by
    rw [pixels, List.map_congr_left fun i _ => hcell i, Nat.mul_comm c.height, ← List.map_coe_finRange_eq_range,
      List.map_map]
    rfl
  rw [hpixels, map_range_mul]
  refine List.flatMap_congr fun y _ => List.map_congr_left fun x hx => ?_
  have hlt := List.mem_range.1 hx
  rw [Nat.mul_add_mod_of_lt hlt, Nat.mul_comm, Nat.mul_add_div (by omega), Nat.div_eq_of_lt hlt, Nat.add_zero]

/-- in blocks of one length, an element is found by the number of its block and its place there -/
theorem getElem?_flatMap_blocks {α β : Type} {f : α → List β} {size : Nat} (hsize : ∀ a, (f a).length = size)
    (l : List α) (i : Nat) {k : Nat} (hk : k < size) :
    (l.flatMap f)[size * i + k]? = (l[i]?).bind fun a => (f a)[k]? := by
  induction l generalizing i with
  | nil => simp
  | cons a l ih =>
    rw [List.flatMap_cons]
    cases i with
    | zero =>
      rw [Nat.mul_zero, Nat.zero_add, List.getElem?_append_left (by rw [hsize]; exact hk)]
      rfl
    | succ i =>
      have hlater : size * (i + 1) + k - (f a).length = size * i + k := by
        rw [hsize, Nat.mul_succ]
        omega
      rw [List.getElem?_append_right (by rw [hsize, Nat.mul_succ]; omega), hlater, ih]
      rfl

/-- a pixel stands at its place in row-major order -/
theorem getElem?_pixels (hx : x < c.width) (hy : y < c.height) :
    c.pixels[y * c.width + x]? = c.pixel? x y := by
  have hlength : y * c.width + x < (List.finRange (c.width * c.height)).length := by
    rw [List.length_finRange]
    exact cell_lt hx hy
  rw [pixels, List.getElem?_map, List.getElem?_eq_getElem hlength, List.getElem_finRange, pixel?,
    dif_pos ⟨hx, hy⟩]
  rfl

end Canvas

end GlyphImage
