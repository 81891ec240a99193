/-
Bits and coverage. Expanding a glyph looks its pixels up one by one, and it succeeds just if the bitmap has a bit for each
of them (`Glyph.coverage_eq`); room for the bytes is never refused. What comes out is the bitmap's bits in order, row by
row (`Glyph.flatten_rows_of_coverage`). `coverage_unpacks_bits`: so packing undoes expanding and expanding undoes packing,
whatever the bits and bytes behind the last pixel are.
-/
import GlyphImage.Proofs.Bytes.Bits
import GlyphImage.Proofs.Canvas
import GlyphImage.Proofs.Results
import GlyphImage.Pff2.Glyph

namespace GlyphImage.Pff2.Glyph

/-! ## Single bits -/

variable {g : Glyph}

/-- as many bytes as have a bit for every pixel, and no more -/
theorem byteCount_le_iff {width height n : Nat} : byteCount width height ≤ n ↔ width * height ≤ 8 * n := by
  unfold byteCount
  omega

theorem bit?_eq_getElem?_toBits (g : Glyph) (i : Nat) : g.bit? i = (Bytes.toBits g.bitmap.toList)[i]? := by
  rw [bit?, Bytes.getElem?_toBits, Array.getElem?_toList]

theorem bit?_eq_none_iff {i : Nat} : g.bit? i = none ↔ 8 * g.bitmap.size ≤ i := by
  rw [bit?_eq_getElem?_toBits, List.getElem?_eq_none_iff, Bytes.length_toBits, Array.length_toList]

theorem exists_bit? {i : Nat} (h : i < 8 * g.bitmap.size) : ∃ filled, g.bit? i = some filled := by
  refine Option.ne_none_iff_exists'.1 fun hnone => ?_
  exact absurd (bit?_eq_none_iff.1 hnone) (Nat.not_le.2 h)

theorem pixel?_of_lt {x y : Nat} (hx : x < g.width.toNat) (hy : y < g.height.toNat) :
    g.pixel? x y = g.bit? (y * g.width.toNat + x) :=
  if_pos ⟨hx, hy⟩

theorem pixel?_outside {x y : Nat} (h : ¬(x < g.width.toNat ∧ y < g.height.toNat)) : g.pixel? x y = none :=
  if_neg h

/-! ## Expanding -/

theorem coverageBytes?_of_le (h : g.width.toNat * g.height.toNat ≤ 8 * g.bitmap.size) :
    g.coverageBytes? =
      some ((List.range (g.height.toNat * g.width.toNat)).map fun i => coverageOf (g.bit? i)).toArray := by
  have hrow : ∀ y ∈ List.range g.height.toNat, g.rowCoverage? y =
      some ((List.range g.width.toNat).map fun x => coverageOf (g.bit? (y * g.width.toNat + x))) := by
    intro y hy
    refine mapM_eq_some_map fun x hx => ?_
    rw [List.mem_range] at hx hy
    obtain ⟨filled, hfilled⟩ := exists_bit? (Nat.lt_of_lt_of_le (Canvas.cell_lt hx hy) h)
    rw [pixel?_of_lt hx hy, hfilled, Option.map_some]
  rw [coverageBytes?, mapM_eq_some_map hrow, Canvas.map_range_mul, List.flatMap_def]
  rfl

theorem coverageBytes?_of_lt (h : 8 * g.bitmap.size < g.width.toNat * g.height.toNat) : g.coverageBytes? = none := by
  -- the last pixel is the one to look at
  have hpixels : 0 < g.width.toNat * g.height.toNat := by omega
  have hwidth := Nat.pos_of_mul_pos_right hpixels
  have hheight := Nat.pos_of_mul_pos_left hpixels
  have hlast : (g.height.toNat - 1) * g.width.toNat + (g.width.toNat - 1) = g.width.toNat * g.height.toNat - 1 := by
    have hrow := Nat.sub_one_mul g.height.toNat g.width.toNat
    have hle := Nat.le_mul_of_pos_left g.width.toNat hheight
    rw [Nat.mul_comm g.width.toNat]
    omega
  have hmissing : g.pixel? (g.width.toNat - 1) (g.height.toNat - 1) = none := by
    rw [pixel?_of_lt (by omega) (by omega), hlast, bit?_eq_none_iff]
    omega
  have hrow : g.rowCoverage? (g.height.toNat - 1) = none :=
    mapM_eq_none (a := g.width.toNat - 1) (List.mem_range.2 (by omega)) (by rw [hmissing, Option.map_none])
  rw [coverageBytes?, mapM_eq_none (List.mem_range.2 (by omega)) hrow, Option.map_none]

/-- a bitmap of one byte for each pixel of a glyph takes less than any allocator refuses -/
theorem pixels_lt_reserveLimit (g : Glyph) : g.width.toNat * g.height.toNat < reserveLimit := by
  have hwidth := g.width.toNat_lt
  have hheight := g.height.toNat_lt
  have harea : g.width.toNat * g.height.toNat ≤ 65535 * 65535 := Nat.mul_le_mul (by omega) (by omega)
  exact Nat.lt_of_le_of_lt harea (by decide)

/-- **Expanding succeeds just if the bitmap is long enough**, and gives every pixel its bit's coverage. -/
theorem coverage_eq (g : Glyph) :
    g.coverage =
      if byteCount g.width.toNat g.height.toNat ≤ g.bitmap.size then
        .ok (Coverage.tabulate g.width.toNat g.height.toNat fun i => coverageOf (g.bit? i))
      else .error (.malformedBitmap g.width.toNat g.height.toNat g.bitmap.size) := by
  have hreserve := g.pixels_lt_reserveLimit
  have hlimit : 2 * reserveLimit = sizeLimit := rfl
  have hcount : byteCount g.width.toNat g.height.toNat ≤ g.bitmap.size ↔ _ := byteCount_le_iff
  unfold coverage
  simp only [if_neg (by omega : ¬sizeLimit ≤ g.width.toNat * g.height.toNat), if_neg (Nat.not_le.2 hreserve)]
  by_cases hlong : g.width.toNat * g.height.toNat ≤ 8 * g.bitmap.size
  · have hbuffer : ((List.range (g.height.toNat * g.width.toNat)).map fun i => coverageOf (g.bit? i)).toArray =
        Array.ofFn fun i : Fin (g.height.toNat * g.width.toNat) => coverageOf (g.bit? i.val) := by
      rw [← Array.toList_inj, Array.toList_ofFn, List.ofFn_eq_map, ← List.map_coe_finRange_eq_range, List.map_map]
      rfl
    have haccepted : Coverage.ofBuffer? g.width.toNat g.height.toNat g.width.toNat
        (Array.ofFn fun i : Fin (g.height.toNat * g.width.toNat) => coverageOf (g.bit? i.val)) =
          some (Coverage.tabulate g.width.toNat g.height.toNat fun i => coverageOf (g.bit? i)) := by
      refine dif_pos ⟨Nat.le_refl _, ?_, Coverage.extent_tabulate _ _ fun i => coverageOf (g.bit? i)⟩
      rw [Nat.mul_comm]
      omega
    rw [if_pos (hcount.2 hlong), coverageBytes?_of_le hlong, Option.bind_some, hbuffer, haccepted]
  · rw [if_neg fun h => hlong (hcount.1 h), coverageBytes?_of_lt (Nat.not_le.1 hlong), Option.bind_none]

theorem coverage_eq_ok_iff {b : Coverage} :
    g.coverage = .ok b ↔ byteCount g.width.toNat g.height.toNat ≤ g.bitmap.size ∧
      b = Coverage.tabulate g.width.toNat g.height.toNat fun i => coverageOf (g.bit? i) := by
  rw [coverage_eq]
  split_ifs with hlong
  · simp [hlong, eq_comm]
  · simp [hlong]

/-! ## Packing -/

/-- the coverage of a bit -/
def shade (filled : Bool) : UInt8 := if filled then 255 else 0

theorem shade_eq_full_iff (filled : Bool) : decide (shade filled = 255) = filled := by
  cases filled <;> rfl

theorem coverageOf_some (filled : Bool) : coverageOf (some filled) = shade filled := by
  cases filled <;> rfl

theorem rows_tabulate (width height : Nat) (value : Nat → UInt8) :
    (Coverage.tabulate width height value).rows =
      (List.range height).map fun y => (List.range width).map fun x => value (y * width + x) := by
  rw [Coverage.rows_eq]
  refine List.map_congr_left fun y hy => List.ext_getElem? fun x => ?_
  rw [List.mem_range] at hy
  rw [Coverage.getElem?_row _ hy, Coverage.at?_tabulate, List.getElem?_map]
  by_cases hx : x < width
  · rw [if_pos ⟨hx, hy⟩, List.getElem?_range hx, Option.map_some]
  · rw [if_neg fun h => hx h.1, List.getElem?_eq_none (by rwa [List.length_range, ← Nat.not_lt]), Option.map_none]

theorem flatten_rows_tabulate (width height : Nat) (value : Nat → UInt8) :
    (Coverage.tabulate width height value).rows.flatten = (List.range (height * width)).map value := by
  rw [rows_tabulate, Canvas.map_range_mul value, List.flatMap_def]

/-- **The rows of the coverage, put together, are the shades of the first bits** of the bitmap. -/
theorem flatten_rows_of_coverage {b : Coverage} (h : g.coverage = .ok b) :
    b.rows.flatten = ((Bytes.toBits g.bitmap.toList).take (g.width.toNat * g.height.toNat)).map shade := by
  obtain ⟨hlong, rfl⟩ := coverage_eq_ok_iff.1 h
  have hbits : ∀ i < g.height.toNat * g.width.toNat, i < 8 * g.bitmap.size := fun i hi =>
    Nat.lt_of_lt_of_le hi (Nat.mul_comm g.height.toNat _ ▸ byteCount_le_iff.1 hlong)
  rw [flatten_rows_tabulate, Nat.mul_comm g.width.toNat]
  refine List.ext_getElem? fun i => ?_
  rw [List.getElem?_map, List.getElem?_map, List.getElem?_take]
  by_cases hi : i < g.height.toNat * g.width.toNat
  · obtain ⟨filled, hfilled⟩ := exists_bit? (hbits i hi)
    rw [List.getElem?_range hi, if_pos hi, ← bit?_eq_getElem?_toBits, hfilled, Option.map_some, Option.map_some, hfilled,
      coverageOf_some]
  · rw [List.getElem?_eq_none (by rwa [List.length_range, ← Nat.not_lt]), if_neg hi]
    rfl

/-- the bits of the coverage are the first bits of the bitmap -/
theorem bits_of_coverage {b : Coverage} (h : g.coverage = .ok b) :
    (b.rows.flatten.map fun value => decide (value = 255)) =
      (Bytes.toBits g.bitmap.toList).take (g.width.toNat * g.height.toNat) := by
  rw [flatten_rows_of_coverage h, List.map_map]
  exact (List.map_congr_left fun filled _ => shade_eq_full_iff filled).trans (List.map_id _)

theorem map_length_eq_replicate {α : Type} {rows : List (List α)} {width height : Nat} (hrows : rows.length = height)
    (hcolumns : ∀ row ∈ rows, row.length = width) : rows.map List.length = List.replicate height width := by
  rw [List.map_congr_left hcolumns, List.map_const', hrows]

/-- **A matrix of bits is what its packed form expands to**, whatever stands behind its bits. -/
theorem exists_coverage_of_prefix {matrix : List (List Bool)} (hrows : matrix.length = g.height.toNat)
    (hcolumns : ∀ row ∈ matrix, row.length = g.width.toNat)
    (hbits : matrix.flatten <+: Bytes.toBits g.bitmap.toList) :
    ∃ b, g.coverage = .ok b ∧ b.rows = matrix.map (·.map shade) := by
  have hlength : matrix.flatten.length = g.width.toNat * g.height.toNat := by
    rw [List.length_flatten, map_length_eq_replicate hrows hcolumns, List.sum_replicate, smul_eq_mul, Nat.mul_comm]
  have hlong : byteCount g.width.toNat g.height.toNat ≤ g.bitmap.size := by
    have hle := hbits.length_le
    rw [hlength, Bytes.length_toBits, Array.length_toList] at hle
    exact byteCount_le_iff.2 hle
  have hcoverage := coverage_eq_ok_iff.2 ⟨hlong, rfl⟩
  refine ⟨_, hcoverage, List.eq_iff_flatten_eq.2 ⟨?_, ?_⟩⟩
  · rw [flatten_rows_of_coverage hcoverage, ← hlength, ← List.prefix_iff_eq_take.1 hbits, List.map_flatten]
  · have hshades : ∀ row ∈ matrix.map (·.map shade), row.length = g.width.toNat := by
      intro row hrow
      obtain ⟨bits, hmember, rfl⟩ := List.mem_map.1 hrow
      rw [List.length_map, hcolumns bits hmember]
    exact (map_length_eq_replicate (Coverage.length_rows _) fun row hrow => Coverage.length_of_mem_rows hrow).trans
      (map_length_eq_replicate (by rw [List.length_map, hrows]; rfl) hshades).symm

/-- **Expanding and packing undo each other.** A glyph of any fields is expanded just if its bitmap has the bytes that its
size asks for, which are as many as hold a bit for each pixel; otherwise it is malformed, and no other error arises. The
coverage has the glyph's size and no padding, every pixel inside is full or clear as its bit says, and outside there are
no pixels. Packing the coverage gives the first bits of the bitmap back. The other way round, a packed matrix of bits
expands to this matrix, whatever bits fill its last byte up and whatever bytes follow. -/
theorem coverage_unpacks_bits (g : Glyph) :
    (∀ n, byteCount g.width.toNat g.height.toNat ≤ n ↔ g.width.toNat * g.height.toNat ≤ 8 * n) ∧
    ((∃ b, g.coverage = .ok b) ↔ byteCount g.width.toNat g.height.toNat ≤ g.bitmap.size) ∧
    (∀ e, g.coverage = .error e ↔ g.bitmap.size < byteCount g.width.toNat g.height.toNat ∧
      e = .malformedBitmap g.width.toNat g.height.toNat g.bitmap.size) ∧
    (∀ x y, g.width.toNat ≤ x ∨ g.height.toNat ≤ y → g.pixel? x y = none) ∧
    (∀ b, g.coverage = .ok b →
      b.width = g.width.toNat ∧ b.height = g.height.toNat ∧ b.pitch = g.width.toNat ∧
      (∀ x y, x < g.width.toNat → y < g.height.toNat →
        ∃ filled, g.pixel? x y = some filled ∧ b.at? x y = some (if filled then 255 else 0)) ∧
      ∃ packed, packed = Bytes.ofBits (b.rows.flatten.map fun value => decide (value = 255)) ∧
        packed.length = byteCount g.width.toNat g.height.toNat ∧
        (Bytes.toBits packed).take (g.width.toNat * g.height.toNat) =
          (Bytes.toBits g.bitmap.toList).take (g.width.toNat * g.height.toNat)) ∧
    ∀ (matrix : List (List Bool)) (filling : List Bool) (further : List UInt8), matrix.length = g.height.toNat →
      (∀ row ∈ matrix, row.length = g.width.toNat) →
      g.bitmap.toList = Bytes.ofBits (matrix.flatten ++ filling) ++ further →
      ∃ b, g.coverage = .ok b ∧ b.rows = matrix.map (·.map fun filled => if filled then 255 else 0) := by
  refine ⟨fun n => byteCount_le_iff, ?_, ?_, ?_, ?_, ?_⟩
  · simp only [coverage_eq_ok_iff, exists_and_left, exists_eq, and_true]
  · intro e
    rw [coverage_eq, ← Nat.not_le]
    split_ifs with hlong
    · simp [hlong]
    · simp [hlong, eq_comm]
  · intro x y houtside
    apply pixel?_outside
    omega
  · intro b hb
    have hbits := bits_of_coverage hb
    obtain ⟨hlong, htabulate⟩ := coverage_eq_ok_iff.1 hb
    have henough := byteCount_le_iff.1 hlong
    have hlength : ((Bytes.toBits g.bitmap.toList).take (g.width.toNat * g.height.toNat)).length =
        g.width.toNat * g.height.toNat :=
      List.length_take_of_le (by rwa [Bytes.length_toBits, Array.length_toList])
    refine ⟨by rw [htabulate]; rfl, by rw [htabulate]; rfl, by rw [htabulate]; rfl, ?_, _, rfl, ?_, ?_⟩
    · intro x y hx hy
      obtain ⟨filled, hfilled⟩ := exists_bit? (Nat.lt_of_lt_of_le (Canvas.cell_lt hx hy) henough)
      refine ⟨filled, (pixel?_of_lt hx hy).trans hfilled, ?_⟩
      rw [htabulate, Coverage.at?_tabulate, if_pos ⟨hx, hy⟩, hfilled, coverageOf_some, shade]
    · rw [hbits, Bytes.length_ofBits, hlength, byteCount]
    · rw [hbits, Bytes.toBits_ofBits]
      exact List.take_left' hlength
  · intro matrix filling further hrows hcolumns hpacked
    apply exists_coverage_of_prefix hrows hcolumns
    rw [hpacked]
    exact Bytes.prefix_toBits_ofBits _ _ _

/-- three rows of three pixels in two bytes: the rows are not aligned, and neither the bits after the ninth nor a third
byte matter; with one byte alone the last pixel is missing -/
theorem coverage_unpacks_bits_unaligned :
    let matrix := [[true, false, true], [false, false, true], [false, false, false]]
    let g : Glyph := ⟨88, 3, 3, 0, 0, 0, #[0xA4, 0x7F, 9]⟩
    matrix.length = g.height.toNat ∧ (∀ row ∈ matrix, row.length = g.width.toNat) ∧
    g.bitmap.toList = Bytes.ofBits (matrix.flatten ++ List.replicate 7 true) ++ [9] ∧
    (∃ b, g.coverage = .ok b ∧ b.rows = [[255, 0, 255], [0, 0, 255], [0, 0, 0]] ∧
      ∃ filled, g.pixel? 2 1 = some filled ∧ b.at? 2 1 = some (if filled then 255 else 0)) ∧
    g.pixel? 3 0 = none ∧
    (⟨88, 3, 3, 0, 0, 0, #[0xA4]⟩ : Glyph).coverage = .error (.malformedBitmap 3 3 1) := by
  intro matrix g
  have hrows : matrix.length = g.height.toNat := by decide
  have hcolumns : ∀ row ∈ matrix, row.length = g.width.toNat := by decide
  have hpacked : g.bitmap.toList = Bytes.ofBits (matrix.flatten ++ List.replicate 7 true) ++ [9] := by decide +kernel
  obtain ⟨-, -, -, houtside, hinside, hmatrix⟩ := coverage_unpacks_bits g
  obtain ⟨-, -, hshort, -⟩ := coverage_unpacks_bits ⟨88, 3, 3, 0, 0, 0, #[0xA4]⟩
  obtain ⟨b, hb, hshown⟩ := hmatrix matrix (List.replicate 7 true) [9] hrows hcolumns hpacked
  obtain ⟨-, -, -, hpixel, -⟩ := hinside b hb
  exact ⟨hrows, hcolumns, hpacked, ⟨b, hb, hshown, hpixel 2 1 (by decide) (by decide)⟩,
    houtside 3 0 (Or.inl (by decide)), (hshort _).2 ⟨by decide, rfl⟩⟩

end GlyphImage.Pff2.Glyph
