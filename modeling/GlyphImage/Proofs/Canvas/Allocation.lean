/-
Canvas sizes near the limits. A canvas is asked for by two products, each of which may be too large, and a reservation,
which may be refused; `Canvas.allocate` takes these steps one by one. Counting the pixels first makes no difference
(`Canvas.byteCount?_eq`), so the one product of the bytes decides what comes out (`Canvas.allocate_eq`). A bitmap's canvas
meets a fourth limit before these: its margins may be too much for a size. `canvas_requests_are_classified` puts the
limits together, for canvases of any size and for bitmaps of any size.
-/
import GlyphImage.Proofs.Canvas.Compositing

namespace GlyphImage.Canvas

variable {width height : Nat}

/-! ## Step by step -/

/-- the bytes that a canvas takes, if the number of its pixels is a size and then their own number -/
def byteCount? (width height : Nat) : Option Nat := do
  let cells ← size? (width * height)
  size? (cells * 4)

/-- **Too many pixels take too many bytes**, so only the bytes count. -/
theorem byteCount?_eq (width height : Nat) : byteCount? width height = size? (byteCount width height) := by
  have hcount : width * height * 4 = byteCount width height := Nat.mul_comm _ _
  rcases Nat.lt_or_ge (width * height) sizeLimit with hcells | hcells
  · simp [byteCount?, size?_of_lt hcells, hcount]
  · have htotal : sizeLimit ≤ byteCount width height := by
      rw [← hcount]
      omega
    simp [byteCount?, size?_of_le hcells, size?_of_le htotal]

theorem eq_of_byteCount? {count : Nat} (h : byteCount? width height = some count) :
    count = byteCount width height ∧ byteCount width height < sizeLimit := by
  rw [byteCount?_eq, size?] at h
  split_ifs at h with hlimit
  exact ⟨(Option.some.inj h).symm, hlimit⟩

/-- a clear canvas whose bytes are counted, then reserved, and then set -/
def allocate (width height : Nat) : Except AllocationError Canvas :=
  match h : byteCount? width height with
  | none => .error (.overflow width height)
  | some count =>
    if reserveLimit ≤ count then .error .reserve
    else .ok ⟨width, height, Array.replicate count 0, Array.size_replicate.trans (eq_of_byteCount? h).1⟩

/-- **Step by step the same canvas is had**, and the same fault is met. -/
theorem allocate_eq (width height : Nat) : allocate width height = blank width height := by
  unfold allocate blank
  split
  · rename_i hnone
    rw [byteCount?_eq] at hnone
    rcases Nat.lt_or_ge (byteCount width height) sizeLimit with hlimit | hlimit
    · rw [size?_of_lt hlimit] at hnone
      cases hnone
    · rw [if_pos hlimit]
  · rename_i count hsome
    obtain ⟨rfl, hlimit⟩ := eq_of_byteCount? hsome
    rw [if_neg (Nat.not_le.2 hlimit)]

/-! ## Limits -/

theorem sizeLimit_eq : sizeLimit = 2 ^ 64 := rfl

theorem reserveLimit_eq : reserveLimit = 2 ^ 63 := rfl

theorem byteCount_eq (width height : Nat) : byteCount width height = 4 * width * height :=
  (Nat.mul_assoc 4 width height).symm

/-- **Every request is classified.** The bytes of a canvas decide alone: from 2^64 on the request overflows, from 2^63 on
it is refused, and below it gives a canvas of the asked dimensions with this many zeros, on which the place of every
pixel is counted without going beyond the sizes and has its four bytes. Taken step by step, each product checked, the
request ends in the same way. For a bitmap the margins come first: they overflow, with the bitmap's own dimensions, just
if they are too much for a size; otherwise the request is the one of the padded dimensions and fails as it does. On the
canvas that it gives the bitmap fits, and no step of placing it there fails. -/
theorem canvas_requests_are_classified :
    (∀ width height : Nat,
      (∀ e, blank width height = .error e ↔
        (2 ^ 64 ≤ 4 * width * height ∧ e = .overflow width height) ∨
        (2 ^ 63 ≤ 4 * width * height ∧ 4 * width * height < 2 ^ 64 ∧ e = .reserve)) ∧
      (4 * width * height < 2 ^ 63 ↔ ∃ c, blank width height = .ok c ∧ c.width = width ∧ c.height = height ∧
        c.bytes = Array.replicate (4 * width * height) 0 ∧
        ∀ x y, x < width → y < height →
          c.offset? x y = some (c.offset x y) ∧ c.offset x y + 4 ≤ c.bytes.size) ∧
      allocate width height = blank width height) ∧
    ∀ b : Coverage,
      (framing b = .error (.overflow b.width b.height) ↔ 2 ^ 64 ≤ b.width + 10 ∨ 2 ^ 64 ≤ b.height + 10) ∧
      (b.width + 10 < 2 ^ 64 → b.height + 10 < 2 ^ 64 →
        (∀ e, framing b = .error e ↔ blank (b.width + 10) (b.height + 10) = .error e) ∧
        ∀ clear, blank (b.width + 10) (b.height + 10) = .ok clear →
          clear.Fits b ∧ clear.composite? b = some (clear.composite b) ∧ framing b = .ok (clear.composite b)) := by
  constructor
  · intro width height
    rw [← byteCount_eq, ← reserveLimit_eq, ← sizeLimit_eq]
    refine ⟨fun e => blank_eq_error_iff, ⟨fun hgranted => ?_, ?_⟩, allocate_eq width height⟩
    · obtain ⟨c, hc⟩ := exists_blank hgranted
      obtain ⟨-, rfl, rfl, hbytes⟩ := blank_eq_ok_iff.1 hc
      exact ⟨c, hc, rfl, rfl, hbytes, fun x y hx hy =>
        ⟨offset?_eq (countable_of_blank hc) hx hy, c.offset_add_four_le hx hy⟩⟩
    · rintro ⟨c, hc, -⟩
      exact (blank_eq_ok_iff.1 hc).1
  · intro b
    rw [← sizeLimit_eq]
    have hcourse : b.width + 10 < sizeLimit → b.height + 10 < sizeLimit →
        framing b = (blank (b.width + 10) (b.height + 10)).map (·.composite b) := framing_of_lt
    refine ⟨⟨fun h => ?_, framing_of_le⟩, fun hwidth hheight => ⟨fun e => ?_, fun clear hclear =>
      ⟨fits_framing hclear, ?_, ?_⟩⟩⟩
    · by_contra hlimit
      rw [hcourse (by omega) (by omega), map_eq_error_iff] at h
      -- a clear canvas that overflows names the padded dimensions
      rcases blank_eq_error_iff.1 h with ⟨-, he⟩ | ⟨-, -, he⟩
      · have hdims := (AllocationError.overflow.inj he).1
        omega
      · cases he
    · rw [hcourse hwidth hheight, map_eq_error_iff]
    · exact composite?_blank hwidth hheight hclear
    · rw [hcourse hwidth hheight, hclear]
      rfl

/-- requests on both sides of each limit: one row of pixels, no rows at all, and bitmaps without a pixel whose margins
are too much for a size, for the bytes, or for the allocator -/
theorem canvas_requests_are_classified_at_limits :
    blank (2 ^ 62) 1 = .error (.overflow (2 ^ 62) 1) ∧ blank (2 ^ 62 - 1) 1 = .error .reserve ∧
    blank (2 ^ 61) 1 = .error .reserve ∧
    (∃ c, blank (2 ^ 61 - 1) 1 = .ok c ∧ c.offset? (2 ^ 61 - 2) 0 = some (2 ^ 63 - 8)) ∧
    (∃ c, blank (2 ^ 64 - 1) 0 = .ok c ∧ c.bytes.size = 0) ∧
    ∃ tall taller tallest, Coverage.ofBuffer? 0 (2 ^ 58) 0 #[] = some tall ∧
      Coverage.ofBuffer? 0 (2 ^ 64 - 11) 0 #[] = some taller ∧ Coverage.ofBuffer? 0 (2 ^ 64 - 10) 0 #[] = some tallest ∧
      framing tall = .error .reserve ∧ framing taller = .error (.overflow 10 (2 ^ 64 - 1)) ∧
      framing tallest = .error (.overflow 0 (2 ^ 64 - 10)) := by
  obtain ⟨hblank, hframing⟩ := canvas_requests_are_classified
  refine ⟨?_, ?_, ?_, ?_, ?_, ⟨0, 2 ^ 58, 0, #[], by decide, by decide⟩, ⟨0, 2 ^ 64 - 11, 0, #[], by decide, by decide⟩,
    ⟨0, 2 ^ 64 - 10, 0, #[], by decide, by decide⟩, by decide, by decide, by decide, ?_, ?_, ?_⟩
  · exact ((hblank _ _).1 _).2 (Or.inl ⟨by decide, rfl⟩)
  · exact ((hblank _ _).1 _).2 (Or.inr ⟨by decide, by decide, rfl⟩)
  · exact ((hblank _ _).1 _).2 (Or.inr ⟨by decide, by decide, rfl⟩)
  · obtain ⟨c, hc, hwidth, -, -, hplace⟩ := (hblank (2 ^ 61 - 1) 1).2.1.1 (by decide)
    obtain ⟨hoffset, -⟩ := hplace (2 ^ 61 - 2) 0 (by decide) (by decide)
    rw [offset, Nat.zero_mul] at hoffset
    exact ⟨c, hc, hoffset⟩
  · obtain ⟨c, hc, -, -, hbytes, -⟩ := (hblank (2 ^ 64 - 1) 0).2.1.1 (by decide)
    refine ⟨c, hc, ?_⟩
    rw [hbytes, Array.size_replicate, Nat.mul_zero]
  · obtain ⟨herror, -⟩ := (hframing ⟨0, 2 ^ 58, 0, #[], by decide, by decide⟩).2 (by decide) (by decide)
    exact (herror _).2 (((hblank _ _).1 _).2 (Or.inr ⟨by decide, by decide, rfl⟩))
  · obtain ⟨herror, -⟩ := (hframing ⟨0, 2 ^ 64 - 11, 0, #[], by decide, by decide⟩).2 (by decide) (by decide)
    exact (herror _).2 (((hblank _ _).1 _).2 (Or.inl ⟨by decide, rfl⟩))
  · exact (hframing ⟨0, 2 ^ 64 - 10, 0, #[], by decide, by decide⟩).1.2 (Or.inr (by decide))

end GlyphImage.Canvas
