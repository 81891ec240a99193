/-
The canvas a glyph is placed on: red, green, blue and alpha bytes in row-major order, clear black at first.
`Canvas.blank` refuses a size that no memory could hold, and says whether the byte count itself is out of range or only
the reservation. `Canvas.framing` places a coverage bitmap in the middle of a canvas that leaves `margin` pixels free on
every side; `fits_framing` says that the bitmap always fits there, and `offset_add_four_le` that no pixel of a canvas
lies outside its bytes.
-/
import GlyphImage.Coverage

namespace GlyphImage

/-! ## Allocation -/

/-- why a canvas of a given size cannot be had -/
inductive AllocationError where
  /-- the byte count exceeds every size -/
  | overflow (width height : Nat)
  /-- the byte count is a size, but no allocator grants it -/
  | reserve
  deriving DecidableEq, Repr

namespace AllocationError

/-- what the allocator says when asked for too much -/
def reserveText : String :=
  "memory allocation failed because the computed capacity exceeded the collection's maximum"

/-- the error in words -/
def message : AllocationError → String
  | overflow width height => s!"Canvas of {width}x{height} pixels does not fit in memory"
  | reserve => "Failed to allocate canvas: " ++ reserveText

/-- the causes below the error, outermost first -/
def causes : AllocationError → List String
  | overflow _ _ => []
  | reserve => [reserveText]

end AllocationError

/-- an allocator grants fewer bytes than this -/
def reserveLimit : Nat := sizeLimit / 2

/-! ## Canvas -/

/-- the four channels of a pixel -/
structure Pixel where
  red : UInt8
  green : UInt8
  blue : UInt8
  alpha : UInt8
  deriving DecidableEq, Repr

namespace Pixel

/-- black at the given strength -/
def black (alpha : UInt8) : Pixel := ⟨0, 0, 0, alpha⟩

end Pixel

/-- a rectangle of pixels, four bytes each -/
structure Canvas where
  width : Nat
  height : Nat
  bytes : Array UInt8
  size_bytes : bytes.size = 4 * (width * height)
  deriving DecidableEq, Repr

namespace Canvas

/-- the number of free pixels around a glyph on every side -/
def margin : Nat := 5

/-- the bytes that a canvas of this size takes -/
def byteCount (width height : Nat) : Nat := 4 * (width * height)

/-- a clear canvas -/
def blank (width height : Nat) : Except AllocationError Canvas :=
  if sizeLimit ≤ byteCount width height then .error (.overflow width height)
  else if reserveLimit ≤ byteCount width height then .error .reserve
  else .ok ⟨width, height, Array.replicate (byteCount width height) 0, Array.size_replicate⟩

/-- where the bytes of a pixel start -/
def offset (c : Canvas) (x y : Nat) : Nat := 4 * (y * c.width + x)

/-- the four bytes of a pixel of the canvas lie inside its bytes -/
theorem offset_add_four_le (c : Canvas) {x y : Nat} (hx : x < c.width) (hy : y < c.height) :
    c.offset x y + 4 ≤ c.bytes.size := by
  have h : (y + 1) * c.width ≤ c.height * c.width := Nat.mul_le_mul_right _ hy
  rw [Nat.succ_mul, Nat.mul_comm c.height] at h
  rw [c.size_bytes, offset]
  omega

/-- the pixel whose bytes start at `start` -/
def pixelAt (c : Canvas) (start : Nat) (h : start + 4 ≤ c.bytes.size) : Pixel :=
  ⟨c.bytes[start], c.bytes[start + 1], c.bytes[start + 2], c.bytes[start + 3]⟩

/-- a pixel, if it is on the canvas -/
def pixel? (c : Canvas) (x y : Nat) : Option Pixel :=
  if h : x < c.width ∧ y < c.height then some (c.pixelAt (c.offset x y) (c.offset_add_four_le h.1 h.2)) else none

/-- replaces a pixel of the canvas -/
def put (c : Canvas) (x y : Nat) (p : Pixel) : Canvas :=
  { c with
    bytes := (((c.bytes.setIfInBounds (c.offset x y) p.red).setIfInBounds (c.offset x y + 1) p.green).setIfInBounds
      (c.offset x y + 2) p.blue).setIfInBounds (c.offset x y + 3) p.alpha
    size_bytes := by simp [c.size_bytes] }

/-- the bitmap and its margins fit on the canvas -/
def Fits (c : Canvas) (b : Coverage) : Prop := b.width + 2 * margin ≤ c.width ∧ b.height + 2 * margin ≤ c.height

instance (c : Canvas) (b : Coverage) : Decidable (c.Fits b) := inferInstanceAs (Decidable (_ ∧ _))

/-- puts one row of coverage, as the strength of black, from `(x, y)` on -/
def putRow (c : Canvas) (x y : Nat) : List UInt8 → Canvas
  | [] => c
  | alpha :: rest => (c.put x y (.black alpha)).putRow (x + 1) y rest

/-- puts rows of coverage below each other, the first at height `y` -/
def putRows (c : Canvas) (y : Nat) : List (List UInt8) → Canvas
  | [] => c
  | row :: rest => (c.putRow margin y row).putRows (y + 1) rest

/-- places the bitmap inside the margins; a canvas that is too small stays as it is -/
def composite (c : Canvas) (b : Coverage) : Canvas := if c.Fits b then c.putRows margin b.rows else c

/-- the canvas that frames the bitmap with its margins -/
def framing (b : Coverage) : Except AllocationError Canvas :=
  if sizeLimit ≤ b.width + 2 * margin ∨ sizeLimit ≤ b.height + 2 * margin then .error (.overflow b.width b.height)
  else (blank (b.width + 2 * margin) (b.height + 2 * margin)).map (·.composite b)

/-- all pixels in row-major order -/
def pixels (c : Canvas) : List Pixel :=
  (List.finRange (c.width * c.height)).map fun i => c.pixelAt (4 * i.val) (by rw [c.size_bytes]; omega)

/-! ## Laws -/

/-- what an allocator grants is a size -/
theorem reserveLimit_le_sizeLimit : reserveLimit ≤ sizeLimit := Nat.div_le_self _ _

/-- **A clear canvas is had** just if an allocator grants its bytes. -/
theorem blank_eq_ok_iff {width height : Nat} {c : Canvas} :
    blank width height = .ok c ↔ byteCount width height < reserveLimit ∧ c.width = width ∧ c.height = height ∧
      c.bytes = Array.replicate (byteCount width height) 0 := by
  have hlimits := reserveLimit_le_sizeLimit
  unfold blank
  constructor
  · intro h
    split at h
    · cases h
    · split at h
      · cases h
      · rename_i hreserve
        cases h
        exact ⟨Nat.not_le.1 hreserve, rfl, rfl, rfl⟩
  · obtain ⟨width', height', bytes, hsize⟩ := c
    rintro ⟨hgranted, hwidth, hheight, hbytes⟩
    dsimp only at hwidth hheight hbytes
    subst hwidth hheight hbytes
    rw [if_neg (by omega), if_neg (by omega)]

/-- **Otherwise the byte count tells the fault**: it is no size, or a size that no allocator grants. -/
theorem blank_eq_error_iff {width height : Nat} {e : AllocationError} :
    blank width height = .error e ↔ (sizeLimit ≤ byteCount width height ∧ e = .overflow width height) ∨
      (reserveLimit ≤ byteCount width height ∧ byteCount width height < sizeLimit ∧ e = .reserve) := by
  unfold blank
  split
  · rename_i hlimit
    simp [hlimit, Nat.not_lt.2 hlimit, eq_comm]
  · rename_i hlimit
    split
    · rename_i hreserve
      simp [hlimit, hreserve, Nat.not_le.1 hlimit, eq_comm]
    · rename_i hreserve
      simp [hlimit, hreserve]

theorem exists_blank {width height : Nat} (h : byteCount width height < reserveLimit) :
    ∃ c, blank width height = .ok c :=
  ⟨⟨width, height, _, Array.size_replicate⟩, blank_eq_ok_iff.2 ⟨h, rfl, rfl, rfl⟩⟩

theorem blank_dims {width height : Nat} {c : Canvas} (h : blank width height = .ok c) :
    c.width = width ∧ c.height = height :=
  ⟨(blank_eq_ok_iff.1 h).2.1, (blank_eq_ok_iff.1 h).2.2.1⟩

/-- the bitmap fits on the canvas made for it -/
theorem fits_framing {b : Coverage} {c : Canvas} (h : blank (b.width + 2 * margin) (b.height + 2 * margin) = .ok c) :
    c.Fits b := by
  obtain ⟨hw, hh⟩ := blank_dims h
  exact ⟨hw ▸ Nat.le_refl _, hh ▸ Nat.le_refl _⟩

end Canvas

end GlyphImage
