/-
The image of a bitmap glyph. `Glyph.image` is the file as the bytes of the bitmap determine it: a header with the size and
its margins, then black for every bit that is set and white everywhere else. Reading single bits answers the same
(`Glyph.bit?_eq_some_true_iff`), and so `Glyph.exists_canvas`: a glyph with an exact bitmap always gets a canvas, and the
file of this canvas is the image.
-/
import GlyphImage.Pff2.Layout
import GlyphImage.Proofs.Pff2.Expansion
import GlyphImage.Proofs.Pixmap

namespace GlyphImage.Pff2.Glyph

/-- bit `i` of the bitmap is set: in byte `i / 8`, the one worth `2 ^ (7 - i % 8)` -/
def BitSet (g : Glyph) (i : Nat) : Prop := ∃ byte ∈ g.bitmap[i / 8]?, byte.toNat / 2 ^ (7 - i % 8) % 2 = 1

instance (g : Glyph) (i : Nat) : Decidable (g.BitSet i) :=
  inferInstanceAs (Decidable (∃ byte ∈ g.bitmap[i / 8]?, byte.toNat / 2 ^ (7 - i % 8) % 2 = 1))

/-- the pixel `(x, y)` of the image is black: it lies inside the margins of five pixels, and its bit is set -/
def Inked (g : Glyph) (x y : Nat) : Prop :=
  (5 ≤ x ∧ x < g.width.toNat + 5) ∧ (5 ≤ y ∧ y < g.height.toNat + 5) ∧
    g.BitSet ((y - 5) * g.width.toNat + (x - 5))

instance (g : Glyph) (x y : Nat) : Decidable (g.Inked x y) := inferInstanceAs (Decidable (_ ∧ _))

/-- the image file of a glyph -/
def image (g : Glyph) : List UInt8 :=
  Utf8.encode s!"P6\n{g.width.toNat + 10} {g.height.toNat + 10}\n255\n" ++
    (List.range (g.height.toNat + 10)).flatMap fun y =>
      (List.range (g.width.toNat + 10)).flatMap fun x => if g.Inked x y then [0, 0, 0] else [255, 255, 255]

variable {g : Glyph}

theorem bit?_eq_some_true_iff {i : Nat} : g.bit? i = some true ↔ g.BitSet i := by
  unfold bit? BitSet
  simp only [Option.map_eq_some_iff, Option.mem_def, Nat.testBit_eq_decide_div_mod_eq, decide_eq_true_iff]

/-- the coverage of an exact bitmap: full where a bit is set -/
theorem coverage_of_exact (h : g.Exact) :
    g.coverage = .ok (Coverage.tabulate g.width.toNat g.height.toNat fun i => coverageOf (g.bit? i)) :=
  g.coverage_eq.trans (if_pos (Nat.le_of_eq h.symm))

theorem framed_coverage (g : Glyph) (x y : Nat) :
    (Coverage.tabulate g.width.toNat g.height.toNat fun i => coverageOf (g.bit? i)).framed x y =
      if g.Inked x y then 255 else 0 := by
  rw [Coverage.framed, Coverage.at?_tabulate]
  unfold Canvas.margin
  by_cases hmargin : 5 ≤ x ∧ 5 ≤ y
  · obtain ⟨hx, hy⟩ := hmargin
    rw [if_pos ⟨hx, hy⟩]
    by_cases hin : x - 5 < g.width.toNat ∧ y - 5 < g.height.toNat
    · rw [if_pos hin, Option.getD_some, coverageOf]
      by_cases hbit : g.bit? ((y - 5) * g.width.toNat + (x - 5)) = some true
      · have hinked : g.Inked x y := ⟨⟨hx, by omega⟩, ⟨hy, by omega⟩, bit?_eq_some_true_iff.1 hbit⟩
        rw [if_pos hbit, if_pos hinked]
      · have hinked : ¬g.Inked x y := fun h => hbit (bit?_eq_some_true_iff.2 h.2.2)
        rw [if_neg hbit, if_neg hinked]
    · have hinked : ¬g.Inked x y := by
        rintro ⟨⟨-, hx'⟩, ⟨-, hy'⟩, -⟩
        exact hin ⟨by omega, by omega⟩
      rw [if_neg hin, Option.getD_none, if_neg hinked]
  · have hinked : ¬g.Inked x y := fun h => hmargin ⟨h.1.1, h.2.1.1⟩
    rw [if_neg hmargin, if_neg hinked]

/-- the largest glyph's canvas takes fewer bytes than an allocator grants -/
theorem byteCount_lt_reserveLimit (g : Glyph) :
    Canvas.byteCount (g.width.toNat + 2 * Canvas.margin) (g.height.toNat + 2 * Canvas.margin) < reserveLimit := by
  have hwidth := g.width.toNat_lt
  have hheight := g.height.toNat_lt
  have harea : (g.width.toNat + 2 * Canvas.margin) * (g.height.toNat + 2 * Canvas.margin) ≤ 65545 * 65545 :=
    Nat.mul_le_mul (by unfold Canvas.margin; omega) (by unfold Canvas.margin; omega)
  exact Nat.lt_of_le_of_lt (Nat.mul_le_mul_left 4 harea) (by decide)

/-- **An exact glyph has an image**: its coverage can be framed, and the file of the frame is the glyph's image. -/
theorem exists_canvas (h : g.Exact) :
    ∃ b c, g.coverage = .ok b ∧ Canvas.framing b = .ok c ∧ Pixmap.encode c = g.image := by
  obtain ⟨c, hc⟩ := Canvas.exists_framing
    (b := Coverage.tabulate g.width.toNat g.height.toNat fun i => coverageOf (g.bit? i)) g.byteCount_lt_reserveLimit
  refine ⟨_, c, coverage_of_exact h, hc, ?_⟩
  rw [Pixmap.encode_framing hc]
  refine congrArg (Utf8.encode _ ++ ·) (List.flatMap_congr fun y _ => List.flatMap_congr fun x _ => ?_)
  rw [framed_coverage]
  split_ifs <;> rfl

end GlyphImage.Pff2.Glyph
