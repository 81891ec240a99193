/-
The files of framed bitmaps. Black over white is exact at every strength (`triple_black`), so the file of a frame is the
header and, row by row, three times 255 less the coverage for every place (`encode_framing`).
-/
import GlyphImage.Pixmap
import GlyphImage.Proofs.Canvas

namespace GlyphImage.Pixmap

theorem blendOverWhite_zero (alpha : UInt8) : blendOverWhite 0 alpha = 255 - alpha := by
  have halpha : alpha ≤ 255 := UInt8.le_iff_toNat_le.2 (Nat.le_of_lt_succ alpha.toNat_lt)
  have hzero : (0 : UInt8).toNat = 0 := rfl
  have hfull : (255 : UInt8).toNat = 255 := rfl
  refine UInt8.toNat_inj.1 ?_
  rw [blendOverWhite, hzero, Nat.zero_mul, Nat.zero_add, Nat.mul_div_cancel_left _ (by decide),
    UInt8.toNat_sub_of_le _ _ halpha, hfull, UInt8.toNat_ofNat_of_lt' (by simp only [UInt8.size]; omega)]

theorem triple_black (alpha : UInt8) : triple (.black alpha) = List.replicate 3 (255 - alpha) := by
  simp only [triple, Pixel.black, blendOverWhite_zero]
  rfl

/-- **The file of a frame**: the header, and each place of the frame in row-major order. -/
theorem encode_framing {b : Coverage} {c : Canvas} (h : Canvas.framing b = .ok c) :
    encode c = Utf8.encode (header (b.width + 2 * Canvas.margin) (b.height + 2 * Canvas.margin)) ++
      (List.range (b.height + 2 * Canvas.margin)).flatMap fun y =>
        (List.range (b.width + 2 * Canvas.margin)).flatMap fun x => List.replicate 3 (255 - b.framed x y) := by
  obtain ⟨hwidth, hheight, hpixel⟩ := Canvas.framing_spec h
  rw [encode, chunks, List.flatten_cons, Canvas.pixels_eq hpixel, hwidth, hheight, ← List.flatMap_def, List.flatMap_assoc]
  simp only [List.flatMap_map, triple_black]

end GlyphImage.Pixmap
