/-
Writing images into limited memory. The pieces of a canvas's file, and every single write, may be stored in part; still a
memory holds in the end just the bytes from the front for which there is room. `limited_memory_stores_a_prefix` says this
of every canvas, wherever the room ends.
-/
import GlyphImage.Proofs.Pixmap.Reading

namespace GlyphImage.Pixmap

theorem length_encode (c : Canvas) :
    (encode c).length = (Utf8.encode (header c.width c.height)).length + 3 * (c.width * c.height) := by
  rw [encode_eq, List.length_append, length_samples]

/-- what room an empty memory has for a canvas's file decides how writing ends -/
theorem writeTo_empty (capacity : Nat) (c : Canvas) :
    writeTo (.empty capacity) c =
      (if (encode c).length ≤ capacity then .ok () else .error .writeZero, (Memory.empty capacity).store (encode c)) := by
  rw [writeTo, Memory.writeEach_eq, Memory.free_empty, encode]

/-- **A memory that is too small stores a prefix of the image.** The image of a canvas is its header and three bytes for
each pixel. Written into a memory with room for all of it, it is stored as it is, without an error; in a smaller memory
the bytes for which there is room are stored, from the front, and the error says that the memory is full. This holds
wherever the room ends, be it within the header or within the bytes of a pixel. -/
theorem limited_memory_stores_a_prefix (c : Canvas) (capacity : Nat) :
    encode c = Utf8.encode (header c.width c.height) ++ c.pixels.flatMap triple ∧
    (encode c).length = (Utf8.encode (header c.width c.height)).length + 3 * c.width * c.height ∧
    ((encode c).length ≤ capacity →
      ∃ m, writeTo (.empty capacity) c = (.ok (), m) ∧ m.stored.toList = encode c) ∧
    (capacity < (encode c).length →
      ∃ e m, writeTo (.empty capacity) c = (.error e, m) ∧ e.message = "failed to write whole buffer" ∧
        m.stored.toList = (encode c).take capacity) ∧
    writeInto capacity c = ((encode c).take capacity, decide ((encode c).length ≤ capacity)) := by
  have hwrite := writeTo_empty capacity c
  have hstored := Memory.stored_store_empty capacity (encode c)
  refine ⟨encode_eq c, ?_, fun hroom => ?_, fun hshort => ?_, ?_⟩
  · rw [length_encode, Nat.mul_assoc]
  · rw [if_pos hroom] at hwrite
    rw [List.take_of_length_le hroom] at hstored
    exact ⟨_, hwrite, hstored⟩
  · rw [if_neg (Nat.not_le.2 hshort)] at hwrite
    exact ⟨_, _, hwrite, rfl, hstored⟩
  · rw [writeInto, hwrite]
    by_cases hroom : (encode c).length ≤ capacity
    · simp [hroom, hstored, Except.isOk, Except.toBool]
    · simp [hroom, hstored, Except.isOk, Except.toBool]

/-- the image of a single clear pixel takes eleven bytes of header and three of white; cut in the header and cut in the
pixel, and with room to spare -/
theorem limited_memory_stores_a_prefix_of_pixel :
    ∃ c, Canvas.blank 1 1 = .ok c ∧ (encode c).length = 14 ∧
      (∃ e m, writeTo (.empty 4) c = (.error e, m) ∧ e.message = "failed to write whole buffer" ∧
        m.stored.toList = [80, 54, 10, 49]) ∧
      (∃ e m, writeTo (.empty 12) c = (.error e, m) ∧ m.stored.toList = Utf8.encode "P6\n1 1\n255\n" ++ [255]) ∧
      ∃ m, writeTo (.empty 20) c = (.ok (), m) ∧ m.stored.toList = Utf8.encode "P6\n1 1\n255\n" ++ [255, 255, 255] := by
  let c : Canvas := ⟨1, 1, #[0, 0, 0, 0], rfl⟩
  have hencode : encode c = Utf8.encode "P6\n1 1\n255\n" ++ [255, 255, 255] := by decide
  have hlength : (encode c).length = 14 := by rw [hencode]; decide
  obtain ⟨-, -, -, hheader, -⟩ := limited_memory_stores_a_prefix c 4
  obtain ⟨-, -, -, hpixel, -⟩ := limited_memory_stores_a_prefix c 12
  obtain ⟨-, -, hroom, -⟩ := limited_memory_stores_a_prefix c 20
  refine ⟨c, rfl, hlength, ?_, ?_, ?_⟩
  · obtain ⟨e, m, hwrite, hmessage, hstored⟩ := hheader (by rw [hlength]; decide)
    exact ⟨e, m, hwrite, hmessage, by rw [hstored, hencode]; decide⟩
  · obtain ⟨e, m, hwrite, -, hstored⟩ := hpixel (by rw [hlength]; decide)
    exact ⟨e, m, hwrite, by rw [hstored, hencode]; decide⟩
  · obtain ⟨m, hwrite, hstored⟩ := hroom (by rw [hlength]; decide)
    exact ⟨m, hwrite, hstored.trans hencode⟩

end GlyphImage.Pixmap
