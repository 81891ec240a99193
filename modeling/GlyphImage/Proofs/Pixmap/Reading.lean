/-
Reading image files back. A header is read as the dimensions that it was written with, whatever their number of digits
(`number?_numeral`), so every canvas's file is read completely (`decode_encode`), and a pixel's channels are found in it
at their place (`channel?_imageOf`). `frame_is_readable`: the file of a frame shows the coverage of its bitmap and white
around it, so that two frames have the same file just if their bitmaps look the same.
-/
import GlyphImage.Proofs.Pixmap
import GlyphImage.Text.Utf8

namespace GlyphImage.Pixmap

/-! ## Numbers -/

/-- a number in decimal digits, as bytes -/
def numeral (n : Nat) : List UInt8 := Utf8.encode (toString n)

/-- no digit stands in front -/
def NoDigit (bytes : List UInt8) : Prop := ∀ b ∈ bytes.head?, digit? b = none

theorem encodeChar_of_isDigit {c : Char} (h : c.isDigit = true) :
    Utf8.encodeChar c = [UInt8.ofNat c.toNat] ∧ digit? (UInt8.ofNat c.toNat) = some (c.toNat - 48) := by
  have hrange : 48 ≤ c.toNat ∧ c.toNat ≤ 57 := by
    simp only [Char.isDigit, Bool.and_eq_true, decide_eq_true_eq, ge_iff_le, UInt32.le_iff_toNat_le] at h
    exact h
  obtain ⟨hlow, hhigh⟩ := hrange
  have hbyte : (UInt8.ofNat c.toNat).toNat = c.toNat := UInt8.toNat_ofNat_of_lt' (Nat.lt_of_le_of_lt hhigh (by decide))
  constructor
  · unfold Utf8.encodeChar
    rw [if_pos (by omega)]
  · have hdigit : 48 ≤ UInt8.ofNat c.toNat ∧ UInt8.ofNat c.toNat ≤ 57 := by
      rw [UInt8.le_iff_toNat_le, UInt8.le_iff_toNat_le, hbyte]
      exact ⟨hlow, hhigh⟩
    rw [digit?, if_pos hdigit, hbyte]

theorem digits_of_noDigit {rest : List UInt8} (h : NoDigit rest) (soFar : Nat) : digits soFar rest = (soFar, rest) := by
  cases rest with
  | nil => rfl
  | cons b rest =>
    have hb : digit? b = none := h b rfl
    simp only [digits, hb]

/-- digits are read up to the first byte that is none -/
theorem digits_append {cs : List Char} (hcs : ∀ c ∈ cs, c.isDigit = true) {rest : List UInt8} (hrest : NoDigit rest)
    (soFar : Nat) : digits soFar (cs.flatMap Utf8.encodeChar ++ rest) = (Nat.ofDigitChars 10 cs soFar, rest) := by
  induction cs generalizing soFar with
  | nil => exact digits_of_noDigit hrest soFar
  | cons c cs ih =>
    obtain ⟨hencode, hdigit⟩ := encodeChar_of_isDigit (hcs c List.mem_cons_self)
    have hlater := ih (fun c' hc' => hcs c' (List.mem_cons_of_mem c hc')) (10 * soFar + (c.toNat - 48))
    rw [List.flatMap_cons, hencode, List.singleton_append, List.cons_append, digits, hdigit, Nat.ofDigitChars_cons]
    exact hlater

theorem exists_numeral (n : Nat) :
    ∃ c cs, (∀ c' ∈ c :: cs, c'.isDigit = true) ∧ numeral n = (c :: cs).flatMap Utf8.encodeChar ∧
      Nat.ofDigitChars 10 (c :: cs) 0 = n := by
  cases hdigits : Nat.toDigits 10 n with
  | nil => exact absurd hdigits Nat.toDigits_ne_nil
  | cons c cs =>
    refine ⟨c, cs, fun c' hc' => ?_, ?_, ?_⟩
    · rw [← hdigits] at hc'
      exact Nat.isDigit_of_mem_toDigits (by decide) (Nat.le_refl 10) hc'
    · rw [numeral, Utf8.encode, Nat.toString_eq_ofList_toDigits, String.toList_ofList, hdigits]
    · rw [← hdigits, Nat.ofDigitChars_ten_toDigits]

theorem head?_numeral (n : Nat) : ∃ b rest d, numeral n = b :: rest ∧ digit? b = some d := by
  obtain ⟨c, cs, hdigits, hnumeral, -⟩ := exists_numeral n
  obtain ⟨hencode, hdigit⟩ := encodeChar_of_isDigit (hdigits c List.mem_cons_self)
  rw [List.flatMap_cons, hencode, List.singleton_append] at hnumeral
  exact ⟨_, _, _, hnumeral, hdigit⟩

/-- **A number is read back**, whatever follows its digits. -/
theorem number?_numeral (n : Nat) {rest : List UInt8} (hrest : NoDigit rest) :
    number? (numeral n ++ rest) = some (n, rest) := by
  obtain ⟨c, cs, hdigits, hnumeral, hn⟩ := exists_numeral n
  have hread := digits_append hdigits hrest 0
  rw [hn, ← hnumeral] at hread
  obtain ⟨b, later, d, hhead, hdigit⟩ := head?_numeral n
  -- the first digit is read apart from the others: there must be one
  rw [hhead, List.cons_append] at hread ⊢
  simp only [digits, hdigit, Nat.mul_zero, Nat.zero_add] at hread
  rw [number?, hdigit, Option.map_some, hread]

/-! ## Files -/

theorem encode_header (width height : Nat) :
    Utf8.encode (header width height) =
      80 :: 54 :: 10 :: (numeral width ++ 32 :: (numeral height ++ 10 :: (numeral 255 ++ [10]))) := by
  have htext : header width height = "P6\n" ++ toString width ++ " " ++ toString height ++ "\n255\n" := rfl
  have hmagic : Utf8.encode "P6\n" = [80, 54, 10] := by decide
  have hgap : Utf8.encode " " = [32] := by decide
  have hmaximum : Utf8.encode "\n255\n" = 10 :: (numeral 255 ++ [10]) := by decide
  rw [htext, Utf8.encode_append, Utf8.encode_append, Utf8.encode_append, Utf8.encode_append, hmagic, hgap, hmaximum]
  simp only [numeral, List.append_assoc, List.cons_append, List.nil_append]

/-- no digit is white space -/
theorem isBlank_of_digit? {b : UInt8} {d : Nat} (h : digit? b = some d) : isBlank b = false := by
  unfold digit? at h
  split_ifs at h with hrange
  have hlow : 48 ≤ b.toNat := UInt8.le_iff_toNat_le.1 hrange.1
  have hgap : b ≠ 32 := by
    rintro rfl
    exact absurd hlow (by decide)
  have hbreak : ¬b ≤ 13 := by
    intro hle
    have hhigh : b.toNat ≤ 13 := UInt8.le_iff_toNat_le.1 hle
    omega
  simp [isBlank, hgap, hbreak]

theorem blanks?_numeral {b : UInt8} (hb : isBlank b = true) (n : Nat) (rest : List UInt8) :
    blanks? (b :: (numeral n ++ rest)) = some (numeral n ++ rest) := by
  obtain ⟨c, later, d, hhead, hdigit⟩ := head?_numeral n
  rw [hhead, List.cons_append, blanks?, blank?, if_pos hb, Option.map_some, List.dropWhile_cons,
    isBlank_of_digit? hdigit]
  rfl

/-- **A header is read as it was written**, and what follows it is the image. -/
theorem decode_header {width height : Nat} {samples : List UInt8} (h : samples.length = 3 * (width * height)) :
    decode (Utf8.encode (header width height) ++ samples) = some ⟨width, height, samples⟩ := by
  have hgap : ∀ rest, NoDigit (32 :: rest) := by simp [NoDigit, digit?]
  have hbreak : ∀ rest, NoDigit (10 :: rest) := by simp [NoDigit, digit?]
  have hblank : blank? (10 :: samples) = some samples := rfl
  have hgap' := blanks?_numeral (b := 32) rfl
  have hbreak' := blanks?_numeral (b := 10) rfl
  rw [encode_header]
  simp only [List.cons_append, List.append_assoc, List.nil_append]
  unfold decode
  simp [expect?, hgap', hbreak', number?_numeral _ (hgap _), number?_numeral _ (hbreak _), hblank, h]

theorem length_triple (p : Pixel) : (triple p).length = 3 := rfl

theorem length_samples (c : Canvas) : (c.pixels.flatMap triple).length = 3 * (c.width * c.height) := by
  have hpixels : c.pixels.length = c.width * c.height := by rw [Canvas.pixels, List.length_map, List.length_finRange]
  simp only [List.length_flatMap, length_triple, List.map_const', List.sum_replicate, hpixels, smul_eq_mul]
  exact Nat.mul_comm _ 3

/-- the image that a canvas's file holds -/
def imageOf (c : Canvas) : Image := ⟨c.width, c.height, c.pixels.flatMap triple⟩

theorem encode_eq (c : Canvas) : encode c = Utf8.encode (header c.width c.height) ++ c.pixels.flatMap triple := by
  rw [encode, chunks, List.flatten_cons, List.flatMap_def]

/-- **Every canvas's file is read completely.** -/
theorem decode_encode (c : Canvas) : decode (encode c) = some (imageOf c) := by
  rw [encode_eq, decode_header (length_samples c), imageOf]

/-! ## Pixels -/

/-- **A pixel is found at its place in the image.** -/
theorem channel?_imageOf {c : Canvas} {x y k : Nat} (hx : x < c.width) (hy : y < c.height) (hk : k < 3) :
    (imageOf c).channel? x y k = (c.pixel? x y).bind fun p => (triple p)[k]? := by
  unfold imageOf Image.channel?
  rw [if_pos ⟨hx, hk⟩, Canvas.getElem?_flatMap_blocks length_triple _ _ hk, Canvas.getElem?_pixels hx hy]

/-! ## Frames -/

section

variable {b b' : Coverage} {c c' : Canvas}

/-- **The image of a frame**: every channel is 255 less the coverage at its place. -/
theorem channel?_framing (h : Canvas.framing b = .ok c) {x y k : Nat} (hx : x < b.width + 2 * Canvas.margin)
    (hy : y < b.height + 2 * Canvas.margin) (hk : k < 3) :
    (imageOf c).channel? x y k = some (255 - b.framed x y) := by
  obtain ⟨hwidth, hheight, hpixel⟩ := Canvas.framing_spec h
  rw [← hwidth] at hx
  rw [← hheight] at hy
  rw [channel?_imageOf hx hy hk, hpixel x y hx hy, Option.bind_some, triple_black, List.getElem?_replicate, if_pos hk]

/-- **The coverage is read off the image**, five pixels in. -/
theorem exists_channel (h : Canvas.framing b = .ok c) {x y k : Nat} (hx : x < b.width) (hy : y < b.height) (hk : k < 3) :
    ∃ channel, (imageOf c).channel? (x + Canvas.margin) (y + Canvas.margin) k = some channel ∧
      b.at? x y = some (255 - channel) := by
  have hat : ∃ value, b.at? x y = some value := ⟨_, dif_pos ⟨hx, hy⟩⟩
  obtain ⟨value, hvalue⟩ := hat
  refine ⟨255 - value, ?_, ?_⟩
  · rw [channel?_framing h (by omega) (by omega) hk, Coverage.framed_of_at? hvalue]
  · rw [hvalue, sub_sub_cancel]

/-- bitmaps that look the same have the same frame -/
theorem encode_eq_of_at? (h : Canvas.framing b = .ok c) (h' : Canvas.framing b' = .ok c') (hwidth : b.width = b'.width)
    (hheight : b.height = b'.height) (hat : ∀ x y, b.at? x y = b'.at? x y) : encode c = encode c' := by
  have hframed : ∀ x y, b.framed x y = b'.framed x y := by
    intro x y
    simp only [Coverage.framed, hat]
  rw [encode_framing h, encode_framing h', hwidth, hheight]
  simp only [hframed]

/-- bitmaps with the same frame look the same -/
theorem at?_eq_of_encode_eq (h : Canvas.framing b = .ok c) (h' : Canvas.framing b' = .ok c')
    (hencode : encode c = encode c') :
    b.width = b'.width ∧ b.height = b'.height ∧ ∀ x y, b.at? x y = b'.at? x y := by
  obtain ⟨hcwidth, hcheight, -⟩ := Canvas.framing_spec h
  obtain ⟨hcwidth', hcheight', -⟩ := Canvas.framing_spec h'
  have himage : imageOf c = imageOf c' := by
    refine Option.some.inj ?_
    rw [← decode_encode, ← decode_encode, hencode]
  have hcanvasWidth : c.width = c'.width := congrArg Image.width himage
  have hcanvasHeight : c.height = c'.height := congrArg Image.height himage
  have hwidth : b.width = b'.width := by omega
  have hheight : b.height = b'.height := by omega
  refine ⟨hwidth, hheight, fun x y => ?_⟩
  by_cases hinside : x < b.width ∧ y < b.height
  · obtain ⟨channel, hchannel, hat⟩ := exists_channel h hinside.1 hinside.2 (Nat.zero_lt_succ 2)
    obtain ⟨channel', hchannel', hat'⟩ :=
      exists_channel h' (hwidth ▸ hinside.1) (hheight ▸ hinside.2) (Nat.zero_lt_succ 2)
    rw [himage, hchannel'] at hchannel
    rw [hat, hat', Option.some.inj hchannel]
  · have houtside : ¬(x < b'.width ∧ y < b'.height) := by rwa [← hwidth, ← hheight]
    rw [Coverage.at?, Coverage.at?, dif_neg hinside, dif_neg houtside]

end

/-- **The file of a frame loses nothing and adds nothing.** It is read completely, as an image that is by ten pixels wider
and higher than the bitmap. Five pixels in, every channel is 255 less the coverage of the bitmap's pixel; everywhere else
the image is white. So the files of two frames are the same just if the bitmaps have the same size and coverage, however
their rows are padded. -/
theorem frame_is_readable :
    (∀ b c, Canvas.framing b = .ok c → ∃ image, decode (encode c) = some image ∧
      image.width = b.width + 10 ∧ image.height = b.height + 10 ∧
      image.samples.length = 3 * (image.width * image.height) ∧
      (∀ x y k, x < b.width → y < b.height → k < 3 →
        ∃ channel, image.channel? (x + 5) (y + 5) k = some channel ∧ b.at? x y = some (255 - channel)) ∧
      ∀ x y k, x < image.width → y < image.height → k < 3 →
        ¬((5 ≤ x ∧ x < b.width + 5) ∧ 5 ≤ y ∧ y < b.height + 5) → image.channel? x y k = some 255) ∧
    ∀ b b' c c', Canvas.framing b = .ok c → Canvas.framing b' = .ok c' →
      (encode c = encode c' ↔ b.width = b'.width ∧ b.height = b'.height ∧ ∀ x y, b.at? x y = b'.at? x y) := by
  constructor
  · intro b c h
    obtain ⟨hwidth, hheight, -⟩ := Canvas.framing_spec h
    refine ⟨imageOf c, decode_encode c, hwidth, hheight, length_samples c, fun x y k hx hy hk => ?_,
      fun x y k hx hy hk houtside => ?_⟩
    · exact exists_channel h hx hy hk
    · have hx' : x < b.width + 2 * Canvas.margin := hwidth ▸ hx
      have hy' : y < b.height + 2 * Canvas.margin := hheight ▸ hy
      rw [channel?_framing h hx' hy' hk, Coverage.framed_outside houtside, UInt8.sub_zero]
  · intro b b' c c' h h'
    constructor
    · exact at?_eq_of_encode_eq h h'
    · rintro ⟨hwidth, hheight, hat⟩
      exact encode_eq_of_at? h h' hwidth hheight hat

/-- two bitmaps that differ in padding and in what follows the rows have the same file; a third, which differs in one
pixel, has another -/
theorem frame_is_readable_padded :
    ∃ b b' b'' c c' c'', Coverage.ofBuffer? 2 2 2 #[1, 2, 3, 255] = some b ∧
      Coverage.ofBuffer? 2 2 3 #[1, 2, 77, 3, 255, 99, 42] = some b' ∧
      Coverage.ofBuffer? 2 2 2 #[1, 2, 3, 254] = some b'' ∧
      Canvas.framing b = .ok c ∧ Canvas.framing b' = .ok c' ∧ Canvas.framing b'' = .ok c'' ∧
      encode c = encode c' ∧ encode c ≠ encode c'' ∧
      ∃ image, decode (encode c) = some image ∧ image.width = 12 ∧ image.height = 12 ∧
        image.channel? 6 6 0 = some 0 ∧ image.channel? 0 0 0 = some 255 := by
  let b : Coverage := ⟨2, 2, 2, #[1, 2, 3, 255], by decide, by decide⟩
  let b' : Coverage := ⟨2, 2, 3, #[1, 2, 77, 3, 255, 99, 42], by decide, by decide⟩
  let b'' : Coverage := ⟨2, 2, 2, #[1, 2, 3, 254], by decide, by decide⟩
  obtain ⟨c, hc⟩ : ∃ c, Canvas.framing b = .ok c := Canvas.exists_framing (by decide)
  obtain ⟨c', hc'⟩ : ∃ c, Canvas.framing b' = .ok c := Canvas.exists_framing (by decide)
  obtain ⟨c'', hc''⟩ : ∃ c, Canvas.framing b'' = .ok c := Canvas.exists_framing (by decide)
  obtain ⟨hread, hsame⟩ := frame_is_readable
  have hat : ∀ x y, b.at? x y = b'.at? x y := by
    intro x y
    by_cases h : x < 2 ∧ y < 2
    · obtain ⟨hx, hy⟩ := h
      interval_cases x <;> interval_cases y <;> rfl
    · rw [Coverage.at?, Coverage.at?, dif_neg h, dif_neg h]
  obtain ⟨image, himage, hwidth, hheight, -, hinside, houtside⟩ := hread b c hc
  refine ⟨b, b', b'', c, c', c'', by decide, by decide, by decide, hc, hc', hc'', ?_, ?_, image, himage, hwidth, hheight,
    ?_, ?_⟩
  · exact (hsame b b' c c' hc hc').2 ⟨rfl, rfl, hat⟩
  · intro h
    obtain ⟨-, -, hat''⟩ := (hsame b b'' c c'' hc hc'').1 h
    exact absurd (hat'' 1 1) (by decide)
  · obtain ⟨channel, hchannel, hvalue⟩ := hinside 1 1 0 (by decide) (by decide) (by decide)
    have hfull : (255 : UInt8) = 255 - channel := Option.some.inj hvalue
    rw [hchannel, sub_eq_self.1 hfull.symm]
  · exact houtside 0 0 0 (by omega) (by omega) (by decide) (by decide)

end GlyphImage.Pixmap
