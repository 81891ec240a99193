/-
Quotients written with a fixed number of decimals. `Rounds` says what it is to round a number to a multiple of a unit,
apart from any digits: no multiple is nearer, and of two the even one is taken. `Spells` says what text stands for a
number of units, apart from any quotient. `render_spells`: where no quotient but zero rounds to zero, `render` writes the
rounded quotient, with a sign just if it is negative.

A text stands for one number at most (`Spells.unique`), and quotients that are more than a unit apart are told apart
(`Rounds.lt_of_lt`), so that they are never written alike.
-/
import GlyphImage.Text.Fixed
import Mathlib

namespace GlyphImage.Fixed

/-! ## Rounding -/

/-- `n / scale` is the multiple of `1 / scale` that is nearest to `x`, or the even one of two -/
structure Rounds (scale : ℕ) (x : ℚ) (n : ℤ) : Prop where
  nearest : ∀ k : ℤ, |x - n / scale| ≤ |x - k / scale|
  even_of_tie : ∀ k : ℤ, k ≠ n → |x - k / scale| = |x - n / scale| → Even n

namespace Rounds

variable {scale : ℕ} {x y : ℚ} {n k : ℤ}

theorem abs_sub_div (hscale : 0 < scale) (x : ℚ) (k : ℤ) : |x - k / scale| = |scale * x - k| / scale := by
  have hpos : (0 : ℚ) < scale := Nat.cast_pos.2 hscale
  rw [eq_div_iff hpos.ne', ← abs_of_pos hpos, ← abs_mul, abs_of_pos hpos, sub_mul, div_mul_cancel₀ _ hpos.ne', mul_comm]

/-- different whole numbers are at least one apart, so a third number is not near both -/
theorem one_le_abs_add_abs (h : k ≠ n) (y : ℚ) : 1 ≤ |y - n| + |y - k| := by
  have hapart : (1 : ℤ) ≤ |k - n| := Int.one_le_abs (sub_ne_zero.2 h)
  have hcast : (1 : ℚ) ≤ |(k : ℚ) - n| := by exact_mod_cast hapart
  calc (1 : ℚ) ≤ |(k : ℚ) - n| := hcast
    _ = |(y - n) - (y - k)| := by rw [sub_sub_sub_cancel_left]
    _ ≤ |y - n| + |y - k| := abs_sub _ _

/-- a number within half a unit is nearest -/
theorem of_half (hscale : 0 < scale) (hhalf : |scale * x - n| ≤ 1 / 2) (heven : |scale * x - n| = 1 / 2 → Even n) :
    Rounds scale x n := by
  have hpos : (0 : ℚ) < scale := Nat.cast_pos.2 hscale
  refine ⟨fun k => ?_, fun k hk htie => heven ?_⟩
  · rw [abs_sub_div hscale, abs_sub_div hscale, div_le_div_iff_of_pos_right hpos]
    by_cases hk : k = n
    · rw [hk]
    · have hapart := one_le_abs_add_abs hk (scale * x)
      linarith
  · rw [abs_sub_div hscale, abs_sub_div hscale, div_left_inj' hpos.ne'] at htie
    have hapart := one_le_abs_add_abs hk (scale * x)
    linarith

/-- the nearest number is within half a unit -/
theorem half (hscale : 0 < scale) (h : Rounds scale x n) : |scale * x - n| ≤ 1 / 2 := by
  have hpos : (0 : ℚ) < scale := Nat.cast_pos.2 hscale
  have hbelow := h.nearest (n - 1)
  have habove := h.nearest (n + 1)
  simp only [abs_sub_div hscale, div_le_div_iff_of_pos_right hpos] at hbelow habove
  push_cast at hbelow habove
  rw [← sub_add] at hbelow
  rw [← sub_sub] at habove
  rcases abs_cases (scale * x - n) with ⟨hself, -⟩ | ⟨hself, -⟩ <;>
    rcases abs_cases (scale * x - n + 1) with ⟨hup, -⟩ | ⟨hup, -⟩ <;>
    rcases abs_cases (scale * x - n - 1) with ⟨hdown, -⟩ | ⟨hdown, -⟩ <;> linarith

theorem abs_neg_sub_div (scale : ℕ) (x : ℚ) (k : ℤ) : |-x - k / scale| = |x - (-k : ℤ) / scale| := by
  rw [← abs_neg, Int.cast_neg, neg_div, sub_neg_eq_add, neg_sub, sub_neg_eq_add, add_comm]

/-- rounding does not look at the sign -/
theorem neg (h : Rounds scale x n) : Rounds scale (-x) (-n) where
  nearest k := by
    rw [abs_neg_sub_div, abs_neg_sub_div, neg_neg]
    exact h.nearest (-k)
  even_of_tie k hk htie := by
    rw [abs_neg_sub_div, abs_neg_sub_div, neg_neg] at htie
    exact (h.even_of_tie (-k) (fun heq => hk (by rw [← heq, neg_neg])) htie).neg

/-- **Numbers more than a unit apart are rounded to different ones**, in their order. -/
theorem lt_of_lt (hscale : 0 < scale) (h : Rounds scale x n) (h' : Rounds scale y k) (hlt : x + 1 / scale < y) :
    n < k := by
  have hpos : (0 : ℚ) < scale := Nat.cast_pos.2 hscale
  obtain ⟨hx, -⟩ := abs_le.1 (h.half hscale)
  obtain ⟨-, hy⟩ := abs_le.1 (h'.half hscale)
  have hunit : scale * x + 1 < scale * y := by
    calc scale * x + 1 = scale * (x + 1 / scale) := by rw [mul_add, mul_one_div_cancel hpos.ne']
      _ < scale * y := mul_lt_mul_of_pos_left hlt hpos
  have hcast : (n : ℚ) < k := by linarith
  exact_mod_cast hcast

end Rounds

/-- what `roundDiv` gives is within half, and even at half -/
theorem roundDiv_spec (num : ℕ) {den : ℕ} (hden : 0 < den) :
    2 * num ≤ (2 * roundDiv num den + 1) * den ∧ 2 * roundDiv num den * den ≤ 2 * num + den ∧
      (2 * num = (2 * roundDiv num den + 1) * den ∨ 2 * roundDiv num den * den = 2 * num + den →
        Even (roundDiv num den)) := by
  have hdiv := Nat.div_add_mod num den
  have hmod := Nat.mod_lt num hden
  have hdown : (2 * (num / den) + 1) * den = 2 * (den * (num / den)) + den := by ring
  have hdown' : 2 * (num / den) * den = 2 * (den * (num / den)) := by ring
  have hup : (2 * (num / den + 1) + 1) * den = 2 * (den * (num / den)) + 3 * den := by ring
  have hup' : 2 * (num / den + 1) * den = 2 * (den * (num / den)) + 2 * den := by ring
  simp only [roundDiv, Nat.even_iff]
  split_ifs with hround
  · rw [hdown, hdown']
    omega
  · rw [hup, hup']
    omega

theorem roundDiv_pos {num den : ℕ} (hden : 0 < den) (h : den ≤ num) : 0 < roundDiv num den := by
  have hwhole : 1 ≤ num / den := (Nat.one_le_div_iff hden).2 h
  simp only [roundDiv]
  split_ifs
  · exact hwhole
  · exact Nat.succ_pos _

/-- **`roundDiv` rounds the quotient** to a whole number, and a tie to an even one. -/
theorem roundDiv_half (num : ℕ) {den : ℕ} (hden : 0 < den) :
    |(num : ℚ) / den - roundDiv num den| ≤ 1 / 2 ∧
      (|(num : ℚ) / den - roundDiv num den| = 1 / 2 → Even (roundDiv num den)) := by
  have hpos : (0 : ℚ) < den := Nat.cast_pos.2 hden
  obtain ⟨hle, hge, heven⟩ := roundDiv_spec num hden
  have hle' : (2 * num : ℚ) ≤ (2 * roundDiv num den + 1) * den := by exact_mod_cast hle
  have hge' : (2 * roundDiv num den * den : ℚ) ≤ 2 * num + den := by exact_mod_cast hge
  refine ⟨abs_le.2 ⟨?_, ?_⟩, fun htie => heven ?_⟩
  · rw [le_sub_iff_add_le, le_div_iff₀ hpos]
    linarith
  · rw [sub_le_iff_le_add, div_le_iff₀ hpos]
    linarith
  · have hquotient : (num : ℚ) / den * den = num := div_mul_cancel₀ _ hpos.ne'
    rcases (abs_eq (by norm_num)).1 htie with habove | hbelow
    · left
      rw [sub_eq_iff_eq_add.1 habove] at hquotient
      have hcast : (2 * num : ℚ) = (2 * roundDiv num den + 1) * den := by linarith
      exact_mod_cast hcast
    · right
      rw [sub_eq_iff_eq_add.1 hbelow] at hquotient
      have hcast : (2 * roundDiv num den * den : ℚ) = 2 * num + den := by linarith
      exact_mod_cast hcast

/-! ## Decimals -/

/-- the text stands for `n` units of the last of so many decimals: a sign just if `n` is negative, the digits of a whole
number, a point, and a digit for each decimal -/
def Spells (places : ℕ) (text : String) (n : ℤ) : Prop :=
  ∃ (whole : ℕ) (decimals : List Char),
    text.toList = (if n < 0 then ['-'] else []) ++ Nat.toDigits 10 whole ++ '.' :: decimals ∧
      decimals.length = places ∧ (∀ c ∈ decimals, c.isDigit = true) ∧
      n.natAbs = 10 ^ places * whole + Nat.ofDigitChars 10 decimals 0

/-- where two texts first have a mark that neither has before, they can be cut -/
theorem append_cons_inj {mark : Char} {x y rest rest' : List Char} (hx : mark ∉ x) (hy : mark ∉ y)
    (h : x ++ mark :: rest = y ++ mark :: rest') : x = y ∧ rest = rest' := by
  induction x generalizing y with
  | nil =>
    cases y with
    | nil => exact ⟨rfl, (List.cons.inj h).2⟩
    | cons b y => exact absurd ((List.cons.inj h).1 ▸ List.mem_cons_self) hy
  | cons a x ih =>
    cases y with
    | nil => exact absurd ((List.cons.inj h).1 ▸ List.mem_cons_self) hx
    | cons b y =>
      obtain ⟨rfl, htail⟩ := List.cons.inj h
      obtain ⟨rfl, hrest⟩ := ih (List.not_mem_of_not_mem_cons hx) (List.not_mem_of_not_mem_cons hy) htail
      exact ⟨rfl, hrest⟩

theorem toDigits_injective {n k : ℕ} (h : Nat.toDigits 10 n = Nat.toDigits 10 k) : n = k := by
  rw [← Nat.ofDigitChars_ten_toDigits (n := n), h, Nat.ofDigitChars_ten_toDigits]

/-- what is no digit is in no numeral -/
theorem not_mem_toDigits {c : Char} (hc : ¬c.isDigit) (n : ℕ) : c ∉ Nat.toDigits 10 n := fun hdigit =>
  hc (Nat.isDigit_of_mem_toDigits (by decide) (Nat.le_refl 10) hdigit)

/-- there is no point before the one in front of the decimals -/
theorem point_not_mem_front (n : ℤ) (whole : ℕ) : '.' ∉ (if n < 0 then ['-'] else []) ++ Nat.toDigits 10 whole := by
  intro hmem
  rcases List.mem_append.1 hmem with hsign | hdigit
  · split_ifs at hsign <;> simp at hsign
  · exact not_mem_toDigits (by decide) whole hdigit

namespace Spells

variable {places : ℕ} {text : String} {n k : ℤ}

/-- **A text stands for one number only.** -/
theorem unique (h : Spells places text n) (h' : Spells places text k) : n = k := by
  obtain ⟨whole, decimals, htext, -, -, hvalue⟩ := h
  obtain ⟨whole', decimals', htext', -, -, hvalue'⟩ := h'
  obtain ⟨hfront, rfl⟩ :=
    append_cons_inj (point_not_mem_front n whole) (point_not_mem_front k whole') (htext.symm.trans htext')
  -- a sign stands in front of both numbers or of none
  split_ifs at hfront with hn hk hk
  · obtain rfl := toDigits_injective (List.cons.inj hfront).2
    omega
  · rw [List.nil_append] at hfront
    exact absurd (hfront ▸ List.mem_cons_self) (not_mem_toDigits (c := '-') (by decide) whole')
  · rw [List.nil_append] at hfront
    exact absurd (hfront ▸ List.mem_cons_self) (not_mem_toDigits (c := '-') (by decide) whole)
  · obtain rfl := toDigits_injective hfront
    omega

/-- a zero has no sign -/
theorem ne_minus_zero (h : Spells 2 text n) : text ≠ "-0.00" := by
  rintro rfl
  obtain ⟨whole, decimals, htext, -, -, hvalue⟩ := h
  have hmark : '.' ∉ ['-', '0'] := by decide
  obtain ⟨hfront, hdecimals⟩ :=
    append_cons_inj hmark (point_not_mem_front n whole) (show ['-', '0'] ++ '.' :: ['0', '0'] = _ from htext)
  split_ifs at hfront with hn
  · have hwhole : whole = 0 := toDigits_injective (List.cons.inj hfront).2.symm
    rw [hwhole, ← hdecimals] at hvalue
    exact absurd (Int.natAbs_eq_zero.1 hvalue) hn.ne
  · rw [List.nil_append] at hfront
    exact absurd (hfront ▸ List.mem_cons_self) (not_mem_toDigits (c := '-') (by decide) whole)

end Spells

/-- the digits of a number below `10 ^ places`, filled up with zeros in front -/
theorem padLeft_toDigits {places n : ℕ} (hplaces : 0 < places) (h : n < 10 ^ places) :
    (padLeft places (Nat.toDigits 10 n)).length = places ∧
      (∀ c ∈ padLeft places (Nat.toDigits 10 n), c.isDigit = true) ∧
      Nat.ofDigitChars 10 (padLeft places (Nat.toDigits 10 n)) 0 = n := by
  have hlength : (Nat.toDigits 10 n).length ≤ places := (Nat.length_toDigits_le_iff (by decide) hplaces).2 h
  unfold padLeft
  refine ⟨?_, fun c hc => ?_, ?_⟩
  · rw [List.length_append, List.length_replicate, Nat.sub_add_cancel hlength]
  · rcases List.mem_append.1 hc with hzero | hdigit
    · rw [List.eq_of_mem_replicate hzero]
      rfl
    · exact Nat.isDigit_of_mem_toDigits (by decide) (Nat.le_refl 10) hdigit
  · rw [Nat.ofDigitChars_append, Nat.ofDigitChars_replicate_zero, Nat.mul_zero, Nat.ofDigitChars_ten_toDigits]

/-- **A quotient is written as it is rounded.** A unit of the last decimal is at most one over the denominator, so that
a negative quotient is rounded to a negative number. -/
theorem render_spells {places den : ℕ} (hplaces : 0 < places) (hden : 0 < den) (hfine : den ≤ 10 ^ places) (num : ℤ) :
    ∃ n, Spells places (render places num den) n ∧ Rounds (10 ^ places) (num / den) n := by
  have hunit : 0 < 10 ^ places := Nat.pow_pos (by decide)
  let size := roundDiv (num.natAbs * 10 ^ places) den
  obtain ⟨hhalf, heven⟩ := roundDiv_half (num.natAbs * 10 ^ places) hden
  have hscaled : ((num.natAbs * 10 ^ places : ℕ) : ℚ) / den = (10 ^ places : ℕ) * (num.natAbs / den : ℚ) := by
    rw [Nat.cast_mul, mul_comm, mul_div_assoc]
  rw [hscaled] at hhalf heven
  have hrounds : Rounds (10 ^ places) (num.natAbs / den) size :=
    Rounds.of_half hunit hhalf fun htie => (Int.even_coe_nat size).2 (heven htie)
  obtain ⟨hlength, hdigits, hvalue⟩ := padLeft_toDigits hplaces (Nat.mod_lt size hunit)
  have hspells : ∀ n : ℤ, (n < 0 ↔ num < 0) → n.natAbs = size → Spells places (render places num den) n := by
    intro n hn hsize
    refine ⟨size / 10 ^ places, _, ?_, hlength, hdigits, ?_⟩
    · simp only [hn]
      exact String.toList_ofList
    · rw [hsize, hvalue, Nat.div_add_mod]
  by_cases hneg : num < 0
  · have hsize : 0 < size := roundDiv_pos hden (hfine.trans (Nat.le_mul_of_pos_left _ (Int.natAbs_pos.2 hneg.ne)))
    have habs : (num : ℚ) = -num.natAbs := by rw [Nat.cast_natAbs, abs_of_neg hneg, Int.cast_neg, neg_neg]
    refine ⟨-size, hspells _ (by omega) (by omega), ?_⟩
    rw [habs, neg_div]
    exact hrounds.neg
  · have habs : (num : ℚ) = num.natAbs := by rw [Nat.cast_natAbs, abs_of_nonneg (Int.not_lt.1 hneg)]
    refine ⟨size, hspells _ (by omega) (by omega), ?_⟩
    rw [habs]
    exact hrounds

end GlyphImage.Fixed
