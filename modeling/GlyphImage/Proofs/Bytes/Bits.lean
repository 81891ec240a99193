/-
Packing bits loses nothing. A byte shows the bits that its number was made of (`byteBits_ofByteBits`), so unpacking what
was packed gives the bits back, and after them the zeros that fill the last byte up (`toBits_ofBits`). `getElem?_toBits`
finds a single bit of a byte string, and `prefix_toBits_ofBits` says that neither other filling bits nor further bytes
disturb the bits that were packed.
-/
import GlyphImage.Bytes.Bits
import Mathlib

namespace GlyphImage.Bytes

/-! ## Numbers -/

theorem bitsNumber_append_singleton (bits : List Bool) (bit : Bool) :
    bitsNumber (bits ++ [bit]) = 2 * bitsNumber bits + bit.toNat := by
  rw [bitsNumber, List.foldl_append]
  rfl

theorem bitsNumber_lt (bits : List Bool) : bitsNumber bits < 2 ^ bits.length := by
  induction bits using List.reverseRecOn with
  | nil => exact Nat.one_pos
  | append_singleton bits bit ih =>
    have hbit := bit.toNat_lt
    rw [bitsNumber_append_singleton, List.length_append, List.length_singleton, Nat.pow_succ]
    omega

/-- the digits of the number are the bits, the last one at place 0 -/
theorem testBit_bitsNumber (bits : List Bool) {i : Nat} (h : i < bits.length) :
    (bitsNumber bits).testBit (bits.length - 1 - i) = bits[i] := by
  induction bits using List.reverseRecOn with
  | nil => exact absurd h (Nat.not_lt_zero i)
  | append_singleton bits bit ih =>
    rw [List.length_append, List.length_singleton] at h
    simp only [bitsNumber_append_singleton, List.length_append, List.length_singleton]
    by_cases hlast : i = bits.length
    · subst hlast
      rw [List.getElem_concat_length rfl, Nat.add_sub_cancel, Nat.sub_self, Nat.testBit_zero]
      cases bit <;> simp
    · have hplace : bits.length + 1 - 1 - i = bits.length - 1 - i + 1 := by omega
      have hhalf : (2 * bitsNumber bits + bit.toNat) / 2 = bitsNumber bits := by
        have hbit := bit.toNat_lt
        omega
      rw [hplace, Nat.testBit_succ, hhalf, ih (by omega), List.getElem_append_left (by omega)]

/-! ## Bytes -/

theorem getElem?_byteBits (b : UInt8) {i : Nat} (h : i < 8) : (byteBits b)[i]? = some (b.toNat.testBit (7 - i)) := by
  rw [byteBits, List.getElem?_map, List.getElem?_range h, Option.map_some]

/-- **A byte shows the bits it was made of**, and zeros after them. -/
theorem byteBits_ofByteBits {bits : List Bool} (h : bits.length ≤ 8) :
    byteBits (ofByteBits bits) = bits ++ List.replicate (8 - bits.length) false := by
  have hfilled : (bits ++ List.replicate 8 false).take 8 = bits ++ List.replicate (8 - bits.length) false := by
    rw [List.take_append, List.take_of_length_le h, List.take_replicate, Nat.min_eq_left (Nat.sub_le 8 _)]
  have hlength : (bits ++ List.replicate (8 - bits.length) false).length = 8 := by
    rw [List.length_append, List.length_replicate]
    omega
  have hlt := bitsNumber_lt (bits ++ List.replicate (8 - bits.length) false)
  rw [hlength] at hlt
  have hnat : (ofByteBits bits).toNat = bitsNumber (bits ++ List.replicate (8 - bits.length) false) := by
    rw [ofByteBits, hfilled, UInt8.toNat_ofNat_of_lt' hlt]
  refine List.ext_getElem (by rw [length_byteBits, hlength]) fun i hi hi' => ?_
  rw [length_byteBits] at hi
  have hbit := testBit_bitsNumber _ hi'
  simp only [hlength] at hbit
  rw [List.getElem_eq_iff, getElem?_byteBits _ hi, hnat, hbit]

/-! ## Byte strings -/

theorem toBits_append (front later : List UInt8) : toBits (front ++ later) = toBits front ++ toBits later :=
  List.flatMap_append

/-- a bit of a byte string is found by the number of its byte and its place there -/
theorem getElem?_toBits (bytes : List UInt8) (i : Nat) :
    (toBits bytes)[i]? = (bytes[i / 8]?).map fun b => b.toNat.testBit (7 - i % 8) := by
  induction bytes generalizing i with
  | nil => rfl
  | cons b rest ih =>
    have hcons : toBits (b :: rest) = byteBits b ++ toBits rest := List.flatMap_cons
    rw [hcons]
    by_cases hfirst : i < 8
    · rw [List.getElem?_append_left (by rwa [length_byteBits]), getElem?_byteBits b hfirst, Nat.div_eq_of_lt hfirst,
        Nat.mod_eq_of_lt hfirst]
      rfl
    · have hdiv : i / 8 = (i - 8) / 8 + 1 := by omega
      have hmod : i % 8 = (i - 8) % 8 := by omega
      rw [List.getElem?_append_right (by rw [length_byteBits]; omega), length_byteBits, ih, hdiv, hmod,
        List.getElem?_cons_succ]

/-- **Unpacking gives the packed bits back**, and after them the zeros that fill the last byte up. -/
theorem toBits_ofBits (bits : List Bool) :
    toBits (ofBits bits) = bits ++ List.replicate (8 * ((bits.length + 7) / 8) - bits.length) false := by
  induction bits using ofBits.induct with
  | case1 => simp [ofBits, toBits]
  | case2 bit rest ih =>
    have hcons : toBits (ofBits (bit :: rest)) =
        byteBits (ofByteBits ((bit :: rest).take 8)) ++ toBits (ofBits (rest.drop 7)) := by
      rw [ofBits]
      exact List.flatMap_cons
    have hfront : ((bit :: rest).take 8).length ≤ 8 := List.length_take_le _ _
    rw [hcons, byteBits_ofByteBits hfront, ih]
    by_cases hlast : rest.length < 7
    · -- the last byte: nothing is left for later ones
      have hwhole : (bit :: rest).take 8 = bit :: rest := List.take_of_length_le (by simp only [List.length_cons]; omega)
      have hcount : (rest.length + 1 + 7) / 8 = 1 := by omega
      rw [hwhole, List.drop_of_length_le (by omega)]
      simp [hcount]
    · have hfull : ((bit :: rest).take 8).length = 8 :=
        List.length_take_of_le (by simp only [List.length_cons]; omega)
      have hcount : 8 * (((rest.drop 7).length + 7) / 8) - (rest.drop 7).length =
          8 * (((bit :: rest).length + 7) / 8) - (bit :: rest).length := by
        rw [List.length_drop, List.length_cons]
        omega
      rw [hfull, hcount, Nat.sub_self, List.replicate_zero, List.append_nil, ← List.append_assoc]
      exact congrArg (· ++ _) (List.take_append_drop 8 (bit :: rest))

theorem length_ofBits (bits : List Bool) : (ofBits bits).length = (bits.length + 7) / 8 := by
  have hlength := congrArg List.length (toBits_ofBits bits)
  rw [length_toBits, List.length_append, List.length_replicate] at hlength
  omega

/-- **What was packed is read back** whatever bits fill the last byte up, and whatever bytes follow. -/
theorem prefix_toBits_ofBits (bits filling : List Bool) (further : List UInt8) :
    bits <+: toBits (ofBits (bits ++ filling) ++ further) := by
  rw [toBits_append, toBits_ofBits, List.append_assoc, List.append_assoc]
  exact List.prefix_append _ _

end GlyphImage.Bytes
