/-
Big-endian integers in byte strings. `uint16`, `int16` and `uint32` put the bytes of a field together, most significant
byte first; `ofUInt16`, `ofInt16` and `ofUInt32` take the field apart again. Both directions lose nothing:
`uint16_ofUInt16`, `ofUInt16_uint16` and their fellows.
-/

namespace GlyphImage.Bytes

/-! ## Reading fields -/

/-- the unsigned 16 bit field with these two bytes -/
def uint16 (hi lo : UInt8) : UInt16 := UInt16.ofNat (hi.toNat * 256 + lo.toNat)

/-- the signed 16 bit field with these two bytes, in two's complement -/
def int16 (hi lo : UInt8) : Int16 := (uint16 hi lo).toInt16

/-- the unsigned 32 bit field with these four bytes -/
def uint32 (a b c d : UInt8) : UInt32 :=
  UInt32.ofNat (((a.toNat * 256 + b.toNat) * 256 + c.toNat) * 256 + d.toNat)

/-! ## Writing fields -/

/-- the two bytes of an unsigned 16 bit field -/
def ofUInt16 (n : UInt16) : List UInt8 := [UInt8.ofNat (n.toNat / 256), UInt8.ofNat (n.toNat % 256)]

/-- the two bytes of a signed 16 bit field -/
def ofInt16 (n : Int16) : List UInt8 := ofUInt16 n.toUInt16

/-- the four bytes of an unsigned 32 bit field -/
def ofUInt32 (n : UInt32) : List UInt8 :=
  [UInt8.ofNat (n.toNat / 16777216), UInt8.ofNat (n.toNat / 65536 % 256), UInt8.ofNat (n.toNat / 256 % 256),
    UInt8.ofNat (n.toNat % 256)]

/-! ## Laws -/

theorem toNat_uint16 (hi lo : UInt8) : (uint16 hi lo).toNat = hi.toNat * 256 + lo.toNat := by
  have h1 := hi.toNat_lt
  have h2 := lo.toNat_lt
  simp only [uint16, UInt16.toNat_ofNat']
  omega

theorem toNat_uint32 (a b c d : UInt8) :
    (uint32 a b c d).toNat = ((a.toNat * 256 + b.toNat) * 256 + c.toNat) * 256 + d.toNat := by
  have h1 := a.toNat_lt
  have h2 := b.toNat_lt
  have h3 := c.toNat_lt
  have h4 := d.toNat_lt
  simp only [uint32, UInt32.toNat_ofNat']
  omega

@[simp] theorem length_ofUInt16 (n : UInt16) : (ofUInt16 n).length = 2 := rfl

@[simp] theorem length_ofInt16 (n : Int16) : (ofInt16 n).length = 2 := rfl

@[simp] theorem length_ofUInt32 (n : UInt32) : (ofUInt32 n).length = 4 := rfl

theorem uint16_ofUInt16 (n : UInt16) : uint16 (UInt8.ofNat (n.toNat / 256)) (UInt8.ofNat (n.toNat % 256)) = n := by
  have h := n.toNat_lt
  apply UInt16.toNat.inj
  simp only [toNat_uint16, UInt8.toNat_ofNat']
  omega

theorem ofUInt16_uint16 (hi lo : UInt8) : ofUInt16 (uint16 hi lo) = [hi, lo] := by
  have h1 := hi.toNat_lt
  have h2 := lo.toNat_lt
  simp only [ofUInt16, toNat_uint16, List.cons.injEq, and_true]
  constructor <;> apply UInt8.toNat.inj <;> simp only [UInt8.toNat_ofNat'] <;> omega

theorem uint32_ofUInt32 (n : UInt32) :
    uint32 (UInt8.ofNat (n.toNat / 16777216)) (UInt8.ofNat (n.toNat / 65536 % 256)) (UInt8.ofNat (n.toNat / 256 % 256))
      (UInt8.ofNat (n.toNat % 256)) = n := by
  have h := n.toNat_lt
  apply UInt32.toNat.inj
  simp only [toNat_uint32, UInt8.toNat_ofNat']
  omega

/-- the two bytes of a field, as reading meets them -/
theorem exists_ofUInt16 (n : UInt16) : ∃ hi lo, ofUInt16 n = [hi, lo] ∧ uint16 hi lo = n :=
  ⟨_, _, rfl, uint16_ofUInt16 n⟩

/-- the two bytes of a signed field, as reading meets them -/
theorem exists_ofInt16 (n : Int16) : ∃ hi lo, ofInt16 n = [hi, lo] ∧ int16 hi lo = n := by
  obtain ⟨hi, lo, hbytes, hvalue⟩ := exists_ofUInt16 n.toUInt16
  exact ⟨hi, lo, hbytes, by rw [int16, hvalue, Int16.toInt16_toUInt16]⟩

/-- the four bytes of a field, as reading meets them -/
theorem exists_ofUInt32 (n : UInt32) : ∃ a b c d, ofUInt32 n = [a, b, c, d] ∧ uint32 a b c d = n :=
  ⟨_, _, _, _, rfl, uint32_ofUInt32 n⟩

theorem ofInt16_int16 (hi lo : UInt8) : ofInt16 (int16 hi lo) = [hi, lo] := by
  rw [ofInt16, int16, UInt16.toUInt16_toInt16, ofUInt16_uint16]

theorem ofUInt16_injective {m n : UInt16} (h : ofUInt16 m = ofUInt16 n) : m = n := by
  rw [← uint16_ofUInt16 m, ← uint16_ofUInt16 n]
  simp only [ofUInt16, List.cons.injEq, and_true] at h
  rw [h.1, h.2]

theorem ofUInt32_uint32 (a b c d : UInt8) : ofUInt32 (uint32 a b c d) = [a, b, c, d] := by
  have h1 := a.toNat_lt
  have h2 := b.toNat_lt
  have h3 := c.toNat_lt
  have h4 := d.toNat_lt
  simp only [ofUInt32, toNat_uint32, List.cons.injEq, and_true]
  refine ⟨?_, ?_, ?_, ?_⟩ <;> apply UInt8.toNat.inj <;> simp only [UInt8.toNat_ofNat'] <;> omega

theorem ofUInt32_injective {m n : UInt32} (h : ofUInt32 m = ofUInt32 n) : m = n := by
  rw [← uint32_ofUInt32 m, ← uint32_ofUInt32 n]
  simp only [ofUInt32, List.cons.injEq, and_true] at h
  rw [h.1, h.2.1, h.2.2.1, h.2.2.2]

end GlyphImage.Bytes
