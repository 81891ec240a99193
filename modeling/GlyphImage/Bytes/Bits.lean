/-
Bits packed into bytes, most significant bit first. `toBits` unpacks a byte string; `ofBits` packs eight bits to a byte
and fills the last byte up with zeros. Unpacking what was packed gives the bits back, with the filling after them.
-/

namespace GlyphImage.Bytes

/-- the eight bits of a byte -/
def byteBits (b : UInt8) : List Bool := (List.range 8).map fun i => b.toNat.testBit (7 - i)

/-- the bits of a byte string -/
def toBits (bytes : List UInt8) : List Bool := bytes.flatMap byteBits

/-- the number whose binary digits are the bits -/
def bitsNumber (bits : List Bool) : Nat := bits.foldl (fun n bit => 2 * n + bit.toNat) 0

/-- the byte whose first bits are given; the others are zero -/
def ofByteBits (bits : List Bool) : UInt8 :=
  UInt8.ofNat (bitsNumber ((bits ++ List.replicate 8 false).take 8))

/-- the bytes that hold the bits -/
def ofBits (bits : List Bool) : List UInt8 :=
  match bits with
  | [] => []
  | bit :: rest => ofByteBits ((bit :: rest).take 8) :: ofBits (rest.drop 7)
termination_by bits.length
decreasing_by simp only [List.length_cons, List.length_drop]; omega

@[simp] theorem length_byteBits (b : UInt8) : (byteBits b).length = 8 := by simp [byteBits]

@[simp] theorem length_toBits (bytes : List UInt8) : (toBits bytes).length = 8 * bytes.length := by
  induction bytes with
  | nil => rfl
  | cons b rest ih =>
    simp only [toBits, List.flatMap_cons, List.length_append, length_byteBits, List.length_cons] at ih ⊢
    omega

end GlyphImage.Bytes
