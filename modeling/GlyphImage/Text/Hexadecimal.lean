/-
Numbers in base sixteen: `lower` with the fewest digits and lower case letters, `upper` with upper case letters and
leading zeros up to a least width.
-/

namespace GlyphImage.Hexadecimal

/-- `number` in lower case without leading zeros -/
def lower (number : Nat) : String := String.ofList (Nat.toDigits 16 number)

/-- `number` in upper case with at least `width` digits -/
def upper (width number : Nat) : String :=
  let digits := (Nat.toDigits 16 number).map Char.toUpper
  String.ofList (List.replicate (width - digits.length) '0' ++ digits)

end GlyphImage.Hexadecimal
