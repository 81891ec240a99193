/-
Quotients written with a fixed number of decimals. The value is exact until the last step: `roundDiv` rounds once, to
the nearest whole number of the last decimal, and a tie goes to the even neighbour.
-/

namespace GlyphImage.Fixed

/-- `num / den` rounded to the nearest whole number, a tie to the even one -/
def roundDiv (num den : Nat) : Nat :=
  let whole := num / den
  let twice := 2 * (num % den)
  if twice < den ∨ (twice = den ∧ whole % 2 = 0) then whole else whole + 1

/-- `digits` with leading zeros up to `width` -/
def padLeft (width : Nat) (digits : List Char) : List Char :=
  List.replicate (width - digits.length) '0' ++ digits

/-- `num / den` with `places` decimals; a negative quotient keeps its sign when it rounds to zero -/
def render (places : Nat) (num : Int) (den : Nat) : String :=
  let scaled := roundDiv (num.natAbs * Nat.pow 10 places) den
  let sign := if num < 0 then ['-'] else []
  String.ofList (sign ++ Nat.toDigits 10 (scaled / Nat.pow 10 places) ++ '.' ::
    padLeft places (Nat.toDigits 10 (scaled % Nat.pow 10 places)))

end GlyphImage.Fixed
