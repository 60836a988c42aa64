import OpenHalo.Lib.Octets

namespace Octets

/-- `num / den`, rounded to the nearest integer with ties to even. -/
def roundHalfEven (num den : Nat) : Nat :=
  let quotient := num / den
  let twice := 2 * (num % den)
  if twice < den then quotient
  else if den < twice then quotient + 1
  else quotient + quotient % 2

/-- Six digits behind the point for the value `mantissa * 2 ^ exponent`. -/
def fixedPoint (mantissa : Nat) (exponent : Int) : Bytes :=
  let millionths :=
    if 0 ≤ exponent then mantissa * 10 ^ 6 * 2 ^ exponent.toNat
    else roundHalfEven (mantissa * 10 ^ 6) (2 ^ (-exponent).toNat)
  decimal (millionths / 10 ^ 6) ++ ascii "." ++ paddedDecimal 6 (millionths % 10 ^ 6)

/-- `%f` for an IEEE 754 word with `e` exponent and `f` fraction bits, as the server's own printf spells
it. -/
def floatText (e f word : Nat) : Bytes :=
  let fraction := word % 2 ^ f
  let biased := word / 2 ^ f % 2 ^ e
  let minus := if word / 2 ^ (e + f) % 2 = 1 then ascii "-" else []
  let bias : Int := 2 ^ (e - 1) - 1
  if biased = 2 ^ e - 1 then
    if fraction = 0 then minus ++ ascii "Infinity" else ascii "NaN"
  else if biased = 0 then minus ++ fixedPoint fraction (1 - bias - f)
  else minus ++ fixedPoint (2 ^ f + fraction) (biased - bias - f)

end Octets
