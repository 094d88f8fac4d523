import Inquiry.Decimal.Fixed

/-!
The double nearest to a quotient of integers; a tie goes to the even mantissa. A quotient beyond the
range of doubles has none.
-/
namespace Inquiry.Decimal

/-- The exponent at which a quotient has a mantissa of 53 bits, or the least one that doubles have. -/
def mantissaExponent (num den : Nat) : Int :=
  let e := (Nat.log2 num : Int) - (Nat.log2 den : Int) - 52
  let short := num * 2 ^ (-e).toNat < 2 ^ (52 : Nat) * (den * 2 ^ e.toNat)
  max (if short then e - 1 else e) (-1074)

/-- The bits of `mantissa * 2 ^ exponent`, for a mantissa of at most 53 bits that only the least
exponent lets have less. -/
def bitsOf (negative : Bool) (mantissa : Nat) (exponent : Int) : Nat :=
  let body :=
    if mantissa < 2 ^ (52 : Nat) then mantissa
    else (exponent + 1075).toNat * 2 ^ (52 : Nat) + (mantissa - 2 ^ (52 : Nat))
  (if negative then 2 ^ (63 : Nat) else 0) + body

/-- The double nearest to `num / den`. -/
def nearest? (num : Int) (den : Nat) : Option Float :=
  if num = 0 then some 0.0
  else
    let e := mantissaExponent num.natAbs den
    let m := roundDiv (num.natAbs * 2 ^ (-e).toNat) (den * 2 ^ e.toNat)
    let (m, e) := if m = 2 ^ (53 : Nat) then (2 ^ (52 : Nat), e + 1) else (m, e)
    if 971 < e then none
    else some (Float.ofBits (UInt64.ofNat (bitsOf (num < 0) m e)))

end Inquiry.Decimal
