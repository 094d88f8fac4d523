import Inquiry.Decimal.BaseTen

/-!
Differences of base-ten numbers, rounded to 28 digits with ties to the even one. A number that is too
small to reach the digits of the other one only tips the rounding, so its own digits are not formed.
-/
namespace Inquiry.Decimal.BaseTen

/-- The number of digits that a difference has at most. -/
def differenceDigits : Nat := 28

def digitCount (n : Int) : Int := (digitsOf n.natAbs).length

/-- The sum of `x * 10 ^ d` and `y * 10 ^ e` where `e ≤ d`, close enough to be rounded to the digits of
a difference: a coefficient and an exponent. -/
def alignedSum (x d y e : Int) : Int × Int :=
  if y = 0 then (x, d)
  else if x = 0 then (y, e)
  else
    let floor := d + min (-1) (digitCount x - differenceDigits - 2)
    let (y, e) := if e + digitCount y - 1 < floor then (y.sign, floor) else (y, e)
    (x * 10 ^ (d - e).toNat + y, e)

def signed (negative : Bool) (coefficient : Nat) : Int :=
  if negative then -(coefficient : Int) else coefficient

/-- The difference; `none` where there is none: of an infinity and itself, or with a signaling "no
number". -/
def difference? (a b : BaseTen) : Option BaseTen :=
  match a, b with
  | .notANumber _ true _, _ => none
  | _, .notANumber _ true _ => none
  | .notANumber n false p, _ => some (.notANumber n false p)
  | _, .notANumber n false p => some (.notANumber n false p)
  | .infinite m, .infinite n => if m = n then none else some (.infinite m)
  | .infinite m, .finite _ _ _ => some (.infinite m)
  | .finite _ _ _, .infinite n => some (.infinite !n)
  | .finite m c d, .finite n k e =>
    let x := signed m c
    let y := signed (!n) k
    let (z, low) := if e ≤ d then alignedSum x d y e else alignedSum y e x d
    let (size, exponent) := shortened differenceDigits z.natAbs low
    some (.finite (z < 0) size exponent)

end Inquiry.Decimal.BaseTen
