import Inquiry.Decimal.BaseTen

/-!
Exact numbers: integers, finite doubles and base-ten numbers in one form, a coefficient without zeros
at its end and a power of ten. Each number has one such form, so equal forms are equal numbers.
-/
namespace Inquiry.Decimal

structure Exact where
  negative : Bool
  coefficient : Nat
  exponent : Int
  deriving Repr, DecidableEq

namespace Exact

/-- Moves the zeros at the end of a coefficient into the exponent; `fuel` bounds their number. -/
def stripZeros : Nat → Nat → Int → Nat × Int
  | 0, c, e => (c, e)
  | fuel + 1, c, e => if c % 10 = 0 then stripZeros fuel (c / 10) (e + 1) else (c, e)

/-- The form of a number; zero has no sign. -/
def make (negative : Bool) (coefficient : Nat) (exponent : Int) : Exact :=
  if coefficient = 0 then ⟨false, 0, 0⟩
  else
    let (c, e) := stripZeros (Nat.log2 coefficient + 1) coefficient exponent
    ⟨negative, c, e⟩

def ofInt (n : Int) : Exact := make (n < 0) n.natAbs 0

/-- Below one, a power of two is a power of five over a power of ten. -/
def ofBinary (b : Binary) : Exact :=
  if 0 ≤ b.exponent then make b.negative b.num 0
  else make b.negative (b.mantissa * 5 ^ b.exponent.natAbs) b.exponent

def ofBaseTen? : BaseTen → Option Exact
  | .finite n c e => some (make n c e)
  | _ => none

/-- The power of ten above the first digit. -/
def magnitude (x : Exact) : Int := x.exponent + (digitsOf x.coefficient).length

/-- The order of absolute values. -/
def below (x y : Exact) : Bool :=
  if x.coefficient = 0 ∨ y.coefficient = 0 then x.coefficient = 0 ∧ y.coefficient ≠ 0
  else if x.magnitude = y.magnitude then
    let e := min x.exponent y.exponent
    x.coefficient * 10 ^ (x.exponent - e).toNat < y.coefficient * 10 ^ (y.exponent - e).toNat
  else x.magnitude < y.magnitude

def less (x y : Exact) : Bool :=
  match x.negative, y.negative with
  | false, false => below x y
  | true, false => true
  | false, true => false
  | true, true => below y x

end Exact

end Inquiry.Decimal
