/-!
Doubles as exact numbers: a finite double is a sign and `mantissa * 2 ^ exponent`, read off its
bits.
-/
namespace Inquiry.Decimal

-- A power here is that of the natural numbers alone, also where their monoid is in scope; a literal
-- exponent needs its type for that.
attribute [scoped instance (high)] instPowNat

/-- A finite double. `narrowBelow` marks a power of two, whose lower neighbour is half as far away
as the upper one. -/
structure Binary where
  negative : Bool
  mantissa : Nat
  exponent : Int
  narrowBelow : Bool
  deriving Repr, DecidableEq

/-- The number that the bits stand for; `none` for the infinities and for what is no number. -/
def Binary.ofBits (bits : Nat) : Option Binary :=
  let negative := bits / 2 ^ (63 : Nat) % 2 == 1
  let field : Nat := bits / 2 ^ (52 : Nat) % 2 ^ (11 : Nat)
  let fraction : Nat := bits % 2 ^ (52 : Nat)
  if field = 2047 then none
  else if field = 0 then some ⟨negative, fraction, -1074, false⟩
  else some ⟨negative, 2 ^ (52 : Nat) + fraction, (field : Int) - 1075, fraction == 0 && field != 1⟩

def Binary.ofFloat (x : Float) : Option Binary := Binary.ofBits x.toBits.toNat

namespace Binary

/-- Numerator of the absolute value over `den`. -/
def num (b : Binary) : Nat := b.mantissa * 2 ^ b.exponent.toNat

def den (b : Binary) : Nat := 2 ^ (-b.exponent).toNat

theorem den_pos (b : Binary) : 0 < b.den := Nat.two_pow_pos _

def isZero (b : Binary) : Bool := b.mantissa == 0

/-- Toward zero. -/
def truncate (b : Binary) : Int :=
  let n : Int := (b.num / b.den : Nat)
  if b.negative then -n else n

def isWhole (b : Binary) : Bool := b.num % b.den == 0

/-- Whether the double lies below the integer `n`. -/
def ltInt (b : Binary) (n : Int) : Bool :=
  let v : Int := if b.negative then -(b.num : Int) else b.num
  decide (v < n * b.den)

/-- Whether the integer `n` lies below the double. -/
def gtInt (b : Binary) (n : Int) : Bool :=
  let v : Int := if b.negative then -(b.num : Int) else b.num
  decide (n * b.den < v)

end Binary

end Inquiry.Decimal
