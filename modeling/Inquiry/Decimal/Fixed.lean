import Inquiry.Decimal.Binary

/-!
Numbers with a fixed count of decimal places, rounded from the exact value with ties to the even
neighbour, and digits in groups of three.
-/
namespace Inquiry.Decimal

/-- The integer nearest to `num / den`; a tie goes to the even one. -/
def roundDiv (num den : Nat) : Nat :=
  let q := num / den
  let twice := 2 * (num % den)
  if twice < den then q
  else if den < twice then q + 1
  else if q % 2 = 0 then q else q + 1

theorem roundDiv_exact {num den : Nat} (hd : 0 < den) (h : num % den = 0) :
    roundDiv num den = num / den := by
  simp [roundDiv, h, hd]

def digitsOf (n : Nat) : List Char := Nat.toDigits 10 n

/-- At least `width` characters, zeros in front. -/
def zeroPadded (width n : Nat) : List Char :=
  let ds := digitsOf n
  List.replicate (width - ds.length) '0' ++ ds

/-- A comma between groups of three, counted from the right; the digits come reversed. -/
def groupReversed : List Char → List Char
  | a :: b :: c :: d :: rest => a :: b :: c :: ',' :: groupReversed (d :: rest)
  | ds => ds

/-- Thousands separators in a run of digits. -/
def grouped (ds : List Char) : List Char := (groupReversed ds.reverse).reverse

def groupedInt (n : Int) : String :=
  String.ofList ((if n < 0 then ['-'] else []) ++ grouped (digitsOf n.natAbs))

namespace Binary

/-- The absolute value in units of `10 ^ -places`. -/
def scaled (b : Binary) (places : Nat) : Nat := roundDiv (b.num * 10 ^ places) b.den

/-- Sign, whole digits and the digits of the places. -/
def fixedParts (b : Binary) (places : Nat) : Bool × List Char × List Char :=
  let n := b.scaled places
  (b.negative, digitsOf (n / 10 ^ places),
    if places = 0 then [] else zeroPadded places (n % 10 ^ places))

end Binary

/-- The value with `places` decimals. -/
def fixed (x : Float) (places : Nat) : String :=
  match Binary.ofFloat x with
  | none => if x.isNaN then "nan" else if x < 0 then "-inf" else "inf"
  | some b =>
    let (neg, whole, part) := b.fixedParts places
    String.ofList ((if neg then ['-'] else []) ++ whole ++ (if part.isEmpty then [] else '.' :: part))

/-- The double nearest to `x` rounded to `places` decimals. -/
def roundTo (x : Float) (places : Nat) : Float :=
  match Binary.ofFloat x with
  | none => x
  | some b =>
    let y := Float.ofScientific (b.scaled places) true places
    if b.negative then -y else y

end Inquiry.Decimal
