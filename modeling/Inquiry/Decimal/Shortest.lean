import Inquiry.Decimal.Fixed

/-!
The shortest decimal that reads back as the same double. For each count of digits the two
neighbours of the value on that decimal grid are tried; the first grid with a neighbour inside the
interval of numbers that round to the double wins, and of two the nearer.
-/
namespace Inquiry.Decimal

/-- `digits * 10 ^ exponent`. -/
structure Scientific where
  digits : Nat
  exponent : Int
  deriving Repr, DecidableEq

namespace Shortest

/-- The exponent of the leading digit of `num / den`, found from an estimate that is off by at most
one. -/
def leadingExponent (num den : Nat) : Int :=
  let estimate := (((Nat.log2 num : Int) - (Nat.log2 den : Int)) * 30103).fdiv 100000
  let below (e : Int) : Bool := num * 10 ^ (-e).toNat < den * 10 ^ e.toNat
  if below estimate then (if below (estimate - 1) then estimate - 2 else estimate - 1)
  else if below (estimate + 1) then estimate
  else if below (estimate + 2) then estimate + 1 else estimate + 2

/-- The neighbour of the double on the grid `10 ^ grid` that lies in its interval, the nearer of
two. Everything is counted in quarters of the last binary place. -/
def onGrid? (b : Binary) (grid : Int) : Option Nat :=
  let unit := b.exponent - 2
  let u := 2 ^ unit.toNat * 10 ^ (-grid).toNat
  let g := 2 ^ (-unit).toNat * 10 ^ grid.toNat
  let value := 4 * b.mantissa * u
  let low := (4 * b.mantissa - if b.narrowBelow then 1 else 2) * u
  let high := (4 * b.mantissa + 2) * u
  let closed := b.mantissa % 2 = 0
  let inside (n : Nat) : Bool :=
    if closed then low ≤ n * g && n * g ≤ high else low < n * g && n * g < high
  let down := value / g
  let up := down + 1
  match inside down, inside up with
  | true, true =>
    let below := value - down * g
    let above := up * g - value
    some (if below < above then down else if above < below then up
      else if down % 2 = 0 then down else up)
  | true, false => some down
  | false, true => some up
  | false, false => none

/-- Tries the grids that give the value `count` digits and then one more each time. -/
def search (b : Binary) (leading : Int) : Nat → Nat → Scientific
  | 0, _ => ⟨b.mantissa, b.exponent⟩
  | tries + 1, count =>
    let grid := leading - (count : Int) + 1
    match onGrid? b grid with
    | some n => ⟨n, grid⟩
    | none => search b leading tries (count + 1)

/-- Without trailing zeros; `fuel` bounds their number. -/
def stripZeros : Nat → Scientific → Scientific
  | 0, s => s
  | fuel + 1, s =>
    if s.digits ≠ 0 ∧ s.digits % 10 = 0 then stripZeros fuel ⟨s.digits / 10, s.exponent + 1⟩ else s

end Shortest

/-- The shortest decimal of a non-zero double; seventeen digits always suffice. -/
def Binary.shortest (b : Binary) : Scientific :=
  Shortest.stripZeros 20 (Shortest.search b (Shortest.leadingExponent b.num b.den) 17 1)

/-- How the digits of a double are laid out. The point is written inside or next to the digits when
its position, counted from the first digit, is above `pointAbove` and at most `pointUpTo`;
otherwise an exponent with a sign follows. -/
structure FloatLayout where
  pointAbove : Int
  pointUpTo : Int
  exponentWidth : Nat
  notANumber : String
  infinity : String
  negativeInfinity : String

namespace FloatLayout

def exponentText (l : FloatLayout) (e : Int) : List Char :=
  (if e < 0 then '-' else '+') :: zeroPadded l.exponentWidth e.natAbs

def layDigits (l : FloatLayout) (s : Scientific) : List Char :=
  let ds := digitsOf s.digits
  let point := (ds.length : Int) + s.exponent
  if l.pointAbove < point ∧ point ≤ l.pointUpTo then
    if point ≤ 0 then '0' :: '.' :: (List.replicate (-point).toNat '0' ++ ds)
    else if 0 ≤ s.exponent then ds ++ List.replicate s.exponent.toNat '0' ++ ['.', '0']
    else ds.take point.toNat ++ '.' :: ds.drop point.toNat
  else
    let head := match ds with
      | d :: e :: rest => d :: '.' :: e :: rest
      | short => short
    head ++ 'e' :: l.exponentText (point - 1)

/-- The text of a double. -/
def text (l : FloatLayout) (x : Float) : String :=
  match Binary.ofFloat x with
  | none => if x.isNaN then l.notANumber else if x < 0 then l.negativeInfinity else l.infinity
  | some b =>
    let body := if b.isZero then ['0', '.', '0'] else l.layDigits b.shortest
    String.ofList ((if b.negative then ['-'] else []) ++ body)

end FloatLayout

/-- Doubles in messages: point form from four zeros after the point up to sixteen digits, exponent
with a sign and two digits. -/
def displayLayout : FloatLayout := ⟨-4, 16, 2, "nan", "inf", "-inf"⟩

end Inquiry.Decimal
