import Inquiry.Decimal.Fixed
import Inquiry.Text.Digit

/-!
Base-ten numbers of arbitrary precision: a sign, a coefficient and an exponent that keeps trailing
zeros apart (`12.50` is not `12.5`), with the infinities and the two kinds of "no number".
-/
namespace Inquiry.Decimal

inductive BaseTen where
  | finite (negative : Bool) (coefficient : Nat) (exponent : Int)
  | infinite (negative : Bool)
  /-- `payload` is the diagnostic number that may follow; a signaling one refuses conversion. -/
  | notANumber (negative signaling : Bool) (payload : Nat)
  deriving Repr, DecidableEq, Inhabited

namespace BaseTen

def digitValue (c : Char) : Nat := c.toNat - '0'.toNat

def natOfDigits (ds : List Char) : Nat := ds.foldl (fun n c => 10 * n + digitValue c) 0

/-- An exponent after its letter: an optional sign and at least one digit. -/
def readExponent? (s : List Char) : Option Int :=
  let (negative, ds) := match s with
    | '-' :: r => (true, r)
    | '+' :: r => (false, r)
    | r => (false, r)
  if ds.isEmpty || !ds.all Char.isDigit then none
  else
    let n : Int := natOfDigits ds
    some (if negative then -n else n)

/-- Digits with at most one point, then an optional exponent. -/
def readFinite? (negative : Bool) (s : List Char) : Option BaseTen :=
  let whole := s.takeWhile Char.isDigit
  let rest := s.dropWhile Char.isDigit
  let (part, rest) := match rest with
    | '.' :: r => (r.takeWhile Char.isDigit, r.dropWhile Char.isDigit)
    | r => ([], r)
  if whole.isEmpty && part.isEmpty then none
  else
    let shift : Int := -(part.length : Int)
    let coefficient := natOfDigits (whole ++ part)
    match rest with
    | [] => some (.finite negative coefficient shift)
    | c :: r =>
      if c = 'e' ∨ c = 'E' then
        (readExponent? r).map fun e => .finite negative coefficient (e + shift)
      else none

/-- Reads `text`, in digits of any script, with blanks around it and underscores inside ignored. -/
def ofText? (text : String) : Option BaseTen :=
  let s := ((Text.Chars.trim text.toList).filter (· ≠ '_')).map Text.plainDigit
  let (negative, body) := match s with
    | '-' :: r => (true, r)
    | '+' :: r => (false, r)
    | r => (false, r)
  let lowered := body.map Char.toLower
  let payload? (signaling : Bool) (ds : List Char) : Option BaseTen :=
    if ds.all Char.isDigit then some (.notANumber negative signaling (natOfDigits ds)) else none
  match lowered with
  | ['i', 'n', 'f'] => some (.infinite negative)
  | ['i', 'n', 'f', 'i', 'n', 'i', 't', 'y'] => some (.infinite negative)
  | 'n' :: 'a' :: 'n' :: ds => payload? false ds
  | 's' :: 'n' :: 'a' :: 'n' :: ds => payload? true ds
  | _ => readFinite? negative body

/-- A point inside the digits while the exponent is not positive and the number not too small, else
one digit before the point and an exponent with a sign. -/
def finiteText (coefficient : Nat) (exponent : Int) : List Char :=
  let ds := digitsOf coefficient
  let adjusted := exponent + ds.length - 1
  if exponent = 0 then ds
  else if exponent < 0 ∧ -6 ≤ adjusted then
    let point := (ds.length : Int) + exponent
    if point ≤ 0 then '0' :: '.' :: (List.replicate (-point).toNat '0' ++ ds)
    else ds.take point.toNat ++ '.' :: ds.drop point.toNat
  else
    let head := match ds with
      | d :: e :: rest => d :: '.' :: e :: rest
      | short => short
    head ++ 'E' :: (if adjusted < 0 then '-' else '+') :: digitsOf adjusted.natAbs

def text (d : BaseTen) : String :=
  let signed (negative : Bool) (cs : List Char) : String :=
    String.ofList (if negative then '-' :: cs else cs)
  match d with
  | .finite n c e => signed n (finiteText c e)
  | .infinite n => signed n "Infinity".toList
  | .notANumber n s p =>
    signed n ((if s then "sNaN" else "NaN").toList ++ if p = 0 then [] else digitsOf p)

/-- Keeps at most `keep` digits. -/
def shortened (keep coefficient : Nat) (exponent : Int) : Nat × Int :=
  let extra := (digitsOf coefficient).length - keep
  if extra = 0 then (coefficient, exponent)
  else
    let c := roundDiv coefficient (10 ^ extra)
    if (digitsOf c).length > keep then (c / 10, exponent + extra + 1) else (c, exponent + extra)

/-- The nearest number of the 128-bit decimal format: 34 digits, exponents from -6176 to 6111. -/
def to128 : BaseTen → BaseTen
  | .finite n c e =>
    let (c, e) := shortened 34 c e
    let (c, e) := if e < -6176 then (roundDiv c (10 ^ (min (-6176 - e).toNat 40)), -6176) else (c, e)
    if c = 0 then .finite n 0 (min e 6111)
    else if 6144 < e + (digitsOf c).length - 1 then .infinite n
    else if 6111 < e then .finite n (c * 10 ^ (e - 6111).toNat) 6111
    else .finite n c e
  | .notANumber n s p => .notANumber n s p
  | .infinite n => .infinite n

/-- The double nearest to a finite number. -/
def finiteFloat (negative : Bool) (coefficient : Nat) (exponent : Int) : Float :=
  let adjusted := exponent + (digitsOf coefficient).length
  let x :=
    if coefficient = 0 ∨ adjusted < -400 then 0.0
    else if 400 < adjusted then 1.0 / 0.0
    else Float.ofScientific coefficient (exponent < 0) exponent.natAbs
  if negative then -x else x

/-- The nearest double; `none` for a signaling "no number". -/
def toFloat? : BaseTen → Option Float
  | .finite n c e => some (finiteFloat n c e)
  | .infinite n => some (if n then -1.0 / 0.0 else 1.0 / 0.0)
  | .notANumber _ signaling _ => if signaling then none else some (0.0 / 0.0)

def isInfinite : BaseTen → Bool
  | .infinite _ => true
  | _ => false

/-- Without the places after the point; `none` for what is not finite. -/
def truncate? : BaseTen → Option Int
  | .finite n c e =>
    let whole : Int :=
      if 0 ≤ e then (c * 10 ^ e.toNat : Nat)
      else if (digitsOf c).length < e.natAbs then 0
      else (c / 10 ^ e.natAbs : Nat)
    some (if n then -whole else whole)
  | _ => none

/-- The double that a text writes: digits with an optional point and exponent, or the name of an
infinite value or of no number, in any case and with a sign. -/
def readDouble? (s : List Char) : Option Float :=
  let (negative, body) := match s with
    | '-' :: r => (true, r)
    | '+' :: r => (false, r)
    | r => (false, r)
  match body.map Char.toLower with
  | ['n', 'a', 'n'] => some (0.0 / 0.0)
  | ['i', 'n', 'f'] => (infinite negative).toFloat?
  | ['i', 'n', 'f', 'i', 'n', 'i', 't', 'y'] => (infinite negative).toFloat?
  | _ => (readFinite? negative body).bind toFloat?

end BaseTen

end Inquiry.Decimal
