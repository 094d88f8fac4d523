import Inquiry.Decimal.Nearest
import Inquiry.Fault

/-!
Numbers as they are given: integers are exact, and stay so until a double joins them. Comparison is
exact also between the two.
-/
namespace Inquiry

inductive Number where
  | int (n : Int)
  | float (x : Float)
  deriving Repr, BEq, Inhabited

namespace Number

/-- The nearest double; an integer beyond the doubles has none. -/
def toFloat? : Number → Option Float
  | .int n => Decimal.nearest? n 1
  | .float x => some x

/-- The same with an infinite value for such an integer. -/
def toFloat : Number → Float
  | .int n => (Decimal.nearest? n 1).getD (if n < 0 then -1.0 / 0.0 else 1.0 / 0.0)
  | .float x => x

def toValue : Number → Value
  | .int n => .int n
  | .float x => .float x

/-- The number behind a value; truth values count as zero and one. -/
def ofValue? : Value → Option Number
  | .bool b => some (.int (if b then 1 else 0))
  | .int n => some (.int n)
  | .int64 n => some (.int n)
  | .float x => some (.float x)
  | _ => none

def sub : Number → Number → Number
  | .int m, .int n => .int (m - n)
  | a, b => .float (a.toFloat - b.toFloat)

/-- Why a difference cannot be told: a double joins an integer that is beyond the doubles. -/
def subDefect? (a b : Number) : Option Defect :=
  match a, b with
  | .int _, .int _ => none
  | a, b => if a.toFloat?.isSome && b.toFloat?.isSome then none else some .integerRange

def less : Number → Number → Bool
  | .int m, .int n => m < n
  | .float x, .float y => x < y
  | .int m, .float y =>
    match Decimal.Binary.ofFloat y with
    | some b => b.gtInt m
    | none => 0 < y
  | .float x, .int n =>
    match Decimal.Binary.ofFloat x with
    | some b => b.ltInt n
    | none => x < 0

instance : Sub Number := ⟨sub⟩

instance : LT Number := ⟨fun a b => less a b = true⟩

instance (a b : Number) : Decidable (a < b) := inferInstanceAs (Decidable (less a b = true))

end Number

/-- The double nearest to a value that is a number. -/
def Value.nearestFloat? : Value → Option Float
  | .decimal d => d.toFloat?
  | v => (Number.ofValue? v).bind (·.toFloat?)

end Inquiry
