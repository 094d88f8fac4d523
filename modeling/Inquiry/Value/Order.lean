import Inquiry.Fault

/-!
The order of values: numbers by size, texts and bytes character by character, days, moments and
durations by time, tuples and lists by the first items that differ, sets by what they hold. Values
of different kinds have no order, which is a defect of whoever asks for it. A sort asks for as few
comparisons as an insertion into a sorted list needs, so values without an order can stay unnoticed
where nothing compares them.
-/
namespace Inquiry.Value

def isNumber : Value → Bool
  | .bool _ => true
  | .int _ => true
  | .int64 _ => true
  | .float _ => true
  | .decimal _ => true
  | _ => false

/-- A decimal; among decimals, what is no number has no order. -/
def isDecimal : Value → Bool
  | .decimal _ => true
  | _ => false

/-- A number on the line from one infinity to the other. -/
inductive Place where
  | bottom
  | at (x : Decimal.Exact)
  | top
  deriving Repr, DecidableEq

def Place.less : Place → Place → Bool
  | .at x, .at y => x.less y
  | .bottom, .bottom => false
  | .bottom, _ => true
  | .at _, .top => true
  | _, _ => false

/-- The place of a number; what is no number has none. -/
def place? (v : Value) : Option Place :=
  match v.baseTen?, v.infinite? with
  | some x, _ => some (.at x)
  | none, some true => some .bottom
  | none, some false => some .top
  | none, none => none

def numberLess (a b : Value) : Except Defect Bool :=
  match a.place?, b.place? with
  | some x, some y => .ok (x.less y)
  | _, _ => if a.isDecimal || b.isDecimal then .error .undefinedDecimal else .ok false

def momentLess (m n : Moment) : Except Defect Bool :=
  match m.instant?, n.instant? with
  | some a, some b => .ok (a < b)
  | none, none => .ok (m.clockMicros < n.clockMicros)
  | _, _ => .error .mixedClocks

mutual

/-- Whether the first value comes before the second. -/
def less (a b : Value) : Except Defect Bool :=
  if a.isNumber && b.isNumber then numberLess a b
  else
    match a, b with
    | .str s, .str t => .ok (s < t)
    | .bytes s, .bytes t => .ok (s < t)
    | .moment m, .moment n => momentLess m n
    | .day d, .day e => .ok (d.toOrdinal < e.toOrdinal)
    | .moment _, .day _ => .error .dayAndMoment
    | .day _, .moment _ => .error .dayAndMoment
    | .duration d, .duration e => .ok (d.micros < e.micros)
    | .objectId s, .objectId t => .ok (s < t)
    | .tuple xs, .tuple ys => lessItems xs ys
    | .list xs, .list ys => lessItems xs ys
    | .set xs, .set ys => .ok (xs.length < ys.length && xs.all fun x => ys.any (same x))
    | a, b => .error (.notOrdered a.fullTypeName b.fullTypeName)

def lessItems : List Value → List Value → Except Defect Bool
  | [], [] => .ok false
  | [], _ :: _ => .ok true
  | _ :: _, [] => .ok false
  | x :: xs, y :: ys => if same x y then lessItems xs ys else less x y

end

/-- Whether the first value comes after the second. -/
def greater (a b : Value) : Except Defect Bool :=
  match less b a with
  | .error (.notOrdered right left) => .error (.notGreater left right)
  | answer => answer

/-- The values at the start that go on ascending, or descending, from `last`; and the rest. -/
def run (descending : Bool) (last : Value) : List Value → Except Defect (List Value × List Value)
  | [] => .ok ([], [])
  | v :: vs =>
    match less v last with
    | .error d => .error d
    | .ok b =>
      if b = descending then (run descending v vs).map fun (r, rest) => (v :: r, rest)
      else .ok ([], v :: vs)

/-- The place of a value in sorted ones, after those that it equals, by halving; `fuel` bounds the
number of halvings. -/
def insertionPoint (v : Value) (sorted : List Value) : Nat → Nat → Nat → Except Defect Nat
  | 0, low, _ => .ok low
  | fuel + 1, low, high =>
    if high ≤ low then .ok low
    else
      let middle := low + (high - low) / 2
      match sorted[middle]? with
      | none => .ok low
      | some w =>
        match less v w with
        | .error d => .error d
        | .ok true => insertionPoint v sorted fuel low middle
        | .ok false => insertionPoint v sorted fuel (middle + 1) high

def insertAll (sorted : List Value) : List Value → Except Defect (List Value)
  | [] => .ok sorted
  | v :: vs =>
    match insertionPoint v sorted (sorted.length + 1) 0 sorted.length with
    | .error d => .error d
    | .ok n => insertAll (sorted.take n ++ v :: sorted.drop n) vs

/-- The values in ascending order. The run that they start with is taken as it is, or turned round. -/
def sorted : List Value → Except Defect (List Value)
  | a :: b :: rest => do
    let descending ← less b a
    let (more, left) ← run descending b rest
    let start := a :: b :: more
    insertAll (if descending then start.reverse else start) left
  | short => .ok short

end Inquiry.Value
