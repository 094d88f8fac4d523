import Inquiry.Calendar
import Inquiry.Decimal.Exact

/-!
Document values: what a stored document, a stage of a pipeline or a result row is made of. A mapping
keeps the order of its entries, and its keys need not be text. Integers are exact and distinct from
doubles.
-/
namespace Inquiry

inductive Value where
  | null
  | bool (b : Bool)
  | int (n : Int)
  /-- An integer stored in 64 bits. -/
  | int64 (n : Int)
  | float (x : Float)
  | str (s : String)
  | moment (m : Moment)
  | day (d : Day)
  /-- A document id, as hexadecimal text. -/
  | objectId (hex : String)
  | decimal128 (d : Decimal.BaseTen)
  | decimal (d : Decimal.BaseTen)
  | bytes (bs : List UInt8)
  | duration (d : Duration)
  | list (items : List Value)
  /-- A fixed sequence; it reads as a list, but a pipeline has to be a list. -/
  | tuple (items : List Value)
  | set (items : List Value)
  | dict (entries : List (Value × Value))
  deriving Inhabited, Repr

namespace Value

mutual

/-- Whether two values are written alike: of one type and equal in it. -/
def beq : Value → Value → Bool
  | .null, .null => true
  | .bool a, .bool b => a == b
  | .int m, .int n => m == n
  | .int64 m, .int64 n => m == n
  | .float x, .float y => x == y
  | .str s, .str t => s == t
  | .moment m, .moment n => m == n
  | .day d, .day e => d == e
  | .objectId a, .objectId b => a == b
  | .decimal128 d, .decimal128 e => d == e
  | .decimal d, .decimal e => d == e
  | .bytes a, .bytes b => a == b
  | .duration d, .duration e => d == e
  | .list xs, .list ys => beqItems xs ys
  | .tuple xs, .tuple ys => beqItems xs ys
  | .set xs, .set ys => beqItems xs ys
  | .dict es, .dict fs => beqEntries es fs
  | _, _ => false

def beqItems : List Value → List Value → Bool
  | [], [] => true
  | x :: xs, y :: ys => beq x y && beqItems xs ys
  | _, _ => false

def beqEntries : List (Value × Value) → List (Value × Value) → Bool
  | [], [] => true
  | (k, v) :: es, (l, w) :: fs => beq k l && beq v w && beqEntries es fs
  | _, _ => false

end

instance : BEq Value := ⟨beq⟩

/-- A mapping with text keys. -/
def doc (fields : List (String × Value)) : Value := .dict (fields.map fun f => (.str f.1, f.2))

def strs (ss : List String) : Value := .list (ss.map .str)

def ofNat (n : Nat) : Value := .int n

def optStr : Option String → Value
  | none => .null
  | some s => .str s

/-- The integer behind the three ways to write one. -/
def wholeNumber? : Value → Option Int
  | .bool b => some (if b then 1 else 0)
  | .int n => some n
  | .int64 n => some n
  | .float x =>
    match Decimal.Binary.ofFloat x with
    | some b => if b.isWhole then some b.truncate else none
    | none => none
  | _ => none

/-- The exact number that a value is, of whatever type. -/
def baseTen? : Value → Option Decimal.Exact
  | .bool b => some (.ofInt (if b then 1 else 0))
  | .int n => some (.ofInt n)
  | .int64 n => some (.ofInt n)
  | .float x => (Decimal.Binary.ofFloat x).map .ofBinary
  | .decimal d => Decimal.Exact.ofBaseTen? d
  | _ => none

/-- The infinite number that a value is: whether it is the negative one. -/
def infinite? : Value → Option Bool
  | .float x => if (Decimal.Binary.ofFloat x).isSome || x.isNaN then none else some (x < 0)
  | .decimal (.infinite negative) => some negative
  | _ => none

mutual

/-- Whether two values are equal: numbers are whatever their type, and moments wherever they are. -/
def same (a b : Value) : Bool :=
  match a.baseTen?, b.baseTen? with
  | some x, some y => x == y
  | none, none =>
    match a, b with
    | .tuple xs, .tuple ys => sameItems xs ys
    | .moment m, .moment n => m.same n
    | a, b =>
      match a.infinite?, b.infinite? with
      | some x, some y => x == y
      | _, _ => a == b
  | _, _ => false

def sameItems : List Value → List Value → Bool
  | [], [] => true
  | x :: xs, y :: ys => same x y && sameItems xs ys
  | _, _ => false

end

/-- Replaces the value of a key that is there, in its place, or adds the entry at the end. -/
def insertEntry (key value : Value) : List (Value × Value) → List (Value × Value)
  | [] => [(key, value)]
  | (k, v) :: rest =>
    if same k key then (k, value) :: rest else (k, v) :: insertEntry key value rest

/-- A mapping from pairs: a repeated key keeps its first place and takes its last value. -/
def ofPairs (pairs : List (Value × Value)) : Value :=
  .dict (pairs.foldl (fun es p => insertEntry p.1 p.2 es) [])

/-- A set of so many items lays them out in this many places, of which it fills three in five. -/
def places (count : Nat) : Nat :=
  ([8, 32, 128, 512].find? fun n => 5 * count < 3 * (n - 1)).getD 2048

/-- The place of a whole number among `n`: its remainder, where minus one counts as minus two. -/
def placeOf (n : Nat) (v : Value) : Int :=
  let k := v.wholeNumber?.getD 0
  (if k = -1 then -2 else k) % n

/-- One of each item; whole numbers come by their places. -/
def setOf (items : List Value) : Value :=
  let distinct := items.foldl (fun xs x => if xs.any (same x) then xs else xs ++ [x]) []
  let n := places distinct.length
  if distinct.all (·.wholeNumber?.isSome) then
    .set (distinct.mergeSort fun a b => placeOf n a ≤ placeOf n b)
  else .set distinct

/-- The value under a text key. -/
def lookup (key : String) : List (Value × Value) → Option Value
  | [] => none
  | (.str k, v) :: rest => if k = key then some v else lookup key rest
  | _ :: rest => lookup key rest

/-- The value under a text key of a mapping; any other value has none. -/
def get? (v : Value) (key : String) : Option Value :=
  match v with
  | .dict entries => lookup key entries
  | _ => none

/-- The same, with `null` for what is not there. -/
def getD (v : Value) (key : String) : Value := (v.get? key).getD .null

def isDict : Value → Bool
  | .dict _ => true
  | _ => false

def isNull : Value → Bool
  | .null => true
  | _ => false

def str? : Value → Option String
  | .str s => some s
  | _ => none

/-- Everything counts as given except null, false, zero and what is empty. -/
def isGiven : Value → Bool
  | .null => false
  | .bool b => b
  | .int n => n != 0
  | .int64 n => n != 0
  | .float x => x != 0
  | .str s => !s.isEmpty
  | .decimal (.finite _ c _) => c != 0
  | .bytes bs => !bs.isEmpty
  | .duration d => d.micros != 0
  | .list xs => !xs.isEmpty
  | .tuple xs => !xs.isEmpty
  | .set xs => !xs.isEmpty
  | .dict es => !es.isEmpty
  | _ => true

@[simp] theorem get?_doc_nil (key : String) : (doc []).get? key = none := rfl

@[simp] theorem get?_doc_cons (key k : String) (v : Value) (fs : List (String × Value)) :
    (doc ((k, v) :: fs)).get? key = if k = key then some v else (doc fs).get? key := rfl

end Value

end Inquiry
