import Inquiry.Recommendation.Cache
import Inquiry.Rows.Path
import Inquiry.Value.Difference

/-!
The cache under a clock that shows any value: mostly a number of seconds, but moments and durations
tell ages just as well. Where the age of an entry or its order among others cannot be told, the
operation that asks for it is a defect and changes nothing; otherwise it is the cache's own.
-/
namespace Inquiry.Recommendation.Cache

/-- The difference of two times; null where there is none. -/
instance : Sub Value := ⟨fun a b => (Value.difference a b).toOption.getD .null⟩

/-- The order of times; none comes before the other where the order cannot be told. -/
instance : LT Value := ⟨fun a b => (Value.less a b).toOption = some true⟩

instance (a b : Value) : Decidable (a < b) :=
  inferInstanceAs (Decidable ((Value.less a b).toOption = some true))

def defect? {α : Type} : Except Defect α → Option Defect
  | .error d => some d
  | .ok _ => none

/-- Why it cannot be told whether a slot has expired. -/
def ageDefect? (c : Cache Value) (now : Value) (s : Slot Value) : Option Defect :=
  defect? do Value.greater (← Value.difference now s.created) c.ttl

/-- Why it cannot be told which of the slots, and one more, was made earliest. -/
def orderDefect? (best : Slot Value) : List (Slot Value) → Option Defect
  | [] => none
  | s :: rest =>
    match Value.less s.created best.created with
    | .error d => some d
    | .ok _ => orderDefect? (earlier best s) rest

/-- Keeps an entry under a new id. -/
def putAt (c : Cache Value) (id : String) (entry : Recommendation) (now : Value) :
    Except Defect (Cache Value) :=
  match c.slots with
  | [] => .ok (c.put id entry now)
  | s :: rest =>
    match if c.capacity ≤ c.size then orderDefect? s rest else none with
    | some d => .error d
    | none => .ok (c.put id entry now)

/-- Reads an entry. An id that is no text finds none, and has to be one that could be a key. -/
def readAt (c : Cache Value) (id : Value) (now : Value) :
    Except Defect (Cache Value × Option Recommendation) := do
  let name := (← Rows.asKey id).str?
  match (name.bind c.slot?).bind (c.ageDefect? now), name with
  | some d, _ => .error d
  | none, some name => .ok (c.get name now)
  | none, none => .ok ({ c with misses := c.misses + 1 }, none)

/-- Sweeps the cache. -/
def sweepAt (c : Cache Value) (now : Value) : Except Defect (Cache Value × Nat) :=
  match c.slots.findSome? (c.ageDefect? now) with
  | some d => .error d
  | none => .ok (c.sweep now)

end Inquiry.Recommendation.Cache
