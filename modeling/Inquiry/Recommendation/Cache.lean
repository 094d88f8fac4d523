import Inquiry.Log
import Inquiry.Plan.Hint

/-!
The recommendation cache: what is needed to draw the charts of an answer again, under an id. An entry
can be read until it is older than the time to live; a full cache gives up its oldest entry for a
new one. Time is any type with a difference and an order.
-/
namespace Inquiry

/-- What is kept of an answer. -/
structure Recommendation where
  query : String
  primary : String
  pipeline : List Value
  interpretation : String
  hints : List Hint
  deriving Repr, BEq, Inhabited

/-- The hint with an id. -/
def Recommendation.hint? (r : Recommendation) (id : String) : Option Hint :=
  r.hints.find? fun h => h.id = id

namespace Recommendation

structure Slot (T : Type) where
  id : String
  entry : Recommendation
  created : T
  deriving Repr, BEq

structure Cache (T : Type) where
  /-- The greatest age at which an entry can still be read. -/
  ttl : T
  /-- The number of entries at which a new one drives out an old one. -/
  capacity : Int
  /-- The entries, in the order in which they came. -/
  slots : List (Slot T)
  hits : Nat
  misses : Nat
  swept : Nat
  deriving Repr, BEq

namespace Cache

variable {T : Type}

def empty (ttl : T) (capacity : Int) : Cache T := ⟨ttl, capacity, [], 0, 0, 0⟩

def size (c : Cache T) : Nat := c.slots.length

/-- The slot with an id. -/
def slot? (c : Cache T) (id : String) : Option (Slot T) := c.slots.find? fun s => s.id = id

/-- The slots without the one that has the id. -/
def without (slots : List (Slot T)) (id : String) : List (Slot T) :=
  slots.eraseP fun s => s.id = id

section Age

variable [Sub T] [LT T] [DecidableLT T]

def isExpired (c : Cache T) (now : T) (s : Slot T) : Bool := c.ttl < now - s.created

/-- The one of two slots that was made earlier; the first one if neither was. -/
def earlier (a b : Slot T) : Slot T := if b.created < a.created then b else a

/-- The slot that was made earliest, and of several the first. -/
def oldest? : List (Slot T) → Option (Slot T)
  | [] => none
  | s :: rest => some (rest.foldl earlier s)

def dropOldest (slots : List (Slot T)) : List (Slot T) :=
  match oldest? slots with
  | none => []
  | some s => without slots s.id

/-- Keeps an entry under a new id. -/
def put (c : Cache T) (id : String) (entry : Recommendation) (now : T) : Cache T :=
  let kept := if c.capacity ≤ c.size then dropOldest c.slots else c.slots
  { c with slots := kept ++ [⟨id, entry, now⟩] }

/-- Reads an entry; one that has expired is removed instead. -/
def get (c : Cache T) (id : String) (now : T) : Cache T × Option Recommendation :=
  match c.slot? id with
  | none => ({ c with misses := c.misses + 1 }, none)
  | some s =>
    if c.isExpired now s then
      ({ c with slots := without c.slots id, misses := c.misses + 1 }, none)
    else ({ c with hits := c.hits + 1 }, some s.entry)

/-- Removes what has expired, and tells how many entries that were. -/
def sweep (c : Cache T) (now : T) : Cache T × Nat :=
  let expired := c.slots.countP (c.isExpired now)
  ({ c with slots := c.slots.filter fun s => !c.isExpired now s, swept := c.swept + expired },
    expired)

end Age

def clear (c : Cache T) : Cache T × Nat := ({ c with slots := [] }, c.size)

/-- The part of the reads that found an entry, with three places. -/
def hitRate (c : Cache T) : Float :=
  let total := c.hits + c.misses
  if total = 0 then 0.0 else Decimal.roundTo (Float.ofNat c.hits / Float.ofNat total) 3

def stats (time : T → Value) (c : Cache T) : Value :=
  .doc [("size", .ofNat c.size), ("max_size", .int c.capacity), ("ttl_seconds", time c.ttl),
    ("hits", .ofNat c.hits), ("misses", .ofNat c.misses), ("swept", .ofNat c.swept),
    ("hit_rate", .float c.hitRate)]

end Cache

/-- What a sweep logs. -/
def sweepLog (removed : Nat) : List Log.Line :=
  if removed = 0 then []
  else [Log.info .recommendations ("Swept " ++ toString removed ++ " expired recommendation(s)")]

/-- The id of the `n`-th entry, 32 hexadecimal digits. Tokens of that form are drawn at random; here
they are counted, so that a run can be repeated. -/
def idOf (n : Nat) : String := String.ofList (Text.hexDigits 32 n)

end Recommendation

end Inquiry
