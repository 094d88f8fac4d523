import Inquiry.Fault
import Inquiry.Text.Utf8

/-!
Values as they are sent: sets and tuples as lists, times and decimals as texts, bytes as the text that
they encode, keys as texts, and doubles that are not finite as null. An id or a 128-bit decimal has no
such form, nor have bytes that are no UTF-8.
-/
namespace Inquiry.Server

def keyFloat (x : Float) : String :=
  if (Decimal.Binary.ofFloat x).isSome then Decimal.displayLayout.text x else "None"

mutual

/-- The text of a key; the parts of a tuple have commas between them. -/
def wireKey? : Value → Option String
  | .str s => some s
  | .null => some "None"
  | .bool b => some (if b then "true" else "false")
  | .int n => some (toString n)
  | .int64 n => some (toString n)
  | .float x => some (keyFloat x)
  | .moment m => some m.wireText
  | .day d => some d.text
  | .duration d => some d.isoText
  | .decimal d => some d.text
  | .bytes bs => Text.Utf8.decode? bs
  | .tuple xs => (wireKeys? xs).map (",".intercalate ·)
  | _ => none

def wireKeys? : List Value → Option (List String)
  | [] => some []
  | v :: vs => do
    let k ← wireKey? v
    let ks ← wireKeys? vs
    some (k :: ks)

end

mutual

/-- The form in which a value is sent. -/
def wire? : Value → Option Value
  | .float x => some (if (Decimal.Binary.ofFloat x).isSome then .float x else .null)
  | .moment m => some (.str m.wireText)
  | .day d => some (.str d.text)
  | .duration d => some (.str d.isoText)
  | .decimal d => some (.str d.text)
  | .bytes bs => (Text.Utf8.decode? bs).map .str
  | .objectId _ => none
  | .decimal128 _ => none
  | .list xs => (wireItems? xs).map .list
  | .tuple xs => (wireItems? xs).map .list
  | .set xs => (wireItems? xs).map .list
  | .dict es => (wireEntries? es).map Value.ofPairs
  | v => some v

def wireItems? : List Value → Option (List Value)
  | [] => some []
  | v :: vs => do
    let w ← wire? v
    let ws ← wireItems? vs
    some (w :: ws)

def wireEntries? : List (Value × Value) → Option (List (Value × Value))
  | [] => some []
  | (k, v) :: es => do
    let k ← wireKey? k
    let w ← wire? v
    let ws ← wireEntries? es
    some ((.str k, w) :: ws)

end

mutual

/-- Whether a value holds doubles that are all finite. -/
def allFinite : Value → Bool
  | .float x => (Decimal.Binary.ofFloat x).isSome
  | .list xs => allFiniteItems xs
  | .tuple xs => allFiniteItems xs
  | .set xs => allFiniteItems xs
  | .dict es => allFiniteEntries es
  | _ => true

def allFiniteItems : List Value → Bool
  | [] => true
  | v :: vs => allFinite v && allFiniteItems vs

def allFiniteEntries : List (Value × Value) → Bool
  | [] => true
  | (_, v) :: es => allFinite v && allFiniteEntries es

end

/-- The text that a client sends for a body; null is no body. -/
def sentText (body : Value) : Except Defect String :=
  if body.isNull then .ok ""
  else if allFinite body then .ok (Json.compact body)
  else .error .notFiniteJson

end Inquiry.Server
