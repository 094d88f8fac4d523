import Inquiry.Fault
import Inquiry.Text.Utf8

/-!
Reading typed parts out of values. Every reader tells all places at which a value does not have the
shape it asks for, in the order of the value.
-/
namespace Inquiry.Shape

/-- A typed part, or what is wrong with it. -/
abbrev Checked (α : Type) := Except (List Violation) α

def refuse {α : Type} (v : Violation) : Checked α := .error [v]

/-- Places everything that is wrong below a step. -/
def within {α : Type} (step : Value) : Checked α → Checked α
  | .ok a => .ok a
  | .error vs => .error (vs.map (·.within step))

/-- Both parts, or everything that is wrong with either. -/
def both {α β : Type} : Checked α → Checked β → Checked (α × β)
  | .ok a, .ok b => .ok (a, b)
  | .ok _, .error vs => .error vs
  | .error vs, .ok _ => .error vs
  | .error vs, .error ws => .error (vs ++ ws)

/-- A text; bytes are read as UTF-8. -/
def text : Value → Checked String
  | .str s => .ok s
  | .bytes bs =>
    match Text.Utf8.decode? bs with
    | some s => .ok s
    | none => refuse (Violation.notUnicode (.bytes bs))
  | v => refuse (Violation.text v)

def optional {α : Type} (read : Value → Checked α) : Value → Checked (Option α)
  | .null => .ok none
  | v => (read v).map some

/-- The items of a sequence, each read, from index `i` on. -/
def itemsFrom {α : Type} (read : Value → Checked α) (i : Nat) : List Value → Checked (List α)
  | [] => .ok []
  | v :: vs =>
    (both (within (.ofNat i) (read v)) (itemsFrom read (i + 1) vs)).map fun (a, as) => a :: as

def list {α : Type} (read : Value → Checked α) : Value → Checked (List α)
  | .list vs => itemsFrom read 0 vs
  | .tuple vs => itemsFrom read 0 vs
  | .set vs => itemsFrom read 0 vs
  | v => refuse (Violation.list v)

/-- Entries whose keys are texts. -/
def textEntries : List (Value × Value) → Checked (List (String × Value))
  | [] => .ok []
  | (key, v) :: es =>
    (both (within key (within (.str "[key]") (text key))) (textEntries es)).map
      fun (k, rest) => (k, v) :: rest

/-- A document: a mapping whose keys are texts. Where a key has to become one, keys may become equal;
then the first keeps its place and the last its value. -/
def document : Value → Checked Value
  | .dict es =>
    (textEntries es).map fun fields =>
      if es.all fun e => e.1.str?.isSome then .dict es
      else Value.ofPairs (fields.map fun f => (.str f.1, f.2))
  | v => refuse (Violation.mapping v)

/-- The fields of a document. -/
def mapping (v : Value) : Checked (List (String × Value)) :=
  (document v).map fun
    | .dict es => es.filterMap fun e => e.1.str?.map (·, e.2)
    | _ => []

/-- The value of a field that may be missing. -/
def field {α : Type} (entries : List (Value × Value)) (name : String) (other : α)
    (read : Value → Checked α) : Checked α :=
  match Value.lookup name entries with
  | none => .ok other
  | some v => within (.str name) (read v)

/-- The same for a field that has to be there. -/
def required {α : Type} (entries : List (Value × Value)) (name : String)
    (read : Value → Checked α) : Checked α :=
  match Value.lookup name entries with
  | none => refuse ((Violation.missing (.dict entries)).within (.str name))
  | some v => within (.str name) (read v)

/-- What is wrong with a value that should be a mapping for `model`. -/
def notModel (model : String) (input : Value) : Violation :=
  ⟨"model_type", [], "Input should be a valid dictionary or instance of " ++ model, input⟩

/-- The entries that are no fields; their keys have to be texts. -/
def others (fields : List String) : List (Value × Value) → Checked (List (String × Value))
  | [] => .ok []
  | (.str key, v) :: es =>
    if fields.contains key then others fields es
    else (others fields es).map ((key, v) :: ·)
  | (key, _) :: es =>
    match others fields es with
    | .ok _ => refuse (Violation.key key)
    | .error vs => .error (Violation.key key :: vs)

end Inquiry.Shape
