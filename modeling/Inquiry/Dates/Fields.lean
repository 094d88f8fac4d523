import Inquiry.Schema
import Inquiry.Log
import Inquiry.Rows.Path

/-!
The set of field names that are believed to hold dates while a pipeline is walked. It starts from a
schema; a name outside the schema enters only by `track`, with the stage that proved it, and that
source is kept until the name is untracked.
-/
namespace Inquiry

structure DateFields where
  /-- The names in the set, in the order in which they came in. -/
  tracked : List String
  /-- The names that the schema knows. -/
  schema : List String
  /-- The sources of the tracked names that the schema does not know. -/
  introduced : List (String × String)
  deriving Repr, DecidableEq, Inhabited

namespace DateFields

def empty : DateFields := ⟨[], [], []⟩

/-- A set that holds `names`; without a schema the names are their own. -/
def ofNames (names : List String) (schema : Option (List String)) : DateFields :=
  ⟨names.eraseDups, (schema.getD names).eraseDups, []⟩

/-- The date fields of a schema. -/
def seed : Option Schema → DateFields
  | none => empty
  | some s => ⟨s.dateFields, s.names, []⟩

def contains (f : DateFields) (name : String) : Bool := f.tracked.contains name

/-- Whether a value of any type is in the set; a set never is, and a list cannot be looked for. -/
def holds (f : DateFields) (name : Value) : Except Defect Bool :=
  match name with
  | .set _ => .ok false
  | v => (Rows.asKey v).map fun v => v.str?.any f.contains

def size (f : DateFields) : Nat := f.tracked.length

/-- Adds a name; a name that is there stays as it is. -/
def track (f : DateFields) (name source : String) : DateFields :=
  if f.contains name then f
  else
    { f with
      tracked := f.tracked ++ [name]
      introduced := if f.schema.contains name then f.introduced
        else f.introduced ++ [(name, source)] }

/-- Removes a name and its source. -/
def untrack (f : DateFields) (name : String) : DateFields :=
  if f.contains name then
    { f with
      tracked := f.tracked.filter (· ≠ name)
      introduced := f.introduced.filter (·.1 ≠ name) }
  else f

/-- The names in order. -/
def names (f : DateFields) : List String := f.tracked.mergeSort fun a b => a ≤ b

/-- The sources in the order of their names. -/
def sources (f : DateFields) : List (String × String) :=
  f.introduced.mergeSort fun a b => a.1 ≤ b.1

def text (f : DateFields) : String := Value.callText "DateFieldSet" [Value.textsLiteral f.names]

/-- What is logged when a set is seeded. -/
def seedLog : Option Schema → List Log.Line
  | none => []
  | some s =>
    if s.dateFields.isEmpty then []
    else
      [Log.info .dateFields ("Seeded date fields for " ++ s.name ++ ": " ++
        ", ".intercalate (seed (some s)).names)]

end DateFields

end Inquiry
