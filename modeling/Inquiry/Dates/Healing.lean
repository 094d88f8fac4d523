import Inquiry.Expression

/-!
Healing of date conversions inside one expression. A conversion to a date whose operand is a field
that is known to hold dates becomes a reference to the field; a date-part operator on a field that is
not known to hold dates is left alone and reported. The tree and the reports are two functions of the
same input: `heal` and `diagnose`.
-/
namespace Inquiry.Dates

/-- Operators that turn a text into a date. -/
def conversionOperators : List String := ["$dateFromString", "$toDate", "$convert"]

/-- Operators that take a date apart. -/
def partOperators : List String :=
  ["$year", "$month", "$dayOfMonth", "$dayOfWeek", "$dayOfYear", "$hour", "$minute", "$second",
    "$millisecond", "$dateToString"]

/-- The two names of the date type in `$convert`. -/
def isDateTarget : Expression → Bool
  | .scalar (.str s) => s = "date"
  | .scalar (.bool _) => false
  | .scalar v => v.wholeNumber? == some 9
  | _ => false

/-- `$f`, directly or through one `$toString`. -/
def unwrapField? (e : Expression) : Option String :=
  match e with
  | .fieldRef path => some path
  | e =>
    match e.call? with
    | some ("$toString", operand) =>
      match operand.unwrapSingle with
      | .fieldRef path => some path
      | _ => none
    | _ => none

/-- The field that a conversion reads its text from. -/
def conversionSource? (operator : String) (operand : Expression) : Option String :=
  if operator = "$toDate" then unwrapField? operand.unwrapSingle
  else if operator = "$dateFromString" then (operand.get? "dateString").bind unwrapField?
  else if operator = "$convert" then
    match operand.get? "to" with
    | some target => if isDateTarget target then (operand.get? "input").bind unwrapField? else none
    | none => none
  else none

/-- The field that a date-part operator reads: `$f`, `[$f]` or the `date` of its arguments. -/
def partField? (operand : Expression) : Option String :=
  match operand.unwrapSingle with
  | .fieldRef path => some path
  | e =>
    if e.operator?.isNone then
      match e.get? "date" with
      | some (.fieldRef path) => some path
      | _ => none
    else none

/-- The field that takes the place of a node, if the node is a conversion that is not needed: its
field is `known` to hold dates, or conversions are removed by `force`. -/
def redundantSource? (known : String → Bool) (force : Bool) (e : Expression) : Option String :=
  match e.call? with
  | some (op, operand) =>
    match conversionSource? op operand with
    | some f => if known f || force then some f else none
    | none => none
  | none => none

/-- A node whose children are healed. -/
def collapse (known : String → Bool) (force : Bool) (e : Expression) : Expression :=
  match redundantSource? known force e with
  | some f => .fieldRef f
  | none => e

mutual

/-- The expression without conversions that are not needed, children first. -/
def heal (known : String → Bool) (force : Bool) : Expression → Expression
  | .scalar v => .scalar v
  | .fieldRef path => .fieldRef path
  | .keyed es => collapse known force (.keyed (healEntries known force es))
  | .array xs => .array (healItems known force xs)

def healItems (known : String → Bool) (force : Bool) : List Expression → List Expression
  | [] => []
  | e :: es => heal known force e :: healItems known force es

def healEntries (known : String → Bool) (force : Bool) :
    List (String × Expression) → List (String × Expression)
  | [] => []
  | (key, e) :: es => (key, heal known force e) :: healEntries known force es

end

/-- What was found at a node. -/
inductive Finding where
  /-- A conversion was removed, of a known date field or because conversions are forced out. -/
  | conversionRemoved (known : Bool)
  /-- A date part is taken of a field that is not known to hold dates. -/
  | operatorMismatch
  deriving Repr, DecidableEq

def Finding.name : Finding → String
  | .conversionRemoved _ => "conversion_removed"
  | .operatorMismatch => "date_operator_mismatch"

structure Diagnostic where
  finding : Finding
  stage : Nat
  path : String
  operator : String
  field : String
  deriving Repr, DecidableEq

namespace Diagnostic

def message (d : Diagnostic) : String :=
  match d.finding with
  | .conversionRemoved known =>
    "Removed " ++ d.operator ++ " on '" ++ d.field ++ "' (" ++
      (if known then "tracked date field" else "forced collection") ++
      "); using the field directly"
  | .operatorMismatch =>
    d.operator ++ " applied to '" ++ d.field ++ "', which is not known to hold dates"

/-- The path as it is shown; the stage itself has no path. -/
def pathText (d : Diagnostic) : String := if d.path.isEmpty then "<stage>" else d.path

def isMismatch (d : Diagnostic) : Bool :=
  match d.finding with
  | .operatorMismatch => true
  | .conversionRemoved _ => false

def toValue (d : Diagnostic) : Value :=
  .doc [("kind", .str d.finding.name), ("stage_index", .ofNat d.stage), ("path", .str d.pathText),
    ("operator", .str d.operator), ("field", .str d.field), ("message", .str d.message)]

end Diagnostic

/-- The report on a date-part operator over an operand whose children are healed. -/
def mismatch (known : String → Bool) (stage : Nat) (path : String) (e : Expression) :
    List Diagnostic :=
  match e.call? with
  | some (op, operand) =>
    if partOperators.contains op then
      match partField? operand with
      | some f => if known f then [] else [⟨.operatorMismatch, stage, path, op, f⟩]
      | none => []
    else []
  | none => []

/-- The report on a node whose children are healed. -/
def diagnoseNode (known : String → Bool) (force : Bool) (stage : Nat) (path : String)
    (e : Expression) : List Diagnostic :=
  match redundantSource? known force e with
  | some f => [⟨.conversionRemoved (known f), stage, path, e.operator?.getD "", f⟩]
  | none => mismatch known stage path e

mutual

/-- The reports on an expression, those on its children first. -/
def diagnose (known : String → Bool) (force : Bool) (stage : Nat) (path : String) :
    Expression → List Diagnostic
  | .scalar _ => []
  | .fieldRef _ => []
  | .keyed es =>
    diagnoseEntries known force stage path es ++
      diagnoseNode known force stage path (.keyed (healEntries known force es))
  | .array xs => diagnoseItems known force stage path 0 xs

def diagnoseItems (known : String → Bool) (force : Bool) (stage : Nat) (path : String) (i : Nat) :
    List Expression → List Diagnostic
  | [] => []
  | e :: es =>
    diagnose known force stage (indexPath path i) e ++
      diagnoseItems known force stage path (i + 1) es

def diagnoseEntries (known : String → Bool) (force : Bool) (stage : Nat) (path : String) :
    List (String × Expression) → List Diagnostic
  | [] => []
  | (key, e) :: es =>
    diagnose known force stage (joinPath path key) e ++
      diagnoseEntries known force stage path es

end

/-- A stage with its spec healed; the stage itself is never replaced. -/
def healStage (known : String → Bool) (force : Bool) (s : Stage) : Stage :=
  ⟨s.operator, heal known force s.spec⟩

/-- The reports on a stage. -/
def diagnoseStage (known : String → Bool) (force : Bool) (index : Nat) (s : Stage) :
    List Diagnostic :=
  diagnose known force index s.operator s.spec ++
    mismatch known index "" (healStage known force s).toExpression

end Inquiry.Dates
