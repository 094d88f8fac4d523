import Inquiry.Dates.Fields
import Inquiry.Dates.Healing

/-!
What a healed stage does to the set of date fields. A field that the stage defines is tracked when
its expression provably yields a date and untracked otherwise.
-/
namespace Inquiry.Dates

/-- Operators whose value is a date whatever their operands are. -/
def producingOperators : List String :=
  ["$toDate", "$dateFromString", "$dateFromParts", "$dateAdd", "$dateSubtract", "$dateTrunc"]

def dateVariables : List String := ["$$NOW", "$$CLUSTER_TIME"]

def scalarIsDate : Value → Bool
  | .str s => dateVariables.contains s
  | .moment _ => true
  | _ => false

mutual

/-- Whether an expression provably yields a date. -/
def yieldsDate (known : String → Bool) : Expression → Bool
  | .fieldRef path => known path
  | .scalar v => scalarIsDate v
  | .keyed [(op, operand)] =>
    if producingOperators.contains op then true
    else if op = "$convert" then (operand.get? "to").any isDateTarget
    else if op = "$ifNull" then ifNullYields known operand
    else if op = "$cond" then condYields known operand
    else if op = "$switch" then switchYields known operand
    else false
  | .keyed _ => false
  | .array _ => false

/-- Any of the alternatives of `$ifNull`. -/
def ifNullYields (known : String → Bool) : Expression → Bool
  | .array xs => anyYields known xs
  | _ => false

/-- The second or the third of three operands, or the named branches. -/
def condYields (known : String → Bool) : Expression → Bool
  | .array [_, yes, no] => yieldsDate known yes || yieldsDate known no
  | .keyed es => keyYields known "then" es || keyYields known "else" es
  | _ => false

/-- The `then` of any branch, or the default. -/
def switchYields (known : String → Bool) : Expression → Bool
  | .keyed es => branchesYield known es || keyYields known "default" es
  | _ => false

def anyYields (known : String → Bool) : List Expression → Bool
  | [] => false
  | e :: es => yieldsDate known e || anyYields known es

/-- The entry under `key`, if there is one. -/
def keyYields (known : String → Bool) (key : String) : List (String × Expression) → Bool
  | [] => false
  | (k, e) :: es => if k = key then yieldsDate known e else keyYields known key es

/-- Any item of the entry under `branches`. -/
def branchesYield (known : String → Bool) : List (String × Expression) → Bool
  | [] => false
  | (k, e) :: es =>
    if k = "branches" then
      match e with
      | .array bs => anyThenYields known bs
      | _ => false
    else branchesYield known es

def anyThenYields (known : String → Bool) : List Expression → Bool
  | [] => false
  | .keyed es :: bs => keyYields known "then" es || anyThenYields known bs
  | _ :: bs => anyThenYields known bs

end

mutual

/-- The dotted names that a document defines, with their expressions. An embedded document defines
its own fields and not itself. -/
def definitionsOf (namePrefix name : String) : Expression → List (String × Expression)
  | .keyed [] => [(namePrefix ++ name, .keyed [])]
  | .keyed [(key, e)] =>
    if isOperatorName key then [(namePrefix ++ name, .keyed [(key, e)])]
    else definitionsOf (namePrefix ++ name ++ ".") key e
  | .keyed es => definitions (namePrefix ++ name ++ ".") es
  | e => [(namePrefix ++ name, e)]

/-- The definitions of the entries of a document whose own name and a dot are `namePrefix`. -/
def definitions (namePrefix : String) : List (String × Expression) → List (String × Expression)
  | [] => []
  | (key, e) :: es => definitionsOf namePrefix key e ++ definitions namePrefix es

end

/-- Whether a projection keeps (`some true`) or drops (`some false`) a field without defining it. -/
def projectionFlag? : Expression → Option Bool
  | .scalar (.bool b) => some b
  | .scalar (.int n) => some (n != 0)
  | .scalar (.int64 n) => some (n != 0)
  | _ => none

/-- One definition; `source` names the stage. -/
def define (source : String) (f : DateFields) (d : String × Expression) : DateFields :=
  if yieldsDate f.contains d.2 then f.track d.1 source else f.untrack d.1

/-- One entry of a projection: a flag keeps or drops the field. -/
def project (source : String) (f : DateFields) (d : String × Expression) : DateFields :=
  match projectionFlag? d.2 with
  | some true => f
  | some false => f.untrack d.1
  | none => define source f d

/-- What `$group` defines: its keys; a document under `_id` defines its parts. -/
def groupDefinitions : List (String × Expression) → List (String × Expression)
  | [] => []
  | (key, e) :: es =>
    (if key = "_id" then definitionsOf "" key e else [(key, e)]) ++ groupDefinitions es

/-- The names that `$unset` drops. -/
def unsetNames : Expression → List String
  | .scalar (.str s) => [s]
  | .array xs => xs.filterMap fun
    | .scalar (.str s) => some s
    | _ => none
  | _ => []

def rootDefinitions (root : Expression) : List (String × Expression) :=
  match root with
  | .keyed es => if root.isDocument then definitions "" es else []
  | _ => []

/-- The source that is recorded for the names a stage introduces. -/
def sourceText (index : Nat) (operator : String) : String :=
  "stage " ++ toString index ++ " (" ++ operator ++ ")"

/-- The set after a stage. -/
def propagate (index : Nat) (s : Stage) (f : DateFields) : DateFields :=
  let source := sourceText index s.operator
  if s.operator = "$addFields" ∨ s.operator = "$set" then
    match s.spec with
    | .keyed es => (definitions "" es).foldl (define source) f
    | _ => f
  else if s.operator = "$project" then
    match s.spec with
    | .keyed es => (definitions "" es).foldl (project source) f
    | _ => f
  else if s.operator = "$group" then
    match s.spec with
    | .keyed es => (groupDefinitions es).foldl (define source) f
    | _ => f
  else if s.operator = "$replaceRoot" then
    match s.spec.get? "newRoot" with
    | some root => (rootDefinitions root).foldl (define source) f
    | none => f
  else if s.operator = "$replaceWith" then
    (rootDefinitions s.spec).foldl (define source) f
  else if s.operator = "$unset" then
    (unsetNames s.spec).foldl DateFields.untrack f
  else f

end Inquiry.Dates
