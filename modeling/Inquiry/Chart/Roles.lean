import Inquiry.Chart.Basic
import Inquiry.Plan.Hint
import Inquiry.Rows.Path
import Inquiry.Text.Case

/-!
The roles of a chart: which fields are its category and its value, and the layout that they go into.
Both are decided from the hint and the first row; where the hint is overruled or cut short, the roles
carry a warning.
-/
namespace Inquiry.Chart

/-- A category and a value. -/
def maxDimensions : Nat := 2

/-- The keys of a row that are names. -/
def rowKeys : Value → List String
  | .dict es => es.filterMap fun e => e.1.str?
  | _ => []

/-- The dimensions that are asked for, or those of the first row without its id. -/
def askedDimensions (hint : Hint) (first : Value) : List String :=
  if hint.dimensions.isEmpty then (rowKeys first).filter (· ≠ "_id") else hint.dimensions

/-- The part of a dimension before its first point. -/
def firstPart (dimension : String) : String := (Text.splitOn '.' dimension).headD ""

/-- A dimension is missing when it leads to nothing and the row does not even have its first part. -/
def isMissing (first : Value) (dimension : String) : Bool :=
  (Rows.nested first dimension).isNull &&
    match Rows.holds first (firstPart dimension) with
    | .ok held => !held
    | .error _ => false

def missingWarning (dimension : String) : String :=
  "Dimension '" ++ dimension ++ "' is not present in the result rows"

def excessWarning (dropped : List String) : String :=
  "Only " ++ toString maxDimensions ++ " dimensions are supported; ignoring " ++
    ", ".intercalate dropped

/-- The warnings about the dimensions that are asked for. -/
def dimensionWarnings (asked : List String) (first : Value) : List String :=
  ((asked.take maxDimensions).filter (isMissing first)).map missingWarning ++
    if maxDimensions < asked.length then [excessWarning (asked.drop maxDimensions)] else []

/-- A text that is given and not empty, or the other one. -/
def textOr (given : Option String) (other : String) : String :=
  match given with
  | some s => if s.isEmpty then other else s
  | none => other

/-- The kind of a chart, in lower case. -/
def kindOf (hint : Hint) : String := Text.lower (textOr (some hint.kind) "bar")

/-- The layout that a kind and two axis types ask for; any other pair of types is vertical, with a
warning. -/
def layoutFor (kind xType yType : String) : Layout × List String :=
  if kind = "pie" then (.radial, [])
  else if xType = "value" ∧ yType = "category" then
    if kind = "bar" then (.horizontal, [])
    else
      (.transposed,
        ["Horizontal-bar layout applies to bar charts only; keeping the category y-axis of the '" ++
          kind ++ "' chart"])
  else if xType = "value" ∧ yType = "value" then (.scatter, [])
  else if xType = "category" ∧ yType = "value" then (.vertical, [])
  else
    (.vertical, ["Axis types x=" ++ xType ++ ", y=" ++ yType ++ " are not supported for a '" ++ kind ++
      "' chart; using category x-axis and value y-axis"])

/-- What is decided before anything is drawn. -/
structure Roles where
  kind : String
  layout : Layout
  dimensions : List String
  warnings : List String
  deriving Repr, DecidableEq

namespace Roles

def category (r : Roles) : Option String := r.dimensions[0]?

def value (r : Roles) : Option String := r.dimensions[1]?

def decideFrom (hint : Hint) (first : Value) : Roles :=
  let kind := kindOf hint
  let asked := askedDimensions hint first
  let (layout, warnings) := layoutFor kind (textOr hint.xAxisType "category")
    (textOr hint.yAxisType "value")
  ⟨kind, layout, asked.take maxDimensions, dimensionWarnings asked first ++ warnings⟩

/-- The value of the category dimension in every row; nothing without a category. -/
def categoryData (r : Roles) (rows : List Value) : List Value :=
  match r.category with
  | some c => if c.isEmpty then [] else rows.map fun row => Rows.nested row c
  | none => []

/-- The fields behind the two ends of a series. -/
def encode (r : Roles) : List (String × String) :=
  let (categoryEnd, valueEnd) := match r.layout with
    | .radial => ("itemName", "value")
    | .horizontal => ("y", "x")
    | .transposed => ("y", "x")
    | .vertical => ("x", "y")
    | .scatter => ("x", "y")
  ([(categoryEnd, r.category), (valueEnd, r.value)].filterMap fun (place, name) =>
    match name with
    | some n => if n.isEmpty then none else some (place, n)
    | none => none)

end Roles

end Inquiry.Chart
