import Inquiry.Plan.Hint
import Inquiry.Text.Blank
import Inquiry.Text.Case
import Inquiry.Trace

/-!
Reading the chart part of a model's plan. Whatever shape it has, it never spoils the plan: what
cannot be used is left out, and what is left out is replaced by a default.
-/
namespace Inquiry.Advice

/-- A mapping, also as the first item of a list; anything else counts as an empty one. -/
def firstMapping : Value → Value
  | .list (.dict es :: _) => .dict es
  | .dict es => .dict es
  | _ => .dict []

/-- A text, or a number as text. -/
def asText : Value → Option String
  | .str s => some s
  | .int n => some (toString n)
  | .int64 n => some (toString n)
  | .float x => some (Decimal.displayLayout.text x)
  | _ => none

/-- The text of a value, unless it is empty. -/
def givenText (v : Value) : Option String := (asText v).filter fun s => !s.isEmpty

/-- The first value that is given. -/
def firstGiven (vs : List Value) : Value := (vs.find? Value.isGiven).getD (.list [])

/-- A dimension is a name, or an object with a name. -/
def dimensionName? (v : Value) : Option String :=
  let name := match v with
    | .dict _ => v.getD "name"
    | v => v
  name.str?.filter fun s => !s.isEmpty

def dimensions (advice option : Value) : List String :=
  match firstGiven [(firstMapping (option.getD "dataset")).getD "dimensions",
      (firstMapping (advice.getD "data")).getD "dimensions", advice.getD "dimensions"] with
  | .list vs => vs.filterMap dimensionName?
  | _ => []

/-- The series that are objects. -/
def seriesObjects (option : Value) : List (List (Value × Value)) :=
  match option.getD "series" with
  | .dict es => if es.isEmpty then [] else [es]
  | .list vs => vs.filterMap fun
    | .dict es => some es
    | _ => none
  | _ => []

/-- The settings of a series with texts for kind and name, and without an encoding that is no
mapping. -/
def normalizeSeries (es : List (Value × Value)) : List (Value × Value) :=
  es.filterMap fun (key, v) =>
    if key == .str "type" || key == .str "name" then some (key, .optStr (asText v))
    else if key == .str "encode" && !v.isDict then none
    else some (key, v)

def violationValue (v : Violation) : Value :=
  .doc [("type", .str v.tag), ("loc", .tuple v.location), ("msg", .str v.message),
    ("input", v.input)]

def droppedLine (raw : Value) (violations : List Violation) : Log.Line :=
  Log.warning .plans ("Dropping malformed series template " ++ raw.literal ++ ": " ++
    (Value.list (violations.map violationValue)).literal)

/-- A series template; one that is malformed is logged and left out. -/
def readSeries (es : List (Value × Value)) : Traced (Option SeriesTemplate) :=
  if es.all fun e => e.1.str?.isSome then
    match SeriesTemplate.ofEntries (normalizeSeries es) with
    | .ok t => .done (some t)
    | .error vs => do
      Traced.log [droppedLine (.dict es) vs]
      .done none
  else .fail (.defect .argumentName)

/-- The templates of all series that are well formed. -/
def readAllSeries : List (List (Value × Value)) → Traced (List SeriesTemplate)
  | [] => .done []
  | es :: rest => do
    let one ← readSeries es
    let others ← readAllSeries rest
    .done (one.toList ++ others)

/-- A list of texts only. -/
def colors? : Value → Option (List String)
  | .list vs => if vs.all fun v => v.str?.isSome then some (vs.filterMap Value.str?) else none
  | _ => none

def hintFrom (advice option : Value) (series : List SeriesTemplate) : Hint where
  id := (givenText (advice.getD "id")).getD "primary"
  kind :=
    let firstKind := (series.head?.bind (·.kind)).filter fun s => !s.isEmpty
    Text.lower (Text.trim (((givenText (advice.getD "type")).or firstKind).getD "bar"))
  title := ((givenText (advice.getD "title")).or
    (givenText ((firstMapping (option.getD "title")).getD "text"))).getD ""
  xAxisType := asText ((firstMapping (option.getD "xAxis")).getD "type")
  yAxisType := asText ((firstMapping (option.getD "yAxis")).getD "type")
  dimensions := dimensions advice option
  series := series
  color := colors? (option.getD "color")

/-- The hint in the chart part of a plan. -/
def read (advice : Value) : Traced (Option Hint) :=
  match advice with
  | .dict _ => do
    let option := match advice.getD "option" with
      | .dict es => .dict es
      | _ => .dict []
    let series ← readAllSeries (seriesObjects option)
    .done (some (hintFrom advice option series))
  | _ => .done none

end Inquiry.Advice
