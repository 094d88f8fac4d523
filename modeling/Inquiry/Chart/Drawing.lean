import Inquiry.Chart.Names
import Inquiry.Chart.Obstacle
import Inquiry.Decimal.Nearest
import Inquiry.Json.Printer
import Inquiry.Log
import Inquiry.Rows.Sequence

/-!
From a hint and rows to a chart. The roles are decided again from the rows, and axes, zoom, series and
title follow from the roles.
-/
namespace Inquiry.Chart

def defaultPalette : List String :=
  ["#5470C6", "#91CC75", "#FAC858", "#EE6666", "#73C0DE", "#3BA272", "#FC8452", "#9A60B4", "#EA7CCC"]

def defaultTitle : String := "Visualization"

/-- A name that is shown, unless it is empty. -/
def shownName (name : Option String) : Option String :=
  let s := displayName? name
  if s.isEmpty then none else some s

/-- The length of the longest label. -/
def longestLabel (labels : List Value) : Nat :=
  labels.foldl (fun n v => max n v.text.length) 0

def labelRotation (longest : Nat) : Nat :=
  if 30 < longest then 45 else if 20 < longest then 30 else if 10 < longest then 15 else 0

/-- The room below a vertical chart; a zoom bar takes over part of it. -/
def bottomFor (longest : Nat) (zoomed : Bool) : String :=
  if 30 < longest then "40%"
  else if 20 < longest then "30%"
  else if zoomed then "25%" else "35%"

/-- The two axes of a layout that has axes. -/
def axesFor (r : Roles) (data : List Value) : Option (Axis × Axis) :=
  let categoryName := shownName r.category
  let valueName := shownName r.value
  let flat (name : Option String) (gap : Nat) : Axis := ⟨.value, name, none, none, gap⟩
  let beside : Axis × Axis :=
    (flat valueName 25, ⟨.category, categoryName, some data, some .truncated, 45⟩)
  match r.layout with
  | .radial => none
  | .scatter => some (flat categoryName 25, flat valueName 45)
  | .horizontal => some beside
  | .transposed => some beside
  | .vertical =>
    let rotation := labelRotation (longestLabel data)
    some (⟨.category, categoryName, some data, some (.rotated rotation),
      if 30 < rotation then 50 else 35⟩, flat valueName 45)

def gridFor (layout : Layout) (data : List Value) (zoomed : Bool) : Option Grid :=
  match layout with
  | .radial => none
  | .scatter => some ⟨"15%", "10%"⟩
  | .horizontal => some ⟨"15%", "15%"⟩
  | .transposed => some ⟨"15%", "15%"⟩
  | .vertical => some ⟨bottomFor (longestLabel data) zoomed, "10%"⟩

/-- How many values differ, by their JSON text. -/
def distinctCount (values : List Value) : Nat := (values.map Json.compact).eraseDups.length

/-- A part of the whole in percent with two places, and never above the whole. -/
def percentOf (part : Float) : Float :=
  let percent := part * 100.0
  Decimal.roundTo (if percent < 100.0 then percent else 100.0) 2

/-- The part of the categories that is shown at first. -/
def zoomFinish (threshold : Int) (count : Nat) : Except Defect Float :=
  if count = 0 then .error .divisionByZero
  else
    match Decimal.nearest? threshold count with
    | some part => .ok (percentOf part)
    | none => .error .quotientRange

/-- The axis of the categories. -/
def categoryDirection? : Layout → Option Direction
  | .vertical => some .x
  | .horizontal => some .y
  | .transposed => some .y
  | .scatter => none
  | .radial => none

/-- A zoom bar when more category values differ than the threshold allows. -/
def zoomFor (layout : Layout) (data : List Value) (threshold : Int) :
    Except Fault (Option Zoom) :=
  match categoryDirection? layout with
  | none => .ok none
  | some direction =>
    match Json.badKey? (.list data) with
    | some key => .error (.defect (.jsonKey key.fullTypeName))
    | none =>
      if (distinctCount data : Int) ≤ threshold then .ok none
      else
        match zoomFinish threshold data.length with
        | .ok finish => .ok (some ⟨direction, finish⟩)
        | .error d => .error (.defect d)

/-- Names that a template may not set. -/
def reservedExtras : List String := ["datasetIndex", "dataset_index", "encode"]

/-- The series of the templates, all with the same encoding; one is made up if there are none. -/
def seriesFor (hint : Hint) (kind : String) (encode : List (String × String)) : List Series :=
  if hint.series.isEmpty then [⟨kind, none, encode, []⟩]
  else
    hint.series.map fun t =>
      ⟨textOr t.kind kind, t.name, encode, t.extras.filter fun e => !reservedExtras.contains e.1⟩

def seriesKind (r : Roles) : String :=
  match r.layout with
  | .radial => "pie"
  | _ => r.kind

def tooltipFor (r : Roles) : Tooltip :=
  ⟨if r.layout = .radial then "item" else "axis", shadowPointer,
    (shownName r.category).getD "Category", (shownName r.value).getD "Value"⟩

def titleFor (hint : Hint) (interpretation : Option String) : String :=
  ((shownName (some hint.title)).or (shownName interpretation)).getD defaultTitle

/-- The rows of a result as documents. -/
def sourceRows (result : Value) : Shape.Checked (List Value) :=
  Shape.within (.str "source") (Shape.list Shape.document result)

/-- The chart of roles over rows; the data of the category is `data`. -/
def assemble (hint : Hint) (r : Roles) (data source : List Value) (zoom : Option Zoom)
    (interpretation : Option String) : Chart where
  kind := r.kind
  layout := r.layout
  category := r.category
  value := r.value
  title := titleFor hint interpretation
  axes := axesFor r data
  series := seriesFor hint (seriesKind r) r.encode
  rows := source
  dimensions := r.dimensions
  tooltip := tooltipFor r
  grid := gridFor r.layout data zoom.isSome
  zoom := zoom
  color := match hint.color with
    | some (c :: cs) => c :: cs
    | _ => defaultPalette
  warnings := r.warnings

/-- The chart of a result with these rows, of which `first` is the first one. -/
def build (threshold : Int) (hint : Hint) (result first : Value) (rows : List Value)
    (interpretation : Option String) : Except Fault Chart :=
  match obstacle? hint first rows with
  | some d => .error (.defect d)
  | none =>
    let r := Roles.decideFrom hint first
    let data := r.categoryData rows
    match zoomFor r.layout data threshold with
    | .error f => .error f
    | .ok zoom =>
      match sourceRows result with
      | .error violations => .error (.invalid "DatasetOption" violations)
      | .ok source => .ok (assemble hint r data source zoom interpretation)

/-- The first row of a result and all of them. -/
def rowsOf (result : Value) : Except Defect (Value × List Value) := do
  .ok (← Rows.first result, ← Rows.parts result)

/-- The chart of a result; none if none is wanted or there are no rows. -/
def ofResult (threshold : Int) (hint : Option Hint) (result : Value)
    (interpretation : Option String) (recommended : Bool) : Except Fault (Option Chart) :=
  if recommended && result.isGiven then
    match rowsOf result with
    | .error d => .error (.defect d)
    | .ok (first, rows) =>
      (build threshold (hint.getD Hint.default) result first rows interpretation).map some
  else .ok none

def rolesLine (r : Roles) : Log.Line :=
  let shown (name : Option String) : String := name.getD "None" ++ " (" ++ displayName? name ++ ")"
  Log.info .chart ("Reconciled roles -> layout=" ++ r.layout.name ++ " category=" ++
    shown r.category ++ " value=" ++ shown r.value)

def seriesLog (hint : Hint) (r : Roles) : List Log.Line :=
  if hint.series.isEmpty then
    [Log.info .chart ("No series template in hint; synthesizing one " ++ seriesKind r ++ " series")]
  else []

def warningLog (r : Roles) : List Log.Line :=
  r.warnings.map fun w => Log.warning .chart ("Reconciler: " ++ w)

/-- Roles are told once they are decided, and the rest once the data and the zoom are. -/
def buildLog (threshold : Int) (hint : Hint) (first : Value) (rows : List Value) : List Log.Line :=
  if (dimensionDefect? hint first).isSome then []
  else
    let r := Roles.decideFrom hint first
    match dataDefect? r rows, zoomFor r.layout (r.categoryData rows) threshold with
    | none, .ok _ => rolesLine r :: (seriesLog hint r ++ warningLog r)
    | _, _ => [rolesLine r]

def ofResultLog (threshold : Int) (hint : Option Hint) (result : Value) (recommended : Bool) :
    List Log.Line :=
  if recommended && result.isGiven then
    match rowsOf result with
    | .error _ => []
    | .ok (first, rows) => buildLog threshold (hint.getD Hint.default) first rows
  else []

end Inquiry.Chart
