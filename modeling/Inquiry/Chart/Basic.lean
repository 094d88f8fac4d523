import Inquiry.Chart.Tooltip

/-!
Charts as they are drawn: a layout, the fields that take the category and the value role, axes,
series, and the rows. `toOption` is the form that a renderer takes; it leaves out what a chart does
not have.
-/
namespace Inquiry.Chart

/-- Where the roles go. -/
inductive Layout where
  /-- Categories along x, values along y. -/
  | vertical
  /-- A bar chart with categories along y. -/
  | horizontal
  /-- Any other chart with categories along y. -/
  | transposed
  /-- Values along both axes. -/
  | scatter
  /-- No axes. -/
  | radial
  deriving Repr, DecidableEq

def Layout.name : Layout → String
  | .vertical => "vertical"
  | .horizontal => "horizontal"
  | .transposed => "transposed"
  | .scatter => "scatter"
  | .radial => "radial"

inductive AxisKind where
  | category
  | value
  deriving Repr, DecidableEq

def AxisKind.name : AxisKind → String
  | .category => "category"
  | .value => "value"

/-- How labels are written along a category axis. -/
inductive LabelStyle where
  | rotated (degrees : Nat)
  | truncated
  deriving Repr, DecidableEq

def LabelStyle.toValue : LabelStyle → Value
  | .rotated degrees => .doc [("interval", .int 0), ("rotate", .ofNat degrees)]
  | .truncated =>
    .doc [("interval", .int 0), ("width", .int 120), ("overflow", .str "truncate")]

structure Axis where
  kind : AxisKind
  name : Option String
  data : Option (List Value)
  labels : Option LabelStyle
  nameGap : Nat
  deriving Repr, BEq

/-- The two axes of a plane. -/
inductive Direction where
  | x
  | y
  deriving Repr, DecidableEq

/-- A zoom bar along one axis, which shows the part from zero to `finish` percent. -/
structure Zoom where
  axis : Direction
  finish : Float
  deriving Repr, BEq

structure Grid where
  bottom : String
  left : String
  deriving Repr, DecidableEq

structure Series where
  kind : String
  name : Option String
  encode : List (String × String)
  extras : List (String × Value)
  deriving Repr, BEq

end Inquiry.Chart

namespace Inquiry

structure Chart where
  kind : String
  layout : Chart.Layout
  category : Option String
  value : Option String
  title : String
  axes : Option (Chart.Axis × Chart.Axis)
  series : List Chart.Series
  rows : List Value
  dimensions : List String
  tooltip : Chart.Tooltip
  grid : Option Chart.Grid
  zoom : Option Chart.Zoom
  color : List String
  warnings : List String
  deriving Repr, BEq

namespace Chart

/-- A field that is written only when it is there. -/
def present {α : Type} (name : String) (write : α → Value) : Option α → List (String × Value)
  | none => []
  | some a => [(name, write a)]

def Axis.toValue (a : Axis) : Value :=
  .doc ([("type", .str a.kind.name)] ++ present "name" .str a.name ++ present "data" .list a.data ++
    present "axisLabel" LabelStyle.toValue a.labels ++
    [("nameLocation", .str "middle"), ("nameGap", .ofNat a.nameGap)])

def Zoom.toValue (z : Zoom) : Value :=
  let range := [("start", Value.float 0.0), ("end", .float z.finish)]
  match z.axis with
  | .x => .doc ([("type", .str "slider"), ("xAxisIndex", .int 0)] ++ range ++
      [("bottom", .str "5%"), ("height", .int 20)])
  | .y => .doc ([("type", .str "slider"), ("yAxisIndex", .int 0)] ++ range ++
      [("right", .str "3%"), ("top", .str "15%"), ("width", .int 20)])

def Grid.toValue (g : Grid) : Value :=
  .doc [("containLabel", .bool true), ("top", .str "15%"), ("bottom", .str g.bottom),
    ("left", .str g.left), ("right", .str "8%")]

/-- Null extras are not written. -/
def Series.toValue (s : Series) : Value :=
  .doc ([("type", .str s.kind)] ++ present "name" .str s.name ++
    [("encode", .doc (s.encode.map fun e => (e.1, .str e.2))), ("datasetIndex", .int 0)] ++
    s.extras.filter fun e => !e.2.isNull)

/-- The renderer's form. -/
def toOption (c : Chart) : Value :=
  .doc ([("title", .doc [("text", .str c.title), ("subtext", .str ""), ("left", .str "center")])] ++
    present "xAxis" (fun axes => axes.1.toValue) c.axes ++
    present "yAxis" (fun axes => axes.2.toValue) c.axes ++
    [("series", .list (c.series.map (·.toValue))),
      ("dataset", .doc [("source", .list c.rows), ("dimensions", .strs c.dimensions)]),
      ("tooltip", c.tooltip.toValue)] ++
    present "grid" Grid.toValue c.grid ++
    present "dataZoom" (fun z => .list [z.toValue]) c.zoom ++
    [("color", .strs c.color)])

/-- The chart with the roles it was given and the warnings about its hint. -/
def toValue (c : Chart) : Value :=
  .doc [("chart_type", .str c.kind), ("layout", .str c.layout.name),
    ("category_field", .optStr c.category), ("value_field", .optStr c.value),
    ("warnings", .strs c.warnings), ("option", c.toOption)]

end Chart

end Inquiry
