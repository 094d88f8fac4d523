import Inquiry.Shape

/-!
Chart hints: the advice about a chart that comes with a plan. Nothing in a hint binds the chart that
is drawn.
-/
namespace Inquiry

/-- One series as it is advised; settings that are not known here are kept. -/
structure SeriesTemplate where
  kind : Option String
  name : Option String
  encode : List (String × Value)
  extras : List (String × Value)
  deriving Repr, BEq, Inhabited

structure Hint where
  id : String
  kind : String
  title : String
  xAxisType : Option String
  yAxisType : Option String
  dimensions : List String
  series : List SeriesTemplate
  color : Option (List String)
  deriving Repr, BEq, Inhabited

namespace SeriesTemplate

def fieldNames : List String := ["type", "name", "encode"]

def ofEntries (entries : List (Value × Value)) : Shape.Checked SeriesTemplate :=
  let kind := Shape.field entries "type" none (Shape.optional Shape.text)
  let name := Shape.field entries "name" none (Shape.optional Shape.text)
  let encode := Shape.field entries "encode" [] Shape.mapping
  (Shape.both kind (Shape.both name (Shape.both encode (Shape.others fieldNames entries)))).map
    fun (k, n, e, x) => ⟨k, n, e, x⟩

def ofValue : Value → Shape.Checked SeriesTemplate
  | .dict es => ofEntries es
  | v => Shape.refuse (Shape.notModel "SeriesSpec" v)

def toValue (s : SeriesTemplate) : Value :=
  .doc ([("type", .optStr s.kind), ("name", .optStr s.name), ("encode", .doc s.encode)] ++ s.extras)

end SeriesTemplate

namespace Hint

/-- The hint that stands in for none. -/
def default : Hint := ⟨"primary", "bar", "", none, none, [], [], none⟩

def axisTypes : Value → Shape.Checked (Option String × Option String)
  | .dict es =>
    Shape.both (Shape.field es "x_axis_type" none (Shape.optional Shape.text))
      (Shape.field es "y_axis_type" none (Shape.optional Shape.text))
  | v => Shape.refuse (Shape.notModel "AxisSpec" v)

/-- A hint from its fields; unknown ones do not count. -/
def ofEntries (es : List (Value × Value)) : Shape.Checked Hint :=
  let id := Shape.field es "id" "primary" Shape.text
  let kind := Shape.field es "type" "bar" Shape.text
  let title := Shape.field es "title" "" Shape.text
  let axes := Shape.field es "axis_spec" (none, none) axisTypes
  let dimensions := Shape.field es "dataset_dimensions" [] (Shape.list Shape.text)
  let series := Shape.field es "series_templates" [] (Shape.list SeriesTemplate.ofValue)
  let color := Shape.field es "color" none (Shape.optional (Shape.list Shape.text))
  (Shape.both id (Shape.both kind (Shape.both title (Shape.both axes (Shape.both dimensions
    (Shape.both series color)))))).map
      fun (i, k, t, (x, y), d, s, c) => ⟨i, k, t, x, y, d, s, c⟩

def toValue (h : Hint) : Value :=
  .doc [("id", .str h.id), ("type", .str h.kind), ("title", .str h.title),
    ("axis_spec", .doc [("x_axis_type", .optStr h.xAxisType), ("y_axis_type", .optStr h.yAxisType)]),
    ("dataset_dimensions", .strs h.dimensions),
    ("series_templates", .list (h.series.map (·.toValue))),
    ("color", match h.color with
      | none => .null
      | some cs => .strs cs)]

end Hint

end Inquiry
