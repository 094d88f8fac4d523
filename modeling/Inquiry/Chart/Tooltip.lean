import Inquiry.Shape
import Inquiry.Decimal.Fixed

/-!
Tooltips: the text that is shown over one category of a chart.
-/
namespace Inquiry.Chart

structure Tooltip where
  trigger : String
  axisPointer : List (String × Value)
  categoryLabel : String
  valueLabel : String
  deriving Repr, BEq

/-- One series at the category. -/
structure TooltipPoint where
  value : Value
  seriesName : Option String
  marker : String
  deriving Repr, BEq

def shadowPointer : List (String × Value) := [("type", .str "shadow")]

/-- Digits after the point, without zeros at their end. -/
def significantPart (ds : List Char) : List Char := (ds.reverse.dropWhile (· = '0')).reverse

/-- A double with at most three places and groups of three. -/
def groupedFloat (x : Float) : String :=
  match Decimal.Binary.ofFloat x with
  | none => Decimal.fixed x 3
  | some b =>
    if b.isWhole then Decimal.groupedInt b.truncate
    else
      let (negative, whole, part) := b.fixedParts 3
      let shown := significantPart part
      String.ofList ((if negative then ['-'] else []) ++ Decimal.grouped whole ++
        if shown.isEmpty then [] else '.' :: shown)

/-- Numbers have thousands separators; everything else is shown as it is. -/
def tooltipValue : Value → String
  | .null => "N/A"
  | .int n => Decimal.groupedInt n
  | .int64 n => Decimal.groupedInt n
  | .float x => groupedFloat x
  | v => v.text

namespace Tooltip

def pointLine (t : Tooltip) (p : TooltipPoint) : String :=
  let label := match p.seriesName with
    | some name => if name.isEmpty then t.valueLabel else name
    | none => t.valueLabel
  (if p.marker.isEmpty then "" else p.marker ++ " ") ++ label ++ " (" ++ t.valueLabel ++ "): " ++
    tooltipValue p.value

/-- The category on the first line, then a line for each point. -/
def render (t : Tooltip) (category : Value) (points : List TooltipPoint) : String :=
  "\n".intercalate ((t.categoryLabel ++ ": " ++ category.text) :: points.map t.pointLine)

/-- The first of two names under which a field is given. -/
def aliased {α : Type} (entries : List (Value × Value)) (name other : String) (default : α)
    (read : Value → Shape.Checked α) : Shape.Checked α :=
  if (Value.lookup name entries).isSome then Shape.field entries name default read
  else Shape.field entries other default read

def ofEntries (entries : List (Value × Value)) : Shape.Checked Tooltip :=
  let trigger := Shape.field entries "trigger" "axis" Shape.text
  let pointer := aliased entries "axisPointer" "axis_pointer" shadowPointer Shape.mapping
  let category := aliased entries "categoryLabel" "category_label" "Category" Shape.text
  let value := aliased entries "valueLabel" "value_label" "Value" Shape.text
  (Shape.both trigger (Shape.both pointer (Shape.both category value))).map
    fun (t, p, c, v) => ⟨t, p, c, v⟩

def toValue (t : Tooltip) : Value :=
  .doc [("trigger", .str t.trigger), ("axisPointer", .doc t.axisPointer),
    ("categoryLabel", .str t.categoryLabel), ("valueLabel", .str t.valueLabel)]

end Tooltip

def TooltipPoint.ofEntries (entries : List (Value × Value)) : Shape.Checked TooltipPoint :=
  let value := Shape.field entries "value" .null fun v => .ok v
  let name := Shape.field entries "series_name" none (Shape.optional Shape.text)
  let marker := Shape.field entries "marker" "" Shape.text
  (Shape.both value (Shape.both name marker)).map fun (v, n, m) => ⟨v, n, m⟩

end Inquiry.Chart
