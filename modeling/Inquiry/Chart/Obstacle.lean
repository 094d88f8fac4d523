import Inquiry.Chart.Roles

/-!
Obstacles to a chart. Rows should be documents and their keys texts; where they are not, the first
step that cannot be done on them tells why.
-/
namespace Inquiry.Chart

/-- Dimensions of any type. -/
def askedParts (hint : Hint) (first : Value) : Except Defect (List Value) :=
  if hint.dimensions.isEmpty then
    (Rows.parts first).map fun ps => ps.filter fun p => !p.same (.str "_id")
  else .ok (hint.dimensions.map .str)

/-- Why a dimension cannot be looked for in the first row. -/
def partDefect? (first part : Value) : Option Defect :=
  match Rows.lookup first part with
  | .error d => some d
  | .ok .null =>
    match part with
    | .str name =>
      match Rows.holds first (firstPart name) with
      | .error d => some d
      | .ok _ => none
    | p => some (Rows.splitDefect p)
  | .ok _ => none

/-- Why dimensions that are left out cannot be told, counted from `index`. -/
def droppedDefect? (index : Nat) : List Value → Option Defect
  | [] => none
  | .str _ :: rest => droppedDefect? (index + 1) rest
  | p :: _ => some (.joined index p.fullTypeName)

/-- Why a dimension has no name that could be shown. -/
def nameDefect? : Value → Option Defect
  | .str _ => none
  | .bytes _ => some .bytesAsText
  | p => some (.notText p.fullTypeName)

/-- Why dimensions cannot be decided. -/
def dimensionDefect? (hint : Hint) (first : Value) : Option Defect :=
  match askedParts hint first with
  | .error d => some d
  | .ok parts =>
    let kept := parts.take maxDimensions
    ((kept.findSome? (partDefect? first)).or (droppedDefect? 0 (parts.drop maxDimensions))).or
      (kept.findSome? nameDefect?)

/-- Why the values of the category cannot be told. -/
def dataDefect? (r : Roles) (rows : List Value) : Option Defect :=
  r.category.bind fun c => rows.findSome? fun row => Rows.defect? row c

/-- What stands in the way of the roles and their data. -/
def obstacle? (hint : Hint) (first : Value) (rows : List Value) : Option Defect :=
  (dimensionDefect? hint first).or (dataDefect? (Roles.decideFrom hint first) rows)

end Inquiry.Chart
