import Inquiry.Plan.Advice
import Inquiry.Plan.Basic
import Inquiry.Value.Order

/-!
From a JSON object to a plan: the pipeline has to be a list of objects, and the collection has to be
one of those that were offered. The chart part is read as advice.
-/
namespace Inquiry.Plan

/-- Keys in ascending order. -/
def sortedKeys (keys : List Value) : Except Fault (List Value) :=
  match Value.sorted keys with
  | .ok sorted => .ok sorted
  | .error d => .error (.defect d)

def keysOf : Value → List Value
  | .dict es => es.map (·.1)
  | _ => []

/-- The value under the first of two keys that is there. -/
def either (data : Value) (key other : String) : Value :=
  match data.get? key with
  | some v => v
  | none => data.getD other

/-- The text of a value, if the value is given. -/
def givenOr (v : Value) (other : String) : String := if v.isGiven then v.text else other

def badStages (stages : List Value) : List Nat :=
  (stages.zipIdx.filter fun s => !s.1.isDict).map (·.2)

/-- The stages as documents. -/
def stageDocuments (stages : List Value) : Shape.Checked (List Value) :=
  Shape.within (.str "pipeline") (Shape.list Shape.document (.list stages))

/-- The collection that a plan names, if it is one of the schemas. -/
def primaryOf (data : Value) (schemas : Schemas) : Except Fault String :=
  match either data "primary_collection" "primaryCollection" with
  | .str name =>
    if name.isEmpty then
      (sortedKeys (keysOf data)).bind fun keys => .error (.plan (.noPrimary keys))
    else if (schemas.lookup name).isSome then .ok name
    else .error (.plan (.unknownPrimary name (schemas.map (·.1))))
  | _ => (sortedKeys (keysOf data)).bind fun keys => .error (.plan (.noPrimary keys))

/-- The stages of a plan; only a document can be asked for them. -/
def stagesOf (data : Value) : Except Fault (List Value) :=
  if !data.isDict then .error (.defect (.noAttribute data.fullTypeName "get"))
  else
    match data.getD "pipeline" with
    | .list stages =>
      match badStages stages with
      | [] => .ok stages
      | bad => .error (.plan (.badStages bad))
    | _ => (sortedKeys (keysOf data)).bind fun keys => .error (.plan (.noPipeline keys))

/-- The plan in a JSON object. -/
def ofValue (data : Value) (schemas : Schemas) : Traced Plan := do
  let stages ← Traced.ofResult (stagesOf data)
  let primary ← Traced.ofResult (primaryOf data schemas)
  let hint ← Advice.read (data.getD "visualization")
  match stageDocuments stages with
  | .ok stages => .done {
      interpretation := givenOr (data.getD "interpretation") "Query processed successfully"
      primary := primary
      requiresAnalysis := (data.getD "requires_analysis").isGiven
      pipeline := stages
      recommended :=
        (either data "visualization_recommended_by_ai" "visualization_recommended").isGiven
      hint := hint
      explanation := givenOr (data.getD "explanation") "" }
  | .error violations => .fail (.plan (.shape violations))

end Inquiry.Plan
