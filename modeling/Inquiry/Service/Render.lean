import Inquiry.Service.Answer

/-!
Drawing the charts of an earlier answer again: the pipeline that was kept runs once more, and every
selected id gives one chart or one diagnostic, in order.
-/
namespace Inquiry

/-- What a selected id comes to. -/
inductive Rendering where
  | chart (id : Value) (c : Chart)
  /-- The recommendation has no hint of this id. -/
  | unmatched (id recommendation : Value)
  | noRows (id : Value)
  deriving Repr, BEq

namespace Rendering

def withId (id : Value) : Value → Value
  | .dict es => .dict ((.str "id", id) :: es)
  | v => v

def chartValue? : Rendering → Option Value
  | .chart id c => some (withId id c.toValue)
  | _ => none

def diagnosticValue? : Rendering → Option Value
  | .chart _ _ => none
  | .unmatched id recommendation =>
    some (.doc [("kind", .str "unmatched_recommendation"), ("id", id),
      ("message", .str ("No visualization '" ++ id.text ++ "' in recommendation " ++
        recommendation.text))])
  | .noRows id =>
    some (.doc [("kind", .str "no_results"), ("id", id),
      ("message", .str "The pipeline returned no rows; nothing to visualize")])

end Rendering

/-- Charts that were drawn again. -/
structure Rendered where
  recommendation : Value
  primary : String
  rowCount : Nat
  renderings : List Rendering
  deriving Repr, BEq

def Rendered.toValue (r : Rendered) : Value :=
  .doc [("recommendation_id", r.recommendation), ("primary_collection", .str r.primary),
    ("row_count", .ofNat r.rowCount),
    ("charts", .list (r.renderings.filterMap (·.chartValue?))),
    ("diagnostics", .list (r.renderings.filterMap (·.diagnosticValue?)))]

namespace Service

def unmatchedLine (recommendation id : Value) : Log.Line :=
  Log.warning .service
    ("Recommendation " ++ recommendation.text ++ " has no hint '" ++ id.text ++ "' -- skipped")

/-- One selected id. -/
def renderOne (s : Settings.Source) (recommendation : Value) (entry : Recommendation)
    (rows : List Value) (id : Value) : Traced Rendering := do
  let key ← Traced.ofResult ((Rows.asKey id).mapError .defect)
  match key.str?.bind entry.hint? with
  | none => do
    Traced.log [unmatchedLine recommendation id]
    .done (.unmatched id recommendation)
  | some hint => do
    let drawn ← chart s (some hint) rows (some entry.interpretation) true
    .done (match drawn with
      | none => .noRows id
      | some c => .chart id c)

def renderAll (s : Settings.Source) (recommendation : Value) (entry : Recommendation)
    (rows : List Value) : List Value → Traced (List Rendering)
  | [] => .done []
  | id :: ids => do
    let one ← renderOne s recommendation entry rows id
    let rest ← renderAll s recommendation entry rows ids
    .done (one :: rest)

/-- The charts of an entry; what is selected should be a list of ids. -/
def renderEntry (s : Service) (recommendation : Value) (entry : Recommendation)
    (selected runLimit : Value) : Traced Rendered := do
  let rows ← Store.run s.settings s.database (.list entry.pipeline) entry.primary runLimit
  let ids ← Traced.ofResult ((Rows.parts selected).mapError .defect)
  let renderings ← renderAll s.settings recommendation entry rows ids
  .done ⟨recommendation, entry.primary, rows.length, renderings⟩

/-- The selected charts of a recommendation, and the memory after it was read. -/
def render (s : Service) (m : Memory) (now recommendation selected runLimit : Value) :
    Memory × Traced Rendered :=
  match m.read now recommendation with
  | .error f => (m, .fail f)
  | .ok (after, none) => (after, .fail (.noRecommendation recommendation))
  | .ok (after, some entry) => (after, renderEntry s recommendation entry selected runLimit)

end Service

end Inquiry
