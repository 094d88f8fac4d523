import Inquiry.Plan.Hint
import Inquiry.Json.Printer
import Inquiry.Schema

/-!
Plans: how a question is understood, the collection and the pipeline that answer it, and a chart
hint.
-/
namespace Inquiry

structure Plan where
  interpretation : String
  /-- The collection that the pipeline starts from. -/
  primary : String
  requiresAnalysis : Bool
  pipeline : List Value
  /-- Whether a chart is wanted. -/
  recommended : Bool
  hint : Option Hint
  explanation : String
  deriving Repr, BEq, Inhabited

namespace Plan

def hintValue (h : Option Hint) : Value :=
  match h with
  | none => .null
  | some h => h.toValue

def toValue (p : Plan) : Value :=
  .doc [("interpretation", .str p.interpretation), ("primary_collection", .str p.primary),
    ("requires_analysis", .bool p.requiresAnalysis), ("pipeline", .list p.pipeline),
    ("visualization_recommended", .bool p.recommended), ("visualization_hint", hintValue p.hint),
    ("explanation", .str p.explanation)]

/-- The values of a plan that may have any shape: the fields of the stages and of the series. -/
def openValues (p : Plan) : List Value :=
  p.pipeline.flatMap (fun
    | .dict es => es.map (·.2)
    | v => [v]) ++
  ((p.hint.map (·.series)).getD []).flatMap fun t => (t.encode ++ t.extras).map (·.2)

end Plan

/-- The collections that a plan may use, each with its schema. -/
abbrev Schemas := List (String × Schema)

end Inquiry
