import Inquiry.Model.Provider
import Inquiry.Plan.Keywords
import Inquiry.Plan.Prompt
import Inquiry.Plan.Shape
import Inquiry.Reply.Extract
import Inquiry.Trace

/-!
From a question to a plan: by keywords in mock mode, else by asking a model once and reading its
reply. There are no retries; a reply that is no plan is a fault.
-/
namespace Inquiry.Plan

/-- The plan in a model's reply. -/
def ofReply (reply : Option String) (schemas : Schemas) : Traced Plan := do
  let text := Value.optStr reply
  let found := Reply.extract text
  Traced.log (Reply.logLines text found)
  let data ← Traced.ofResult found
  Plan.ofValue data schemas

/-- The plan of a model, to which this is the first request. -/
def byModel (model : Model) (query : String) (schemas : Schemas) (mode : String) (limit : Value) :
    Traced Plan := do
  let reply ← Traced.ask model 0 ⟨Prompt.planning query schemas, some mode, limit⟩
  ofReply reply schemas

def resolvedLine (mode : String) (p : Plan) : Log.Line :=
  Log.info .plans ("Planner[" ++ mode ++ "] -> " ++ Json.logText p.toValue)

/-- The plan for a question over the given schemas. Without a mode the settings decide. A plan that is
nested too deeply for the log is a fault. -/
def resolve (s : Settings.Source) (model : Model) (query : String) (schemas : Schemas)
    (mode : Option String) (limit : Value) : Traced Plan :=
  match schemas with
  | [] => .fail (.store .noSchemas)
  | first :: rest => do
    let mode ← Traced.ofResult (Settings.modeOr s mode)
    let plan ← if mode = Provider.mock.name then .done (Keywords.plan query first rest)
      else byModel model query (first :: rest) mode limit
    if plan.openValues.all (Json.fits Json.logDepth) then
      Traced.log [resolvedLine mode plan]
      .done plan
    else .fail (.defect .tooNested)

end Inquiry.Plan
