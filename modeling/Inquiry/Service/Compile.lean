import Inquiry.Dates.Pipeline
import Inquiry.Plan.Resolution
import Inquiry.Store.Schemas

/-!
Compiling a question: schemas are read, a plan is made over them, and its pipeline is healed against
the date fields of the collection that it starts from.
-/
namespace Inquiry

/-- What a service works with. -/
structure Service where
  settings : Settings.Source
  database : Database
  model : Model

/-- A question with what its asker wants of the answer. -/
structure Question where
  text : String
  /-- The collections that may be used, as a list of names; null allows all. -/
  collections : Value
  mode : Option String
  /-- Seconds for each request to a model; null leaves it to the settings. -/
  modelLimit : Value
  /-- Milliseconds for the pipeline; null leaves it to the settings. -/
  runLimit : Value

/-- A plan whose pipeline is ready to run. -/
structure Compiled where
  draft : Plan
  pipeline : List Value
  schemas : Schemas
  diagnostics : List Dates.Diagnostic
  /-- The date fields after the last stage. -/
  dateFields : List String
  deriving Repr, BEq

namespace Compiled

def toValue (c : Compiled) : Value :=
  .doc [("interpretation", .str c.draft.interpretation),
    ("primary_collection", .str c.draft.primary),
    ("targeted_collections", .strs (c.schemas.map (·.1))),
    ("draft_pipeline", .list c.draft.pipeline), ("pipeline", .list c.pipeline),
    ("date_fields", .strs c.dateFields),
    ("visualization_recommended", .bool c.draft.recommended),
    ("visualization_hint", Plan.hintValue c.draft.hint),
    ("explanation", .str c.draft.explanation),
    ("diagnostics", .list (c.diagnostics.map (·.toValue)))]

end Compiled

namespace Service

/-- Heals the pipeline of a plan, with no date fields known but those of its collection's schema. -/
def healWith (forced : List String) (schemas : Schemas) (draft : Plan) : Traced Compiled :=
  let schema := schemas.lookup draft.primary
  let start := Dates.Progress.start (DateFields.seed schema)
  let draftPipeline := Value.list draft.pipeline
  let (after, result) := Dates.healPipeline forced start draft.primary draftPipeline
  let log := DateFields.seedLog schema ++
    Dates.logLines forced start after draft.primary draftPipeline result
  match result with
  | .error m => ⟨.error (.malformed m), ⟨log, [], []⟩⟩
  | .ok pipeline =>
    ⟨.ok ⟨draft, pipeline, schemas, after.diagnostics, after.fields.names⟩, ⟨log, [], []⟩⟩

/-- The same with the forced collections of the settings; the date fields are known before. -/
def heal (s : Settings.Source) (schemas : Schemas) (draft : Plan) : Traced Compiled :=
  match s with
  | .ok s => healWith s.forcedCollections schemas draft
  | .error f => ⟨.error f, ⟨DateFields.seedLog (schemas.lookup draft.primary), [], []⟩⟩

/-- Everything up to the pipeline that would run. -/
def compile (s : Service) (q : Question) : Traced Compiled := do
  let schemas ← Store.schemas s.database q.collections
  let draft ← Plan.resolve s.settings s.model q.text schemas q.mode q.modelLimit
  heal s.settings schemas draft

end Service

end Inquiry
