import Inquiry.Chart.Drawing
import Inquiry.Recommendation.Clock
import Inquiry.Service.Compile
import Inquiry.Store.Execution
import Inquiry.Summary

/-!
Answering a question: it is compiled, the pipeline runs, a chart is drawn and a summary written, in
this order. If the plan has a chart hint, what is needed to draw the chart again is kept in the cache.
A question that fails leaves the cache as it was.
-/
namespace Inquiry

structure Answer where
  query : String
  compiled : Compiled
  rows : List Value
  chart : Option Chart
  narrative : String
  /-- The id under which the chart can be drawn again. -/
  recommendation : Option String
  deriving Repr, BEq

namespace Answer

def warningValue (warning : String) : Value :=
  .doc [("kind", .str "chart_warning"), ("message", .str warning)]

/-- What was noticed about the dates, and then about the chart. -/
def diagnostics (a : Answer) : List Value :=
  a.compiled.diagnostics.map (·.toValue) ++
    ((a.chart.map (·.warnings)).getD []).map warningValue

def toValue (a : Answer) : Value :=
  .doc [("query", .str a.query), ("interpretation", .str a.compiled.draft.interpretation),
    ("primary_collection", .str a.compiled.draft.primary),
    ("targeted_collections", .strs (a.compiled.schemas.map (·.1))),
    ("pipeline", .list a.compiled.pipeline), ("results", .list a.rows),
    ("narrative_answer", .str a.narrative), ("can_visualize", .bool a.chart.isSome),
    ("explanation", .str a.compiled.draft.explanation),
    ("diagnostics", .list a.diagnostics),
    ("recommendation_id", .optStr a.recommendation),
    ("chart_spec", match a.chart with
      | none => .null
      | some c => c.toValue)]

end Answer

/-- What a service remembers between questions. -/
structure Memory where
  /-- The cache, or why it could not be set up. -/
  cache : Except Fault (Recommendation.Cache Value)
  /-- How many ids have been given out. -/
  issued : Nat
  /-- The ids in the order in which they are given out. They are drawn at random, so nothing is known of
  them; that an id is a new one is said where it matters. -/
  ids : Nat → String

namespace Memory

/-- A memory of nothing, with the ids that it will give out. -/
def startWith (ids : Nat → String) (s : Settings.Source) : Memory :=
  ⟨s.map fun s => .empty (.float s.recommendationTtl) s.recommendationCapacity, 0, ids⟩

/-- A memory of nothing that counts its ids. -/
def start (s : Settings.Source) : Memory :=
  startWith (fun n => Recommendation.idOf (n + 1)) s

/-- Keeps an entry; the id is a new one. -/
def keep (m : Memory) (now : Value) (entry : Recommendation) :
    Except Fault (Memory × String) := do
  let cache ← m.cache
  let id := m.ids m.issued
  match cache.putAt id entry now with
  | .ok after => .ok ({ m with cache := .ok after, issued := m.issued + 1 }, id)
  | .error d => .error (.defect d)

/-- Reads an entry, and the memory after that. -/
def read (m : Memory) (now : Value) (id : Value) :
    Except Fault (Memory × Option Recommendation) := do
  let cache ← m.cache
  match cache.readAt id now with
  | .ok (after, entry) => .ok ({ m with cache := .ok after }, entry)
  | .error d => .error (.defect d)

/-- Removes what has expired, and tells how many entries that were. -/
def sweep (m : Memory) (now : Value) : Except Fault (Memory × Nat) := do
  let cache ← m.cache
  match cache.sweepAt now with
  | .ok (after, removed) => .ok ({ m with cache := .ok after }, removed)
  | .error d => .error (.defect d)

end Memory

namespace Service

/-- The chart of a result, and what is logged about it. -/
def chart (s : Settings.Source) (hint : Option Hint) (rows : List Value)
    (interpretation : Option String) (recommended : Bool) : Traced (Option Chart) :=
  match s with
  | .ok s =>
    ⟨Chart.ofResult s.zoomThreshold hint (.list rows) interpretation recommended,
      ⟨Chart.ofResultLog s.zoomThreshold hint (.list rows) recommended, [], []⟩⟩
  | .error f => if recommended && !rows.isEmpty then .fail f else .done none

/-- An answer that is not yet kept. -/
structure Draft where
  compiled : Compiled
  rows : List Value
  chart : Option Chart
  narrative : String
  deriving Repr, BEq

/-- The steps from a question to everything that is in its answer. -/
def work (s : Service) (q : Question) (mode : String) : Traced Draft := do
  let compiled ← compile s { q with mode := some mode }
  let draft := compiled.draft
  let rows ← Store.run s.settings s.database (.list compiled.pipeline) draft.primary q.runLimit
  let drawn ← chart s.settings draft.hint rows (some draft.interpretation) draft.recommended
  let narrative ← Summary.write s.settings s.model 1 q.text (.list rows) draft.interpretation
    mode q.modelLimit
  .done ⟨compiled, rows, drawn, narrative⟩

/-- What is kept of a draft with a hint. -/
def entryOf (q : Question) (d : Draft) (hint : Hint) : Recommendation :=
  ⟨q.text, d.compiled.draft.primary, d.compiled.pipeline, d.compiled.draft.interpretation, [hint]⟩

/-- Keeps what a draft needs to be drawn again. -/
def keep (m : Memory) (now : Value) (q : Question) (d : Draft) :
    Except Fault (Memory × Option String) :=
  match d.compiled.draft.hint with
  | none => .ok (m, none)
  | some hint => (m.keep now (entryOf q d hint)).map fun (m, id) => (m, some id)

def openingLine (q : Question) (mode : String) : Log.Line :=
  Log.info .service (Log.eventText "Copilot.answer_query"
    [("query", .str q.text), ("collections", q.collections), ("mode", .str mode)])

def layoutName : Option Chart → Value
  | none => .null
  | some c => .str c.layout.name

def closingLine (d : Draft) : Log.Line :=
  Log.info .service (Log.eventText "Copilot.answer_query done"
    [("rows", .ofNat d.rows.length), ("chart", layoutName d.chart), ("elapsed_ms", .int 0)])

/-- The rows as documents. -/
def resultRows (rows : List Value) : Except Fault (List Value) :=
  match Shape.within (.str "results") (Shape.list Shape.document (.list rows)) with
  | .ok documents => .ok documents
  | .error violations => .error (.invalid "QueryAnswer" violations)

/-- The answer that a draft becomes. -/
def answerOf (q : Question) (d : Draft) (id : Option String) : Except Fault Answer :=
  (resultRows d.rows).map fun rows => ⟨q.text, d.compiled, rows, d.chart, d.narrative, id⟩

/-- The answer to a question in a mode, and the memory after it. -/
def answerIn (s : Service) (m : Memory) (now : Value) (q : Question) (mode : String) :
    Memory × Traced Answer :=
  let worked := work s q mode
  let trace : Trace := ⟨[openingLine q mode], [], []⟩ ++ worked.trace
  match worked.result with
  | .error f => (m, ⟨.error f, trace⟩)
  | .ok d =>
    match keep m now q d with
    | .error f => (m, ⟨.error f, trace⟩)
    | .ok (after, id) => (after, ⟨answerOf q d id, trace ++ ⟨[closingLine d], [], []⟩⟩)

/-- The answer to a question, and the memory after it. Without a mode the settings decide. -/
def answer (s : Service) (m : Memory) (now : Value) (q : Question) : Memory × Traced Answer :=
  match Settings.modeOr s.settings q.mode with
  | .error f => (m, .fail f)
  | .ok mode => answerIn s m now q mode

end Service

end Inquiry
