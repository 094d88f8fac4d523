import Inquiry.Recommendation.Sweeper
import Inquiry.Server.Body
import Inquiry.Server.Route
import Inquiry.Server.Wire
import Inquiry.Service.Render

/-!
Answering requests. A reported failure answers with its status and its report; any other failure of
a question answers as an internal one with its message, and elsewhere without one.
-/
namespace Inquiry.Server

structure Request where
  method : String
  target : String
  body : String
  deriving Repr, DecidableEq

inductive Response where
  | json (status : Nat) (body : Value)
  | text (status : Nat) (body : String)
  deriving Repr, BEq

namespace Response

def detail (status : Nat) (message : String) : Response :=
  .json status (.doc [("detail", .str message)])

def internal : Response := .text 500 "Internal Server Error"

/-- What was refused is told with the value that stands there, which has to be finite. -/
def ofRefusal : Refusal → Response
  | .invalid vs =>
    if vs.all fun v => allFinite v.input then
      .json 422 (.doc [("detail", .list (vs.map (·.toValue)))])
    else internal
  | .unreadable => detail 400 "There was an error parsing the body"

def ofReport (r : Report) : Response :=
  .json r.kind.status (.doc [("error", .doc [("code", .str r.kind.code),
    ("message", .str r.message), ("details", .doc r.details)])])

end Response

/-- A successful answer. -/
def Response.ok (body : Value) : Response :=
  match wire? body with
  | some sent => .json 200 sent
  | none => .internal

/-- A request with its settled path, for the log. -/
structure Call where
  method : String
  path : String
  deriving Repr, DecidableEq

def failedLine (c : Call) (r : Report) : Log.Line :=
  Log.warning .server
    (c.method ++ " " ++ c.path ++ " failed: [" ++ r.kind.code ++ "] " ++ r.message)

/-- The response to work that has ended. With a name, a failure that nobody reports is logged under
it and told to the client. -/
def finish {α : Type} (c : Call) (name : Option String) (t : Traced α) (view : α → Value) :
    Trace × Response :=
  match t.result with
  | .ok a => (t.trace, .ok (view a))
  | .error f =>
    match f.report?, name with
    | some r, _ => (t.trace ++ ⟨[failedLine c r], [], []⟩, .ofReport r)
    | none, some name =>
      (t.trace ++ ⟨[Log.error .questions ("Copilot." ++ name ++ " failed")], [], []⟩,
        .detail 500 f.message)
    | none, none => (t.trace, .internal)

def schemaItem (s : Schema) : Value :=
  .doc [("collection_name", .str s.name), ("fields", .doc (s.fields.map fun f => (f.1, .str f.2))),
    ("date_fields", .strs s.dateFields)]

/-- The schema of every collection. -/
def allSchemas (db : Database) : Traced (List Schema) := do
  let names ← Store.collections db
  if names.isEmpty then .done []
  else do
    let schemas ← Store.schemas db .null
    .done (schemas.map (·.2))

def oneSchema (db : Database) (name : String) : Traced Schema := do
  let names ← Store.collections db
  if names.contains name then Store.describe db name
  else .fail (.store (.noCollection name))

/-- The response of a route, and the memory after it. -/
def respond (s : Service) (m : Memory) (now : Value) (c : Call) (body : String) :
    Route → Memory × Trace × Response
  | .ask =>
    match readBody questionOf body with
    | .error r => (m, .empty, .ofRefusal r)
    | .ok q =>
      let (after, t) := s.answer m now q
      (after, finish c (some "answer_query") t Answer.toValue)
  | .plan =>
    match readBody questionOf body with
    | .error r => (m, .empty, .ofRefusal r)
    | .ok q => (m, finish c (some "compile_query") (s.compile q) Compiled.toValue)
  | .visualize =>
    match readBody selectionOf body with
    | .error r => (m, .empty, .ofRefusal r)
    | .ok sel =>
      let (after, t) := s.render m now (.str sel.recommendation) (.strs sel.ids) .null
      (after, finish c (some "render_recommendations") t Rendered.toValue)
  | .cacheStats =>
    (m, finish c none (.ofResult m.cache) fun cache => cache.stats id)
  | .cacheSweep =>
    match m.sweep now with
    | .error f => (m, finish c none (.fail f) fun (_ : Nat) => .null)
    | .ok (after, removed) =>
      (after, ⟨Recommendation.sweepLog removed, [], []⟩, .ok (.doc [("swept", .ofNat removed)]))
  | .collections =>
    (m, finish c none (allSchemas s.database) fun ss =>
      .doc [("collections", .list (ss.map schemaItem))])
  | .collection name => (m, finish c none (oneSchema s.database name) schemaItem)
  | .health => (m, .empty, .ok (.doc [("status", .str "ok")]))
  | .manual => (m, .empty, .text 200 "")

/-- A refusal by method or path; only its status is sent to who asks for no more. -/
def unrouted (method : String) (status : Nat) (message : String) : Response :=
  if method = "HEAD" then .text status "" else .detail status message

/-- The response to a request. -/
def handle (s : Service) (m : Memory) (now : Value) (r : Request) :
    Memory × Trace × Response :=
  let path := settlePath r.target.length (pathOf r.target)
  match Route.ofPath? path with
  | none => (m, .empty, unrouted r.method 404 "Not Found")
  | some route =>
    if route.methods.contains r.method then
      respond s m now ⟨r.method, shownPath path⟩ r.body route
    else (m, .empty, unrouted r.method 405 "Method Not Allowed")

/-- What is logged when a server starts and stops around the given lines. Without settings it does not
start. -/
def lifespanLog (s : Settings.Source) (lines : List Log.Line) : Except Fault (List Log.Line) :=
  s.map fun s =>
    let (running, started) := (Recommendation.Sweeper.make (.float s.sweepInterval)).start
    let (_, stopped) := running.stop
    started ++ lines ++ stopped

end Inquiry.Server
