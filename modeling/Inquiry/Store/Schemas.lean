import Inquiry.Schema
import Inquiry.Plan.Basic
import Inquiry.Rows.Path
import Inquiry.Store.Basic

/-!
Reading schemas from a document store. A schema describes one sample document; collections of the
system are left out, and so are requested ones that do not exist.
-/
namespace Inquiry.Store

/-- The fault that a failure means, and how it is logged, while the store was doing `action`. -/
def metadataFault (action : String) (collection : Option String) : Failure → Traced α
  | .other f => .fail f
  | .driver text timedOut _ =>
    let (verb, fault) := if timedOut then ("timed out", StoreFault.timedOut action collection)
      else ("failed", StoreFault.failed action collection text)
    ⟨.error (.store fault),
      ⟨[Log.error .schemas ("Document store " ++ verb ++ " while " ++ action ++ ": " ++ text)], [], []⟩⟩

def isSystem (name : String) : Bool := Text.startsWith "system." name

/-- The collections of users, in order. -/
def collections (db : Database) : Traced (List String) :=
  match db.names with
  | .ok names => .done ((names.filter fun n => !isSystem n).mergeSort fun a b => a ≤ b)
  | .error f => metadataFault "listing collections" none f

/-- The schema that a document shows; its keys have to be texts. -/
def describeDocument (name : String) (entries : List (Value × Value)) : Except Fault Schema :=
  match Shape.within (.str "fields") (Shape.mapping (.dict entries)) with
  | .ok fields => .ok ⟨name, fields.map fun f => (f.1, (FieldType.ofValue f.2).name)⟩
  | .error violations => .error (.invalid "SchemaSnapshot" violations)

def emptyLine (name : String) : Log.Line :=
  Log.info .schemas ("Collection " ++ name ++ " is empty -- empty schema snapshot")

/-- The schema of a collection. -/
def describe (db : Database) (name : String) : Traced Schema :=
  match db.sample name with
  | .error f => metadataFault ("sampling collection '" ++ name ++ "'") (some name) f
  | .ok (some (.dict (e :: es))) => .ofResult (describeDocument name (e :: es))
  | .ok _ => do
    Traced.log [emptyLine name]
    .done ⟨name, []⟩

/-- The schemas of some collections, each under its name. -/
def describeAll (db : Database) : List String → Traced Schemas
  | [] => .done []
  | name :: names => do
    let s ← describe db name
    let rest ← describeAll db names
    .done ((name, s) :: rest)

def skippedLine (name : Value) : Log.Line :=
  Log.warning .schemas ("Requested collection '" ++ name.text ++ "' does not exist -- skipped")

/-- What is asked for, each once. -/
def distinctNames (requested : Value) : Except Defect (List Value) := do
  let names ← Rows.parts requested
  let keys ← names.mapM Rows.asKey
  .ok (keys.foldl (fun kept v => if kept.any (·.same v) then kept else kept ++ [v]) [])

/-- The names that exist. -/
def foundNames (available : List String) (requested : List Value) : List String :=
  (requested.filterMap Value.str?).filter available.contains

/-- What is asked for and does not exist. -/
def missingNames (available : List String) (requested : List Value) : List Value :=
  requested.filter fun v => !v.str?.any available.contains

/-- The schemas of the collections in a request; at least one has to exist. -/
def schemasOf (db : Database) (available : List String) (requested : List Value) :
    Traced Schemas := do
  let missing := missingNames available requested
  Traced.log (missing.map skippedLine)
  match foundNames available requested with
  | [] => .fail (.store (.noneFound missing available))
  | names => describeAll db names

/-- The schemas of the requested collections, or of all if the request is null. -/
def schemas (db : Database) (requested : Value) : Traced Schemas := do
  let available ← collections db
  if requested.isNull then
    match available with
    | [] => .fail (.store (.emptyDatabase available))
    | names => describeAll db names
  else
    match distinctNames requested with
    | .error d => .fail (.defect d)
    | .ok names => schemasOf db available names

end Inquiry.Store
