import Inquiry.Server.Encoding
import Inquiry.Service.Compile
import Inquiry.Shape

/-!
Reading the bodies of requests. A body that is no JSON, is missing, or does not have the shape that
its route asks for is refused with a list of what is wrong and where.
-/
namespace Inquiry.Server

/-- Why a body was refused. -/
inductive Refusal where
  | invalid (violations : List Violation)
  /-- The body could not be converted at all. -/
  | unreadable
  deriving Repr, BEq

/-- A text with a least number of characters. -/
def atLeast (least : Nat) (v : Value) : Shape.Checked String :=
  match Shape.text v with
  | .error vs => .error vs
  | .ok s =>
    if s.length < least then
      Shape.refuse ⟨"string_too_short", [], "String should have at least " ++ toString least ++
        (if least = 1 then " character" else " characters"), v⟩
    else .ok s

/-- The same with a greatest number too. -/
def between (least most : Nat) (v : Value) : Shape.Checked String :=
  match atLeast least v with
  | .error vs => .error vs
  | .ok s =>
    if most < s.length then
      Shape.refuse ⟨"string_too_long", [],
        "String should have at most " ++ toString most ++ " characters", v⟩
    else .ok s

/-- What is wrong with a body that is no mapping. -/
def notFields (input : Value) : Violation :=
  ⟨"model_attributes_type", [],
    "Input should be a valid dictionary or object to extract fields from", input⟩

def entries : Value → Shape.Checked (List (Value × Value))
  | .dict es => .ok es
  | v => Shape.refuse (notFields v)

def namesValue : Option (List String) → Value
  | none => .null
  | some names => .strs names

def questionOf (es : List (Value × Value)) : Shape.Checked Question :=
  let query := Shape.required es "query" (between 3 1000)
  let names := Shape.field es "collection_names" none (Shape.optional (Shape.list Shape.text))
  let mode := Shape.field es "mode" none (Shape.optional Shape.text)
  (Shape.both query (Shape.both names mode)).map fun (q, n, m) => ⟨q, namesValue n, m, .null, .null⟩

/-- A recommendation and the ids of the charts that are wanted of it. -/
structure Selection where
  recommendation : String
  ids : List String
  deriving Repr, DecidableEq

def selectionOf (es : List (Value × Value)) : Shape.Checked Selection :=
  let id := Shape.required es "recommendation_id" (atLeast 1)
  let ids := Shape.field es "selected_ids" ["primary"] (Shape.list Shape.text)
  (Shape.both id ids).map fun (r, s) => ⟨r, s⟩

def notJson (offset : Nat) : Violation :=
  ⟨"json_invalid", [.str "body", .ofNat offset], "JSON decode error", .dict []⟩

/-- The JSON of a body; none if there is no body or the body is null. -/
def json? (body : String) : Except Refusal (Option Value) :=
  if body.isEmpty then .ok none
  else
    match (bodyText? body.toUTF8.toList).map Json.parse with
    | none => .error .unreadable
    | some (.ok .null) => .ok none
    | some (.ok v) => .ok (some v)
    | some (.error f) =>
      match f.cause with
      | .longInteger _ => .error .unreadable
      | .tooDeep _ => .error .unreadable
      | _ => .error (.invalid [notJson f.offset])

/-- What a body says, read field by field. -/
def readBody {α : Type} (read : List (Value × Value) → Shape.Checked α) (body : String) :
    Except Refusal α :=
  match json? body with
  | .error r => .error r
  | .ok none => .error (.invalid [(Violation.missing .null).within (.str "body")])
  | .ok (some v) =>
    match Shape.within (.str "body") ((entries v).bind read) with
    | .ok a => .ok a
    | .error vs => .error (.invalid vs)

end Inquiry.Server
