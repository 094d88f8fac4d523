import Inquiry.Model.Provider
import Inquiry.Rows.Sequence
import Inquiry.Trace

/-!
Summaries: a sentence about a result. In mock mode a template writes it; else a model is asked, and
the template steps in for whatever goes wrong there.
-/
namespace Inquiry.Summary

/-- The sentence that stands in for a summary. -/
def fallback (count : Nat) (interpretation : String) : String :=
  "Found " ++ toString count ++ " result(s) for your query: " ++ interpretation

/-- A row without its id; only a document has fields. -/
def topResult (row : Value) : Except Fault (List (Value × Value)) :=
  match row with
  | .dict es => .ok (es.filter fun e => e.1 != .str "_id")
  | v => .error (.defect (.noAttribute v.fullTypeName "items"))

/-- What `read` finds in a result. -/
def part {α : Type} (read : Value → Except Defect α) (result : Value) : Except Fault α :=
  (read result).mapError .defect

/-- A summary from the first row alone. -/
def template (result : Value) (interpretation : String) : Except Fault String :=
  if !result.isGiven then .ok ("No documents matched your query: " ++ interpretation)
  else do
    let count ← part Rows.count result
    let first ← part Rows.first result
    match ← topResult first with
    | [] => .ok (fallback count interpretation)
    | top => do
      let text ← payloadText (.dict top)
      .ok (fallback count interpretation ++ ". Top result: " ++ text)

/-- The prompt that asks a model for a summary. -/
def prompt (size : Int) (query : String) (result : Value) (interpretation : String) :
    Except Fault String := do
  let shown ← part (Rows.front size) result
  let count ← part Rows.count result
  let shownCount ← part Rows.count shown
  let text ← payloadText shown
  .ok ("\n".intercalate
    ["A user asked: \"" ++ query ++ "\"",
      "",
      "The query was understood as: " ++ interpretation,
      "It returned " ++ toString count ++ " result(s). Here are the first " ++
        toString shownCount ++ ":",
      text,
      "",
      "Answer the user's question in 2-3 plain sentences based on these results.",
      "Mention concrete numbers where they help.  Do not describe the query itself."])

/-- What a reply says, if it says anything. -/
def ofReply (reply : Except Fault (Option String)) : Except Fault String :=
  match reply with
  | .error f => .error (.summary (.failed f.message))
  | .ok reply =>
    let text := Text.trim (reply.getD "")
    if text.isEmpty then .error (.summary .empty) else .ok text

/-- A summary written by a model, to which this is the `n`-th request. -/
def byModel (s : Settings.Source) (model : Model) (n : Nat) (query : String) (result : Value)
    (interpretation : String) (provider : Option String) (limit : Value) : Traced String :=
  match s.bind fun s => prompt s.summarySampleSize query result interpretation with
  | .error f => .fail f
  | .ok text =>
    let asked := Traced.ask model n ⟨text, provider, limit⟩
    ⟨ofReply asked.result, asked.trace⟩

def fallbackLine (f : SummaryFault) : Log.Line :=
  Log.warning .summary (f.message ++ " -- falling back to template")

/-- A failed summary becomes the template's sentence, and is logged. -/
def orFallback (result : Value) (interpretation : String) (t : Traced String) : Traced String :=
  match t.result with
  | .error (.summary f) =>
    ⟨(part Rows.count result).map fun n => fallback n interpretation,
      t.trace ++ ⟨[fallbackLine f], [], []⟩⟩
  | _ => t

/-- The summary of a result in a mode. -/
def write (s : Settings.Source) (model : Model) (n : Nat) (query : String) (result : Value)
    (interpretation mode : String) (limit : Value) : Traced String :=
  if mode = Provider.mock.name then .ofResult (template result interpretation)
  else orFallback result interpretation
    (byModel s model n query result interpretation (some mode) limit)

end Inquiry.Summary
