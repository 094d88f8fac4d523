import Inquiry.Reply.Balanced
import Inquiry.Reply.Literals
import Inquiry.Log
import Inquiry.Fault

/-!
From a model's reply to the JSON object in it: the first fenced block if it holds a brace, the first
balanced object of that, without shell literals, read as JSON.
-/
namespace Inquiry.Reply

open Text.Chars (cutAt?)

def fence : List Char := ['`', '`', '`']

/-- The text between the first two fences, if it holds an opening brace; else the whole text. -/
def candidateText (text : List Char) : List Char :=
  match (cutAt? fence text).bind fun (_, rest) => cutAt? fence rest with
  | some (block, _) => if block.contains '\x7b' then block else text
  | none => text

/-- As much of a text as an error shows. -/
def preview (text : List Char) : String := String.ofList (text.take 200)

/-- The text that is read as JSON. -/
def objectText? (reply : List Char) : Option (List Char) :=
  (findBalanced? (candidateText (Text.Chars.trim reply))).map normalizeLiterals

/-- The first balanced object of a text; of anything else there is none to be looked for. -/
def balanced (text : Value) : Except Defect (Option String) :=
  match text with
  | .str s => .ok ((findBalanced? s.toList).map String.ofList)
  | .bytes _ => .error .bytesPattern
  | v => .error (.noAttribute v.fullTypeName "find")

/-- The object in a reply; a value that is no text holds none. -/
def extract (reply : Value) : Except Fault Value :=
  match reply with
  | .str reply =>
    let text := reply.toList
    if Text.Chars.allBlank text then .error (.reply .empty)
    else
      match objectText? text with
      | none => .error (.reply (.noObject (preview text)))
      | some cleaned =>
        match Json.parse (String.ofList cleaned) with
        | .ok v => .ok v
        | .error fault =>
          match fault.cause with
          | .longInteger digits => .error (.defect (.longInteger digits))
          | .tooDeep array => .error (.defect (.tooDeep array))
          | _ => .error (.reply (.notJson fault (preview cleaned)))
  | _ => .error (.reply .empty)

def placeText (f : Json.Fault) : String :=
  f.cause.message ++ ": line " ++ toString f.line ++ " column " ++ toString f.column ++ " (char " ++
    toString f.offset ++ ")"

/-- What is logged of a reply that holds no object. -/
def logLines (reply : Value) : Except Fault Value → List Log.Line
  | .error (.reply (.noObject _)) =>
    [Log.error .reply ("No balanced JSON object in model output (" ++
      toString ((reply.str?.getD "").length) ++ " chars)")]
  | .error (.reply (.notJson fault _)) =>
    [Log.error .reply ("Model output is not valid JSON: " ++ placeText fault)]
  | _ => []

end Inquiry.Reply
