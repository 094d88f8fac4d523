import Inquiry.Decimal.Integer
import Inquiry.Number
import Inquiry.Rows.Path
import Inquiry.Rows.Plain
import Inquiry.Settings
import Inquiry.Store.Basic
import Inquiry.Value.Order

/-!
Running pipelines. A pipeline with a stage that writes is refused before anything is sent; what the
store then fails at is reported with the pipeline, and never as an empty result.
-/
namespace Inquiry.Store

/-- The operators that write, in order. -/
def writeOperators : List String := ["$merge", "$out"]

/-- The operators of a stage that write. -/
def writesOf (stage : Value) : List String :=
  writeOperators.filter fun op => (stage.get? op).isSome

/-- The first stage that writes, counted from `index`. -/
def firstWrite? (index : Nat) : List Value → Option (Nat × List String)
  | [] => none
  | stage :: rest =>
    match writesOf stage with
    | [] => firstWrite? (index + 1) rest
    | ops => some (index, ops)

/-- The stages of a pipeline. -/
def stages (pipeline : Value) : Except Fault (List Value) :=
  match Rows.parts pipeline with
  | .ok parts => .ok parts
  | .error d => .error (.defect d)

/-- Refuses a pipeline that writes, and tells how many stages another one has. -/
def checkReadOnly (pipeline : Value) (collection : String) : Except Fault Nat := do
  let all ← stages pipeline
  match firstWrite? 0 all with
  | none => .ok all.length
  | some (i, ops) => do
    let text ← payloadText pipeline
    .error (.run (.writes i ops text collection))

/-- The most characters of a text that a message shows of what is no integer. -/
def shownLength : Nat := 200

/-- The integer that a text says; `shown` is the text in a message. -/
def writtenLimit (shown : String) : Decimal.IntegerText → Except Defect Int
  | .value n => .ok n
  | .tooLong digits => .error (.longInteger digits)
  | .malformed => .error (.notInteger (Text.takeChars shownLength shown))

/-- Bytes as characters of the same numbers. -/
def byteChars (bs : List UInt8) : List Char := bs.map fun b => Char.ofNat b.toNat

/-- A space of ASCII. -/
def isAsciiSpace (c : Char) : Bool := Text.isSpacing c && c.toNat < 0x80

/-- A time limit in whole milliseconds, without what is smaller. -/
def wholeLimit (limit : Value) : Except Defect Int :=
  match limit with
  | .str s => writtenLimit limit.literal (Decimal.readIntegerText s)
  | .bytes bs =>
    writtenLimit limit.literal
      (Decimal.readInteger (Text.Chars.trimOf isAsciiSpace (byteChars bs)))
  | .decimal d =>
    match d.truncate? with
    | some n => .ok n
    | none => .error (.notFiniteDecimal d.isInfinite)
  | v =>
    match Number.ofValue? v with
    | some (.int n) => .ok n
    | some (.float x) =>
      match Decimal.Binary.ofFloat x with
      | some b => .ok b.truncate
      | none => .error (.notFinite (!x.isNaN))
    | none => .error (.noIntegerForm v.fullTypeName)

/-- A limit that was not a number has no line in the log. -/
def limitLine (collection : String) (limit : Value) (whole : Int) : List Log.Line :=
  if limit.isNumber then
    [Log.error .execution ("Pipeline on " ++ collection ++ " timed out after " ++ toString whole ++ "ms")]
  else []

/-- What a failed run means. -/
def runFault (pipeline : Value) (collection : String) (limit : Value) (whole : Int) :
    Failure → Traced α
  | .other f => .fail f
  | .driver _ _ true => do
    Traced.log (limitLine collection limit whole)
    let text ← Traced.ofResult (payloadText pipeline)
    .fail (.run (.timedOut limit.text text collection))
  | .driver reason _ false => do
    Traced.log [Log.error .execution ("Pipeline execution failed on " ++ collection ++ ": " ++ reason)]
    let text ← Traced.ofResult (payloadText pipeline)
    .fail (.run (.failed reason text collection))

/-- A limit that is given, or the one in the settings. -/
def limitOr (settings : Settings.Source) (given : Value) : Except Fault Value :=
  if given.isNull then settings.map fun s => .int s.queryTimeoutMs else .ok given

/-- The rows of a pipeline on a collection, as JSON can hold them. A limit of null leaves the limit
to the settings. -/
def run (settings : Settings.Source) (db : Database) (pipeline : Value) (collection : String)
    (given : Value) : Traced (List Value) := do
  let limit ← Traced.ofResult (limitOr settings given)
  let count ← Traced.ofResult (checkReadOnly pipeline collection)
  Traced.log [Log.info .execution (Log.eventText "Executing pipeline"
    [("collection", .str collection), ("stages", .ofNat count), ("timeout_ms", limit)])]
  let whole ← Traced.ofResult ((wholeLimit limit).mapError .defect)
  let sent : Run := ⟨collection, pipeline, whole⟩
  Traced.sent sent
  match db.aggregate sent with
  | .error f => runFault pipeline collection limit whole f
  | .ok documents => do
    let rows ← Traced.ofResult (documents.mapM Rows.plainRow)
    Traced.log [Log.info .execution (Log.eventText "Pipeline done"
      [("collection", .str collection), ("rows", .ofNat rows.length)])]
    .done rows

end Inquiry.Store
