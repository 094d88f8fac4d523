import Inquiry.Json.Printer
import Inquiry.Json.Reader

/-!
Everything that can go wrong, as causes. A cause that belongs to the service has a kind, a message
and details (`report?`); the others have a message only. The wording is in one place for each group.
-/
namespace Inquiry

/-- The kinds of reported failures. -/
inductive Kind where
  | service
  | unreadableReply
  | illShapedPlan
  | unknownCollection
  | malformedPipeline
  | failedRun
  | runTimeout
  | failedStore
  | failedModel
  | modelTimeout
  | degradedSummary
  | lostRecommendation
  deriving Repr, DecidableEq

namespace Kind

def all : List Kind :=
  [.service, .unreadableReply, .illShapedPlan, .unknownCollection, .malformedPipeline, .failedRun,
    .runTimeout, .failedStore, .failedModel, .modelTimeout, .degradedSummary,
    .lostRecommendation]

def code : Kind → String
  | .service => "copilot_error"
  | .unreadableReply => "plan_parse_error"
  | .illShapedPlan => "plan_shape_error"
  | .unknownCollection => "collection_not_found"
  | .malformedPipeline => "sanitize_error"
  | .failedRun => "pipeline_execution_error"
  | .runTimeout => "query_timeout"
  | .failedStore => "document_store_error"
  | .failedModel => "llm_provider_error"
  | .modelTimeout => "llm_timeout"
  | .degradedSummary => "summarizer_degraded"
  | .lostRecommendation => "recommendation_not_found"

/-- The status that a request answers with. -/
def status : Kind → Nat
  | .service => 500
  | .unreadableReply => 502
  | .illShapedPlan => 502
  | .unknownCollection => 404
  | .malformedPipeline => 422
  | .failedRun => 502
  | .runTimeout => 504
  | .failedStore => 503
  | .failedModel => 502
  | .modelTimeout => 504
  | .degradedSummary => 200
  | .lostRecommendation => 404

end Kind

/-- A failure as it is shown to a client. -/
structure Report where
  kind : Kind
  message : String
  details : List (String × Value)
  deriving Repr, BEq

/-- One place where a value does not have the shape that is asked for, and the value that stands
there. -/
structure Violation where
  tag : String
  location : List Value
  message : String
  input : Value
  deriving Repr, BEq, Inhabited

namespace Violation

def toValue (v : Violation) : Value :=
  .doc [("type", .str v.tag), ("loc", .list v.location), ("msg", .str v.message)]

/-- Whether an integer fits into 64 bits. -/
def isShort (n : Int) : Bool := -9223372036854775808 ≤ n && n ≤ 9223372036854775807

/-- A step of a location: a text or a short integer; any other key is told by its literal. -/
def step (key : Value) : Value :=
  let ofInt (n : Int) : Value := if isShort n then .int n else .str (toString n)
  match key with
  | .str s => .str s
  | .bool b => .int (if b then 1 else 0)
  | .int n => ofInt n
  | .int64 n => ofInt n
  | key => .str key.literal

def within (key : Value) (v : Violation) : Violation :=
  { v with location := step key :: v.location }

def text (input : Value) : Violation :=
  ⟨"string_type", [], "Input should be a valid string", input⟩

def notUnicode (input : Value) : Violation :=
  ⟨"string_unicode", [],
    "Input should be a valid string, unable to parse raw data as a unicode string", input⟩

def list (input : Value) : Violation := ⟨"list_type", [], "Input should be a valid list", input⟩

def mapping (input : Value) : Violation :=
  ⟨"dict_type", [], "Input should be a valid dictionary", input⟩

/-- A key that names no field and is no text. -/
def key (input : Value) : Violation := ⟨"invalid_key", [step input], "Keys should be strings", input⟩

def integerText (input : Value) : Violation :=
  ⟨"int_parsing", [], "Input should be a valid integer, unable to parse string as an integer", input⟩

def integerSize (input : Value) : Violation :=
  ⟨"int_parsing_size", [],
    "Unable to parse input string as an integer, exceeded maximum size", input⟩

def numberText (input : Value) : Violation :=
  ⟨"float_parsing", [], "Input should be a valid number, unable to parse string as a number", input⟩

def missing (input : Value) : Violation := ⟨"missing", [], "Field required", input⟩

end Violation

/-- A pipeline or stage that is not made of mappings, lists and plain leaves. -/
inductive Malformed where
  | notPipeline (typeName collection : String)
  | notStage (index : Int) (typeName : String)
  | operatorCount (index : Int) (keys : List Value)
  | notOperator (index : Int) (key : Value)
  | keyNotText (path : String) (key : Value)
  | unsupported (path typeName : String)
  deriving Repr, BEq

namespace Malformed

/-- A path in a message; the whole value has no path. -/
def pathText (path : String) : String := if path.isEmpty then "<root>" else path

def message : Malformed → String
  | .notPipeline t _ => "Pipeline must be a list of stages, got " ++ t
  | .notStage i t => "Pipeline stage " ++ toString i ++ " is a " ++ t ++ ", expected an object"
  | .operatorCount i keys =>
    "Pipeline stage " ++ toString i ++ " must have exactly one operator key, got " ++
      (Value.list keys).literal
  | .notOperator i key =>
    "Pipeline stage " ++ toString i ++ " key " ++ key.literal ++ " is not a stage operator"
  | .keyNotText path key => "Non-string key " ++ key.literal ++ " at '" ++ pathText path ++ "'"
  | .unsupported path t =>
    "Unsupported value of type " ++ t ++ " at '" ++ pathText path ++ "'"

def details : Malformed → List (String × Value)
  | .notPipeline _ c => [("collection", .str c)]
  | .notStage i _ => [("stage_index", .int i)]
  | .operatorCount i _ => [("stage_index", .int i)]
  | .notOperator i _ => [("stage_index", .int i)]
  | .keyNotText path _ => [("path", .str path)]
  | .unsupported path _ => [("path", .str path)]

def report (m : Malformed) : Report := ⟨.malformedPipeline, m.message, m.details⟩

end Malformed

/-- A model reply in which no plan was found. -/
inductive ReplyFault where
  | empty
  | noObject (preview : String)
  | notJson (fault : Json.Fault) (preview : String)
  deriving Repr, DecidableEq

namespace ReplyFault

def message : ReplyFault → String
  | .empty => "Model returned an empty response"
  | .noObject _ => "No valid JSON object boundaries found in model output"
  | .notJson f _ =>
    "Model output is not valid JSON: " ++ f.cause.message ++ " (line " ++ toString f.line ++
      ", column " ++ toString f.column ++ ")"

def details : ReplyFault → List (String × Value)
  | .empty => []
  | .noObject preview => [("output_preview", .str preview)]
  | .notJson _ preview => [("output_preview", .str preview)]

def report (f : ReplyFault) : Report := ⟨.unreadableReply, f.message, f.details⟩

end ReplyFault

/-- A JSON object that is no plan. -/
inductive PlanFault where
  | noPipeline (keys : List Value)
  | badStages (indexes : List Nat)
  | noPrimary (keys : List Value)
  | unknownPrimary (name : String) (available : List String)
  | shape (violations : List Violation)
  deriving Repr, BEq

namespace PlanFault

def message : PlanFault → String
  | .noPipeline _ => "Plan has no 'pipeline' array"
  | .badStages _ => "Every pipeline stage must be an object"
  | .noPrimary _ => "Plan has no 'primary_collection' string"
  | .unknownPrimary name _ =>
    "Plan names primary collection '" ++ name ++ "', which is not among the target collections"
  | .shape _ => "Plan does not match the expected shape"

def details : PlanFault → List (String × Value)
  | .noPipeline keys => [("keys", .list keys)]
  | .badStages indexes => [("stage_indexes", .list (indexes.map .ofNat))]
  | .noPrimary keys => [("keys", .list keys)]
  | .unknownPrimary name available =>
    [("primary_collection", .str name), ("available", .strs available)]
  | .shape violations => [("errors", .list (violations.map (·.toValue)))]

def report (f : PlanFault) : Report := ⟨.illShapedPlan, f.message, f.details⟩

end PlanFault

/-- A failure to read the document store's collections. -/
inductive StoreFault where
  | timedOut (action : String) (collection : Option String)
  | failed (action : String) (collection : Option String) (text : String)
  | noSchemas
  | emptyDatabase (available : List String)
  | noneFound (requested : List Value) (available : List String)
  | noCollection (name : String)
  deriving Repr, BEq

namespace StoreFault

def kind : StoreFault → Kind
  | .timedOut _ _ => .runTimeout
  | .failed _ _ _ => .failedStore
  | _ => .unknownCollection

def message : StoreFault → String
  | .timedOut action _ => "Document store timed out while " ++ action
  | .failed action _ text => "Document store failed while " ++ action ++ ": " ++ text
  | .noSchemas => "No collection schemas available to plan against"
  | .emptyDatabase _ => "The database has no collections"
  | .noneFound _ _ => "None of the requested collections exist"
  | .noCollection name => "Collection '" ++ name ++ "' does not exist"

def details : StoreFault → List (String × Value)
  | .timedOut action c => [("action", .str action), ("collection", .optStr c)]
  | .failed action c _ => [("action", .str action), ("collection", .optStr c)]
  | .noSchemas => []
  | .emptyDatabase available => [("requested", .list []), ("available", .strs available)]
  | .noneFound requested available =>
    [("requested", .list requested), ("available", .strs available)]
  | .noCollection name => [("collection", .str name)]

def report (f : StoreFault) : Report := ⟨f.kind, f.message, f.details⟩

end StoreFault

/-- A pipeline that was refused, or that the document store did not finish. `pipeline` is its JSON
text. -/
inductive RunFault where
  | writes (index : Nat) (operators : List String) (pipeline collection : String)
  | timedOut (limit pipeline collection : String)
  | failed (text pipeline collection : String)
  deriving Repr, DecidableEq

namespace RunFault

def message : RunFault → String
  | .writes i operators _ _ =>
    "Stage " ++ toString i ++ " uses " ++ ", ".intercalate operators ++
      "; only read-only pipelines are allowed"
  | .timedOut limit _ collection =>
    "Pipeline exceeded " ++ limit ++ "ms on collection '" ++ collection ++ "'"
  | .failed text _ _ => "Pipeline execution failed: " ++ text

def details : RunFault → List (String × Value)
  | .writes i _ pipeline collection =>
    [("pipeline", .str pipeline), ("collection", .str collection), ("stage_index", .ofNat i)]
  | .timedOut _ pipeline collection =>
    [("pipeline", .str pipeline), ("collection", .str collection)]
  | .failed _ pipeline collection =>
    [("pipeline", .str pipeline), ("collection", .str collection)]

def kind : RunFault → Kind
  | .timedOut _ _ _ => .runTimeout
  | _ => .failedRun

def report (f : RunFault) : Report := ⟨f.kind, f.message, f.details⟩

end RunFault

/-- A model call without an answer. -/
inductive ModelFault where
  | unsupported (provider : String) (choices : List String)
  | noKey (setting entry : String)
  | notInstalled (package : String)
  | timedOut (provider limit : String)
  | failed (provider text : String)
  | noText (provider text : String) (feedback : Option String)
  deriving Repr, DecidableEq

namespace ModelFault

def message : ModelFault → String
  | .unsupported provider choices =>
    "LLM provider '" ++ provider ++ "' is not supported.  Choose from: " ++ ", ".intercalate choices
  | .noKey setting entry =>
    setting ++ " is not set.  Set " ++ entry ++ " in your .env file or environment."
  | .notInstalled package =>
    "The '" ++ package ++ "' package is not installed.  Run: pip install " ++ package
  | .timedOut provider limit => provider ++ " call timed out after " ++ limit ++ "s"
  | .failed provider text => provider ++ " call failed: " ++ text
  | .noText provider text _ => provider ++ " returned no text: " ++ text

def details : ModelFault → List (String × Value)
  | .noText _ _ feedback => [("prompt_feedback", .optStr feedback)]
  | _ => []

def kind : ModelFault → Kind
  | .timedOut _ _ => .modelTimeout
  | _ => .failedModel

def report (f : ModelFault) : Report := ⟨f.kind, f.message, f.details⟩

end ModelFault

/-- A summary that no model wrote. -/
inductive SummaryFault where
  | failed (text : String)
  | empty
  deriving Repr, DecidableEq

namespace SummaryFault

def message : SummaryFault → String
  | .failed text => "Summary generation failed: " ++ text
  | .empty => "Summary generation returned an empty response"

def report (f : SummaryFault) : Report := ⟨.degradedSummary, f.message, []⟩

end SummaryFault

/-- An operation on values that have no result for it. Types are told by their full names. -/
inductive Defect where
  | divisionByZero
  | remainderByZero
  /-- A quotient of integers beyond the doubles. -/
  | quotientRange
  /-- An integer beyond the doubles. -/
  | integerRange
  | argumentName
  | signalingNumber
  | jsonKey (typeName : String)
  | longInteger (digits : Nat)
  | tooDeep (array : Bool)
  /-- A value that is nested too deeply to be written. -/
  | tooNested
  /-- A double that is not finite where JSON has to be strict. -/
  | notFiniteJson
  | notOrdered (left right : String)
  /-- The same where the question was whether the left one is greater. -/
  | notGreater (left right : String)
  | noDifference (left right : String)
  /-- A day and a moment have no order. -/
  | dayAndMoment
  /-- A local moment and one with a distance from UTC have no order. -/
  | mixedClocks
  /-- A local moment and one with a distance from UTC have no difference. -/
  | mixedClockDifference
  /-- What is no number has no order among decimals, and an infinity no difference from itself. -/
  | undefinedDecimal
  | durationRange (days : Int)
  /-- A day outside the years from 1 to 9999. -/
  | dayRange
  | notIterable (typeName : String)
  | notContainer (typeName : String)
  | notIndexed (typeName : String)
  /-- A container of a kind with an index that is no integer. -/
  | badIndex (kind typeName : String)
  | badTextIndex (typeName : String)
  | indexRange (kind : String)
  | noEntry (key : String)
  | notHashable (typeName : String)
  /-- A part of a text that is no text. -/
  | textPart (typeName : String)
  | bytesPart (typeName : String)
  | byteRange
  /-- A text that is looked for in bytes. -/
  | bytesPattern
  | argumentTwice (name : String)
  /-- A value without the parts that are asked of it. -/
  | noAttribute (typeName name : String)
  | notText (typeName : String)
  | bytesAsText
  | joined (index : Nat) (typeName : String)
  | notInteger (literal : String)
  | noIntegerForm (typeName : String)
  | noLength (typeName : String)
  | notFinite (isNumber : Bool)
  | notFiniteDecimal (isNumber : Bool)
  | unknownLevel (literal : String)
  deriving Repr, DecidableEq

def Defect.message : Defect → String
  | .divisionByZero => "division by zero"
  | .remainderByZero => "integer modulo by zero"
  | .quotientRange => "integer division result too large for a float"
  | .integerRange => "int too large to convert to float"
  | .argumentName => "keywords must be strings"
  | .signalingNumber => "cannot convert signaling NaN to float"
  | .jsonKey t => "keys must be str, int, float, bool or None, not " ++ t
  | .longInteger n => (Json.Cause.longInteger n).message
  | .tooDeep array => (Json.Cause.tooDeep array).message
  | .tooNested =>
    "Error serializing to JSON: ValueError: Circular reference detected (depth exceeded)"
  | .notOrdered a b => "'<' not supported between instances of '" ++ a ++ "' and '" ++ b ++ "'"
  | .notGreater a b => "'>' not supported between instances of '" ++ a ++ "' and '" ++ b ++ "'"
  | .noDifference a b => "unsupported operand type(s) for -: '" ++ a ++ "' and '" ++ b ++ "'"
  | .dayAndMoment => "can't compare datetime.datetime to datetime.date"
  | .mixedClocks => "can't compare offset-naive and offset-aware datetimes"
  | .mixedClockDifference => "can't subtract offset-naive and offset-aware datetimes"
  | .durationRange days => "days=" ++ toString days ++ "; must have magnitude <= 999999999"
  | .dayRange => "date value out of range"
  | .undefinedDecimal => "[<class 'decimal.InvalidOperation'>]"
  | .notIterable t => "'" ++ t ++ "' object is not iterable"
  | .notContainer t => "argument of type '" ++ t ++ "' is not iterable"
  | .notIndexed t => "'" ++ t ++ "' object is not subscriptable"
  | .badIndex kind t => kind ++ " indices must be integers or slices, not " ++ t
  | .badTextIndex t => "string indices must be integers, not '" ++ t ++ "'"
  | .indexRange kind => (if kind = "byte" then "" else kind ++ " ") ++ "index out of range"
  | .noEntry key => key
  | .notHashable t => "unhashable type: '" ++ t ++ "'"
  | .textPart t => "'in <string>' requires string as left operand, not " ++ t
  | .bytesPart t => "a bytes-like object is required, not '" ++ t ++ "'"
  | .byteRange => "byte must be in range(0, 256)"
  | .bytesPattern => "argument should be integer or bytes-like object, not 'str'"
  | .argumentTwice name => "log_event() got multiple values for argument '" ++ name ++ "'"
  | .noAttribute t name => "'" ++ t ++ "' object has no attribute '" ++ name ++ "'"
  | .notText t => "expected string or bytes-like object, got '" ++ t ++ "'"
  | .bytesAsText => "cannot use a string pattern on a bytes-like object"
  | .joined i t => "sequence item " ++ toString i ++ ": expected str instance, " ++ t ++ " found"
  | .notInteger literal => "invalid literal for int() with base 10: " ++ literal
  | .noIntegerForm t =>
    "int() argument must be a string, a bytes-like object or a real number, not '" ++ t ++ "'"
  | .notFiniteJson => "Out of range float values are not JSON compliant"
  | .noLength t => "object of type '" ++ t ++ "' has no len()"
  | .notFinite isNumber =>
    "cannot convert float " ++ (if isNumber then "infinity" else "NaN") ++ " to integer"
  | .notFiniteDecimal isNumber =>
    "cannot convert " ++ (if isNumber then "Infinity" else "NaN") ++ " to integer"
  | .unknownLevel literal => "Unknown level: " ++ literal

/-- Why an operation has no answer. -/
inductive Fault where
  | malformed (m : Malformed)
  | reply (f : ReplyFault)
  | plan (f : PlanFault)
  | store (f : StoreFault)
  | run (f : RunFault)
  | model (f : ModelFault)
  | summary (f : SummaryFault)
  | noRecommendation (id : Value)
  /-- A failure that was reported from outside in the service's own terms. -/
  | reported (r : Report)
  /-- A failure from outside, by the name of its kind. -/
  | foreign (name message : String)
  | defect (d : Defect)
  /-- Values that do not have the shape of `name`. -/
  | invalid (name : String) (violations : List Violation)
  /-- A setting whose text is not JSON. -/
  | unreadableSetting (field : String)
  deriving Repr, BEq

namespace Fault

/-- The client's view; `none` for what the service has no kind for. -/
def report? : Fault → Option Report
  | .malformed m => some m.report
  | .reply f => some f.report
  | .plan f => some f.report
  | .store f => some f.report
  | .run f => some f.report
  | .model f => some f.report
  | .summary f => some f.report
  | .noRecommendation id =>
    some ⟨.lostRecommendation, "Recommendation not found or expired",
      [("recommendation_id", id)]⟩
  | .reported r => some r
  | _ => none

def message : Fault → String
  | .foreign _ m => m
  | .defect d => d.message
  | .invalid name _ => name
  | .unreadableSetting field =>
    "error parsing value for field \"" ++ field ++ "\" from source \"EnvSettingsSource\""
  | f => (f.report?.map (·.message)).getD ""

end Fault

/-- The JSON text of a payload; a key without a JSON form is a defect. -/
def payloadText (v : Value) : Except Fault String :=
  match Json.badKey? v with
  | some k => .error (.defect (.jsonKey k.fullTypeName))
  | none => .ok (Json.compact v)

end Inquiry
