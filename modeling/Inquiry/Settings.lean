import Inquiry.Text.Case
import Inquiry.Decimal.Integer
import Inquiry.Fault

/-!
Settings: named values with defaults, overridden by texts from the environment. Names are compared
without regard to case; a text that does not read as its setting's type is a violation.
-/
namespace Inquiry

structure Settings where
  mongoUri : String
  mongoDb : String
  serverSelectionTimeoutMs : Int
  llmProvider : String
  openaiKey : String
  anthropicKey : String
  geminiKey : String
  llmTimeoutSeconds : Float
  queryTimeoutMs : Int
  summarySampleSize : Int
  /-- More category values than this bring a zoom bar. -/
  zoomThreshold : Int
  /-- Collections whose date conversions are always removed. -/
  forcedCollections : List String
  recommendationTtl : Float
  sweepInterval : Float
  recommendationCapacity : Int
  apiPort : Int
  logLevel : String

namespace Settings

def default : Settings where
  mongoUri := "mongodb://localhost:27017"
  mongoDb := "analytics"
  serverSelectionTimeoutMs := 3000
  llmProvider := "mock"
  openaiKey := ""
  anthropicKey := ""
  geminiKey := ""
  llmTimeoutSeconds := 60.0
  queryTimeoutMs := 30000
  summarySampleSize := 5
  zoomThreshold := 10
  forcedCollections := []
  recommendationTtl := 1800.0
  sweepInterval := 300.0
  recommendationCapacity := 512
  apiPort := 8000
  logLevel := "INFO"

/-- The provider that is used when none is named. -/
def provider (s : Settings) : String := Text.lower s.llmProvider

/-- A log level that names nothing counts as the default one. The name of the plain line format
does name something, but no level. -/
def checkLevel (s : Settings) : Except Fault Unit :=
  if Text.upper s.logLevel = "BASIC_FORMAT" then
    .error (.defect (.unknownLevel "'%(levelname)s:%(name)s:%(message)s'"))
  else .ok ()

def toValue (s : Settings) : Value :=
  .doc [("mongo_uri", .str s.mongoUri), ("mongo_db", .str s.mongoDb),
    ("mongo_server_selection_timeout_ms", .int s.serverSelectionTimeoutMs),
    ("llm_provider", .str s.llmProvider), ("openai_api_key", .str s.openaiKey),
    ("anthropic_api_key", .str s.anthropicKey), ("gemini_api_key", .str s.geminiKey),
    ("llm_timeout_seconds", .float s.llmTimeoutSeconds), ("query_timeout_ms", .int s.queryTimeoutMs),
    ("summary_sample_size", .int s.summarySampleSize),
    ("category_zoom_threshold", .int s.zoomThreshold),
    ("forced_conversion_collections", .strs s.forcedCollections),
    ("recommendation_ttl_seconds", .float s.recommendationTtl),
    ("recommendation_sweep_seconds", .float s.sweepInterval),
    ("recommendation_max_entries", .int s.recommendationCapacity), ("api_port", .int s.apiPort),
    ("log_level", .str s.logLevel)]

/-- A number, with spaces around it or with single underscores inside, but not with both. -/
def number? (text : String) : Option Float :=
  let cs := text.toList
  match Decimal.BaseTen.readDouble? (Text.Chars.trimOf Text.isSpacing cs) with
  | some x => some x
  | none =>
    if Decimal.separatesWell cs then Decimal.BaseTen.readDouble? (Decimal.withoutSeparators cs)
    else none

/-- A list of texts written as JSON; `null` is no list but the absence of one. -/
def names? (field text : String) : Except Fault (Option (Except (List Violation) (List String))) :=
  match Json.parse text with
  | .error fault =>
    match fault.cause with
    | .tooDeep array => .error (.defect (.tooDeep array))
    | _ => .error (.unreadableSetting field)
  | .ok .null => .ok none
  | .ok (.list items) =>
    let wrong := (items.zipIdx.filter fun (v, _) => v.str?.isNone).map fun (v, i) =>
      (Violation.text v).within (.ofNat i)
    if wrong.isEmpty then .ok (some (.ok (items.filterMap Value.str?)))
    else .ok (some (.error wrong))
  | .ok v => .ok (some (.error [Violation.list v]))

/-- The text of a setting; of several names that differ in case the last one counts. -/
def entry? (environment : List (String × String)) (field : String) : Option String :=
  (environment.reverse.find? fun e => Text.lower e.1 = field).map (·.2)

/-- Settings read so far, and what was wrong with the others. -/
structure Reading where
  settings : Settings
  violations : List Violation

/-- Reads one setting, if the environment has a text for it. -/
def readEntry {α : Type} (environment : List (String × String)) (field : String)
    (read : String → Except (List Violation) α) (put : Settings → α → Settings) (r : Reading) :
    Reading :=
  match entry? environment field with
  | none => r
  | some text =>
    match read text with
    | .ok a => { r with settings := put r.settings a }
    | .error vs => { r with violations := r.violations ++ vs.map (·.within (.str field)) }

def readText (text : String) : Except (List Violation) String := .ok text

def readInteger (text : String) : Except (List Violation) Int :=
  match Decimal.readSetting text with
  | .value n => .ok n
  | .tooLong _ => .error [Violation.integerSize (.str text)]
  | .malformed => .error [Violation.integerText (.str text)]

def readNumber (text : String) : Except (List Violation) Float :=
  match number? text with
  | some x => .ok x
  | none => .error [Violation.numberText (.str text)]

def forcedField : String := "forced_conversion_collections"

/-- Settings, or why they cannot be read. Whoever needs none of them does not notice. -/
abbrev Source := Except Fault Settings

/-- A mode that is given, or the provider in the settings. -/
def modeOr (s : Source) : Option String → Except Fault String
  | some mode => .ok mode
  | none => s.map (·.provider)

/-- The settings that an environment asks for. A list that is not JSON is found before any other
fault; violations come in the order of the settings. -/
def ofEnvironment (environment : List (String × String)) : Source := do
  let forced ← match entry? environment forcedField with
    | none => pure none
    | some text => names? forcedField text
  let env := environment
  let r : Reading := ⟨default, []⟩
  let r := readEntry env "mongo_uri" readText (fun s v => { s with mongoUri := v }) r
  let r := readEntry env "mongo_db" readText (fun s v => { s with mongoDb := v }) r
  let r := readEntry env "mongo_server_selection_timeout_ms" readInteger
    (fun s v => { s with serverSelectionTimeoutMs := v }) r
  let r := readEntry env "llm_provider" readText (fun s v => { s with llmProvider := v }) r
  let r := readEntry env "openai_api_key" readText (fun s v => { s with openaiKey := v }) r
  let r := readEntry env "anthropic_api_key" readText (fun s v => { s with anthropicKey := v }) r
  let r := readEntry env "gemini_api_key" readText (fun s v => { s with geminiKey := v }) r
  let r := readEntry env "llm_timeout_seconds" readNumber
    (fun s v => { s with llmTimeoutSeconds := v }) r
  let r := readEntry env "query_timeout_ms" readInteger
    (fun s v => { s with queryTimeoutMs := v }) r
  let r := readEntry env "summary_sample_size" readInteger
    (fun s v => { s with summarySampleSize := v }) r
  let r := readEntry env "category_zoom_threshold" readInteger
    (fun s v => { s with zoomThreshold := v }) r
  let r : Reading := match forced with
    | none => r
    | some (.ok names) => { r with settings := { r.settings with forcedCollections := names } }
    | some (.error vs) =>
      { r with violations := r.violations ++ vs.map (·.within (.str forcedField)) }
  let r := readEntry env "recommendation_ttl_seconds" readNumber
    (fun s v => { s with recommendationTtl := v }) r
  let r := readEntry env "recommendation_sweep_seconds" readNumber
    (fun s v => { s with sweepInterval := v }) r
  let r := readEntry env "recommendation_max_entries" readInteger
    (fun s v => { s with recommendationCapacity := v }) r
  let r := readEntry env "api_port" readInteger (fun s v => { s with apiPort := v }) r
  let r := readEntry env "log_level" readText (fun s v => { s with logLevel := v }) r
  if r.violations.isEmpty then .ok r.settings else .error (.invalid "Settings" r.violations)

end Settings

end Inquiry
