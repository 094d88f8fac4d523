import Inquiry.Model.Basic
import Inquiry.Number
import Inquiry.Rows.Sequence
import Inquiry.Settings

/-!
Providers of language models. The mock one echoes the prompt; a hosted one needs a key and a client
package, and is called once, without retries.
-/
namespace Inquiry

/-- Services that answer over the network. -/
inductive Host where
  | openai
  | anthropic
  | gemini
  deriving Repr, DecidableEq

inductive Provider where
  | mock
  | hosted (h : Host)
  deriving Repr, DecidableEq

namespace Host

def name : Host → String
  | .openai => "openai"
  | .anthropic => "anthropic"
  | .gemini => "gemini"

/-- The name in messages. -/
def title : Host → String
  | .openai => "OpenAI"
  | .anthropic => "Anthropic"
  | .gemini => "Gemini"

/-- The package with its client. -/
def package : Host → String
  | .openai => "openai"
  | .anthropic => "anthropic"
  | .gemini => "google-generativeai"

def key (s : Settings) : Host → String
  | .openai => s.openaiKey
  | .anthropic => s.anthropicKey
  | .gemini => s.geminiKey

/-- The setting that holds the key. -/
def keySetting (h : Host) : String := h.name ++ "_api_key"

/-- The entry of the environment for that setting. -/
def keyEntry : Host → String
  | .openai => "OPENAI_API_KEY"
  | .anthropic => "ANTHROPIC_API_KEY"
  | .gemini => "GEMINI_API_KEY"

def model : Host → String
  | .openai => "gpt-4o-mini"
  | .anthropic => "claude-3-haiku-20240307"
  | .gemini => "gemini-1.5-flash"

def systemPrompt : String := "You are a document-database query and data analysis assistant."

/-- The most tokens of an answer. -/
def maxTokens : Int := 2048

def message (role : String) (content : Value) : Value :=
  .doc [("role", .str role), ("content", content)]

def clientOptions (key : String) (limit : Value) : Value :=
  .doc [("api_key", .str key), ("timeout", limit), ("max_retries", .int 0)]

/-- What is sent to the client of a service, in order. -/
def sent (h : Host) (key : String) (limit prompt : Value) : List Value :=
  match h with
  | .openai => [clientOptions key limit,
      .doc [("model", .str h.model),
        ("messages", .list [message "system" (.str systemPrompt), message "user" prompt]),
        ("temperature", .float 0.0), ("max_tokens", .int maxTokens)]]
  | .anthropic => [clientOptions key limit,
      .doc [("model", .str h.model), ("max_tokens", .int maxTokens), ("system", .str systemPrompt),
        ("messages", .list [message "user" prompt])]]
  | .gemini => [.doc [("api_key", .str key)], .doc [("model", .str h.model)],
      .doc [("prompt", prompt), ("request_options", .doc [("timeout", limit)])]]

end Host

namespace Provider

def name : Provider → String
  | .mock => "mock"
  | .hosted h => h.name

def all : List Provider := [.mock, .hosted .openai, .hosted .anthropic, .hosted .gemini]

def ofName? (name : String) : Option Provider := all.find? fun p => p.name = name

end Provider

/-- How the client of a service ends a call. -/
inductive CallEnd where
  | text (t : Option String)
  /-- The answer holds no text, and the client says why. -/
  | withheld (reason : String) (feedback : Option String)
  | timedOut
  | failed (reason : String)
  /-- A failure that is none of the client's own. -/
  | broken (f : Fault)
  deriving Repr, BEq

/-- A call: its result, what is logged, and what is sent to the client. -/
structure ModelCall where
  result : Except Fault String
  log : List Log.Line
  sent : List Value

namespace ModelCall

/-- The most characters of a prompt that are echoed. -/
def echoLength : Nat := 200

/-- The front of a prompt, as it is echoed. -/
def echo (prompt : Value) : Except Fault String :=
  match Rows.front echoLength prompt with
  | .ok front => .ok ("[MOCK] " ++ front.text)
  | .error d => .error (.defect d)

/-- The text of an answer; no text is an empty one. -/
def endResult (h : Host) (limit : Value) : CallEnd → Except Fault String
  | .text t => .ok (t.getD "")
  | .withheld reason feedback => .error (.model (.noText h.title reason feedback))
  | .timedOut => .error (.model (.timedOut h.title limit.text))
  | .failed reason => .error (.model (.failed h.title reason))
  | .broken f => .error f

def endLog (h : Host) : Except Fault String → List Log.Line
  | .ok text => [Log.info .model (h.title ++ " response (" ++ toString text.length ++ " chars)")]
  | .error _ => []

/-- A call to a service; `clients` tells how the calls of the installed clients end. -/
def host (s : Settings) (clients : Host → Option CallEnd) (h : Host)
    (prompt limit : Value) : ModelCall :=
  if (h.key s).isEmpty then ⟨.error (.model (.noKey h.keySetting h.keyEntry)), [], []⟩
  else
    match clients h with
    | none => ⟨.error (.model (.notInstalled h.package)), [], []⟩
    | some e =>
      let result := endResult h limit e
      ⟨result, endLog h result, h.sent (h.key s) limit prompt⟩

/-- A limit that no double is near to has no line in the log. -/
def callingLine (name : String) (length : Nat) (limit : Value) : List Log.Line :=
  match limit.nearestFloat? with
  | some x => [Log.info .model ("Calling LLM provider=" ++ name ++ "  prompt_len=" ++
      toString length ++ "  timeout=" ++ Decimal.fixed x 1 ++ "s")]
  | none => []

/-- A call to a provider with a prompt of `length` items. -/
def toProvider (s : Settings) (clients : Host → Option CallEnd) (p : Provider) (length : Nat)
    (prompt limit : Value) : ModelCall :=
  let call : ModelCall := match p with
    | .mock => ⟨echo prompt, [Log.info .model "LLM mock mode -- returning echo"], []⟩
    | .hosted h => host s clients h prompt limit
  { call with log := callingLine p.name length limit ++ call.log }

/-- A prompt is sent to the provider that is named, or to the one in the settings. It should be a
text, and has to have a length. Without settings no call is made. -/
def send (s : Settings.Source) (clients : Host → Option CallEnd) (prompt : Value)
    (provider : Option String) (limit : Value) : ModelCall :=
  match s with
  | .error f => ⟨.error f, [], []⟩
  | .ok s =>
    let name := provider.getD s.provider
    match Provider.ofName? name, Rows.count prompt with
    | none, _ => ⟨.error (.model (.unsupported name (Provider.all.map (·.name)))), [], []⟩
    | some _, .error d => ⟨.error (.defect d), [], []⟩
    | some p, .ok length =>
      toProvider s clients p length prompt (if limit.isNull then .float s.llmTimeoutSeconds else limit)

/-- One request. -/
def make (s : Settings.Source) (clients : Host → Option CallEnd) (r : ModelRequest) : ModelCall :=
  send s clients (.str r.prompt) r.provider r.limit

end ModelCall

/-- The model behind the providers. -/
def Model.ofProviders (s : Settings.Source) (clients : Host → Option CallEnd) : Model := fun _ r =>
  let call := ModelCall.make s clients r
  ⟨call.result.map some, call.log⟩

end Inquiry
