import Inquiry.Fault
import Inquiry.Text.Search

/-!
Log lines: a level, the component that speaks and a message. Components only collect lines; writing
them is left to whoever runs the program.
-/
namespace Inquiry.Log

inductive Level where
  | info
  | warning
  | error
  deriving Repr, DecidableEq

def Level.name : Level → String
  | .info => "INFO"
  | .warning => "WARNING"
  | .error => "ERROR"

/-- The part of the program that a line comes from. -/
inductive Component where
  | dateFields
  | healing
  | reply
  | plans
  | chart
  | summary
  | recommendations
  | model
  | schemas
  | execution
  | connection
  | service
  | questions
  | server
  deriving Repr, DecidableEq

structure Line where
  level : Level
  component : Component
  message : String
  deriving Repr, DecidableEq

def info (c : Component) (message : String) : Line := ⟨.info, c, message⟩

def warning (c : Component) (message : String) : Line := ⟨.warning, c, message⟩

def error (c : Component) (message : String) : Line := ⟨.error, c, message⟩

/-- The longest text of a field; a longer one is cut and ends in three dots. -/
def fieldLimit : Nat := 200

def fieldText (v : Value) : String :=
  let t := v.text
  if fieldLimit < t.length then Text.takeChars (fieldLimit - 3) t ++ "..." else t

/-- `a=1 | b=x`. -/
def fieldsText (fields : List (String × Value)) : String :=
  " | ".intercalate (fields.map fun f => f.1 ++ "=" ++ fieldText f.2)

/-- An event and its fields on one line. -/
def eventText (event : String) (fields : List (String × Value)) : String :=
  if fields.isEmpty then event else event ++ " | " ++ fieldsText fields

/-- The name of a numeric level, for loggers that are set by number. -/
def levelName (n : Int) : String :=
  if n = 0 then "NOTSET"
  else if n = 10 then "DEBUG"
  else if n = 20 then "INFO"
  else if n = 30 then "WARNING"
  else if n = 40 then "ERROR"
  else if n = 50 then "CRITICAL"
  else "Level " ++ toString n

/-- A logger without a level of its own lets warnings through. -/
def threshold (loggerLevel : Int) : Int := if loggerLevel = 0 then 30 else loggerLevel

def isEnabled (loggerLevel level : Int) : Bool := 0 < level && threshold loggerLevel ≤ level

/-- The text in a column of `width` characters. -/
def padRight (width : Nat) (s : String) : String :=
  s ++ String.ofList (List.replicate (width - s.length) ' ')

/-- What an event has besides its fields. -/
def ownNames : List String := ["logger", "event", "level"]

/-- Fields by name. A name has to be a text, and none of the names that are already taken. -/
def namedFields (taken : List String) (fields : List (Value × Value)) :
    Except Defect (List (String × Value)) :=
  if fields.all fun e => e.1.str?.isSome then
    let named := fields.filterMap fun e => e.1.str?.map (·, e.2)
    match named.find? fun e => taken.contains e.1 with
    | some e => .error (.argumentTwice e.1)
    | none => .ok named
  else .error .argumentName

/-- What a logger writes for an event: one line, or nothing below its level. -/
def eventLines (logger : String) (loggerLevel level : Int) (event : String)
    (fields : List (String × Value)) : List String :=
  if isEnabled loggerLevel level then
    [" | ".intercalate [padRight 8 (levelName level), logger, eventText event fields]]
  else []

end Inquiry.Log
