import Inquiry.Value.Basic
import Inquiry.Decimal.Shortest
import Inquiry.Text.Quoted

/-!
Values in messages. `text` is what a reader sees of a value on its own; `literal` is what is written
for a value inside another one, where text is quoted and every type shows. `typeName` names the type
in an error.
-/
namespace Inquiry.Value

def typeName : Value → String
  | .null => "NoneType"
  | .bool _ => "bool"
  | .int _ => "int"
  | .int64 _ => "Int64"
  | .float _ => "float"
  | .str _ => "str"
  | .moment _ => "datetime"
  | .day _ => "date"
  | .objectId _ => "ObjectId"
  | .decimal128 _ => "Decimal128"
  | .decimal _ => "Decimal"
  | .bytes _ => "bytes"
  | .duration _ => "timedelta"
  | .list _ => "list"
  | .tuple _ => "tuple"
  | .set _ => "set"
  | .dict _ => "dict"

/-- The type with the package that it belongs to, where it has one. -/
def fullTypeName (v : Value) : String :=
  match v with
  | .moment _ => "datetime.datetime"
  | .day _ => "datetime.date"
  | .duration _ => "datetime.timedelta"
  | .decimal _ => "decimal.Decimal"
  | v => v.typeName

def boolText (b : Bool) : String := if b then "True" else "False"

/-- A call with its arguments. -/
def callText (name : String) (args : List String) : String :=
  name ++ "(" ++ ", ".intercalate args ++ ")"

/-- The non-zero parts of a duration, by name. -/
def durationLiteral (d : Duration) : String :=
  let part (name : String) (n : Int) : List String :=
    if n = 0 then [] else [name ++ "=" ++ toString n]
  match part "days" d.days ++ part "seconds" d.seconds ++ part "microseconds" d.fraction with
  | [] => callText "datetime.timedelta" ["0"]
  | parts => callText "datetime.timedelta" parts

/-- Seconds and microseconds are left out where they are zero. -/
def momentLiteral (m : Moment) : String :=
  let seconds := if m.micro ≠ 0 then [m.second, m.micro] else if m.second ≠ 0 then [m.second] else []
  let numbers := [m.day.year, m.day.month, m.day.day, m.hour, m.minute] ++ seconds
  let zone := match m.offset with
    | none => []
    | some d =>
      [if d.micros = 0 then "tzinfo=datetime.timezone.utc"
        else "tzinfo=" ++ callText "datetime.timezone" [durationLiteral d]]
  callText "datetime.datetime" (numbers.map toString ++ zone)

def decimal128Text (d : Decimal.BaseTen) : String :=
  match d with
  | .notANumber _ _ _ => "NaN"
  | d => d.text

mutual

/-- The value as it is written inside another value. -/
def literal : Value → String
  | .null => "None"
  | .bool b => boolText b
  | .int n => toString n
  | .int64 n => toString n
  | .float x => Decimal.displayLayout.text x
  | .str s => Text.quoted s
  | .moment m => momentLiteral m
  | .day d => callText "datetime.date" ([d.year, d.month, d.day].map toString)
  | .objectId hex => "ObjectId('" ++ hex ++ "')"
  | .decimal128 d => "Decimal128('" ++ decimal128Text d ++ "')"
  | .decimal d => "Decimal('" ++ d.text ++ "')"
  | .bytes bs => String.ofList (Text.Quoted.encodeBytes bs)
  | .duration d => durationLiteral d
  | .list xs => "[" ++ ", ".intercalate (literals xs) ++ "]"
  | .tuple xs =>
    match literals xs with
    | [one] => "(" ++ one ++ ",)"
    | many => "(" ++ ", ".intercalate many ++ ")"
  | .set xs =>
    match literals xs with
    | [] => "set()"
    | many => "\x7b" ++ ", ".intercalate many ++ "\x7d"
  | .dict es => "\x7b" ++ ", ".intercalate (entryLiterals es) ++ "\x7d"

def literals : List Value → List String
  | [] => []
  | v :: vs => v.literal :: literals vs

def entryLiterals : List (Value × Value) → List String
  | [] => []
  | (k, v) :: es => (k.literal ++ ": " ++ v.literal) :: entryLiterals es

end

/-- The value on its own: text as it is, dates and numbers without their type. -/
def text : Value → String
  | .str s => s
  | .moment m => m.text
  | .day d => d.text
  | .objectId hex => hex
  | .decimal128 d => decimal128Text d
  | .decimal d => d.text
  | .duration d => d.text
  | v => v.literal

/-- A list of texts as it is written in a message. -/
def textsLiteral (ss : List String) : String := (strs ss).literal

end Inquiry.Value
