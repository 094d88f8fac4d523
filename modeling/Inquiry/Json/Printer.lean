import Inquiry.Value.Display

/-!
JSON text of values. One printer serves three styles: compact ASCII for payloads and comparisons,
indented ASCII for prompts, and compact Unicode for the log. What JSON has no form for is written as
the text of the value; a key has to be text, a number, a truth value or null.
-/
namespace Inquiry.Json

structure Style where
  /-- Characters outside printable ASCII are written as escapes. -/
  ascii : Bool
  floats : Decimal.FloatLayout
  keySeparator : String
  /-- Spaces per level, one item a line; `none` puts all on one line. -/
  indent : Option Nat

def compactStyle : Style :=
  ⟨true, ⟨-4, 16, 2, "NaN", "Infinity", "-Infinity"⟩, ":", none⟩

def indentedStyle : Style := { compactStyle with keySeparator := ": ", indent := some 2 }

/-- In the log, exponents have no zero in front, and a double that is no number is null. -/
def logStyle : Style := ⟨false, ⟨-5, 16, 1, "null", "null", "null"⟩, ":", none⟩

def shortEscape? (c : Char) : Option Char :=
  if c = '"' then some '"'
  else if c = '\\' then some '\\'
  else if c = '\n' then some 'n'
  else if c = '\r' then some 'r'
  else if c = '\t' then some 't'
  else if c.toNat = 0x08 then some 'b'
  else if c.toNat = 0x0C then some 'f'
  else none

def unitEscape (n : Nat) : List Char := '\\' :: 'u' :: Text.hexDigits 4 n

/-- A character above the sixteen-bit range is written as a pair of escapes. -/
def numericEscape (n : Nat) : List Char :=
  if n < 0x10000 then unitEscape n
  else unitEscape (0xD800 + (n - 0x10000) / 0x400) ++ unitEscape (0xDC00 + (n - 0x10000) % 0x400)

def escapeChar (ascii : Bool) (c : Char) : List Char :=
  match shortEscape? c with
  | some e => ['\\', e]
  | none =>
    if c.toNat < 0x20 || (ascii && 0x7F ≤ c.toNat) then numericEscape c.toNat else [c]

def stringBody (ascii : Bool) (s : List Char) : List Char := s.flatMap (escapeChar ascii)

def string (ascii : Bool) (s : String) : String :=
  String.ofList ('"' :: (stringBody ascii s.toList ++ ['"']))

namespace Style

def lineBreak (st : Style) (level : Nat) : String :=
  match st.indent with
  | none => ""
  | some width => String.ofList ('\n' :: List.replicate (width * level) ' ')

/-- Items between brackets; nothing stands between the brackets of an empty one. -/
def bracket (st : Style) (level : Nat) (opening closing : String) (items : List String) : String :=
  if items.isEmpty then opening ++ closing
  else
    opening ++ st.lineBreak (level + 1) ++ ("," ++ st.lineBreak (level + 1)).intercalate items ++
      st.lineBreak level ++ closing

/-- The text that a key is written as. -/
def keyText (st : Style) : Value → String
  | .str s => s
  | .float x => st.floats.text x
  | .bool b => if b then "true" else "false"
  | .null => "null"
  | v => v.text

mutual

def print (st : Style) (level : Nat) : Value → String
  | .null => "null"
  | .bool b => if b then "true" else "false"
  | .int n => toString n
  | .int64 n => toString n
  | .float x => st.floats.text x
  | .str s => string st.ascii s
  | .list xs => st.bracket level "[" "]" (printItems st (level + 1) xs)
  | .tuple xs => st.bracket level "[" "]" (printItems st (level + 1) xs)
  | .dict es => st.bracket level "\x7b" "\x7d" (printEntries st (level + 1) es)
  | v => string st.ascii v.text

def printItems (st : Style) (level : Nat) : List Value → List String
  | [] => []
  | v :: vs => print st level v :: printItems st level vs

def printEntries (st : Style) (level : Nat) : List (Value × Value) → List String
  | [] => []
  | (k, v) :: es =>
    (string st.ascii (st.keyText k) ++ st.keySeparator ++ print st level v) ::
      printEntries st level es

end

end Style

/-- Compact ASCII JSON. -/
def compact (v : Value) : String := compactStyle.print 0 v

def indented (v : Value) : String := indentedStyle.print 0 v

def logText (v : Value) : String := logStyle.print 0 v

mutual

/-- Whether at most `room` values contain one another on every way down. -/
def fits (room : Nat) : Value → Bool
  | .list xs => 0 < room && fitItems (room - 1) xs
  | .tuple xs => 0 < room && fitItems (room - 1) xs
  | .dict es => 0 < room && fitEntries (room - 1) es
  | _ => 0 < room

def fitItems (room : Nat) : List Value → Bool
  | [] => true
  | v :: vs => fits room v && fitItems room vs

def fitEntries (room : Nat) : List (Value × Value) → Bool
  | [] => true
  | (_, v) :: es => fits room v && fitEntries room es

end

/-- The most values that may contain one another in the log. -/
def logDepth : Nat := 255

/-- Whether a key has a JSON form. -/
def keyAllowed : Value → Bool
  | .str _ => true
  | .bool _ => true
  | .null => true
  | .int _ => true
  | .int64 _ => true
  | .float _ => true
  | _ => false

mutual

/-- The first key, in the order of printing, that has no JSON form. -/
def badKey? : Value → Option Value
  | .list xs => badKeyItems? xs
  | .tuple xs => badKeyItems? xs
  | .dict es => badKeyEntries? es
  | _ => none

def badKeyItems? : List Value → Option Value
  | [] => none
  | v :: vs => (badKey? v).or (badKeyItems? vs)

def badKeyEntries? : List (Value × Value) → Option Value
  | [] => none
  | (k, v) :: es => if keyAllowed k then (badKey? v).or (badKeyEntries? es) else some k

end

end Inquiry.Json
