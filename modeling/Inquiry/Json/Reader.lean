import Inquiry.Value.Basic

/-!
Reading JSON text. The reader accepts the JSON grammar with the three names for doubles that are no
numbers, keeps integers exact and apart from doubles, and keeps the order of entries. It follows
brackets to a fixed depth, and stops at the first fault, which is told with its line and column.
-/
namespace Inquiry.Json

/-- What the reader did not find, or found and could not use. -/
inductive Cause where
  | propertyName
  | colon
  | comma
  | value
  | controlCharacter
  | unicodeEscape
  | escape
  | unterminated
  | extraData
  /-- An integer with more digits than are converted. -/
  | longInteger (digits : Nat)
  /-- A bracket inside more brackets than are followed: that of an array or of an object. -/
  | tooDeep (array : Bool)
  deriving Repr, DecidableEq

def Cause.message : Cause → String
  | .propertyName => "Expecting property name enclosed in double quotes"
  | .colon => "Expecting ':' delimiter"
  | .comma => "Expecting ',' delimiter"
  | .value => "Expecting value"
  | .controlCharacter => "Invalid control character at"
  | .unicodeEscape => "Invalid \\uXXXX escape"
  | .escape => "Invalid \\escape"
  | .unterminated => "Unterminated string starting at"
  | .extraData => "Extra data"
  | .longInteger n =>
    "Exceeds the limit (4300 digits) for integer string conversion: value has " ++ toString n ++
      " digits; use sys.set_int_max_str_digits() to increase the limit"
  | .tooDeep array =>
    "maximum recursion depth exceeded while decoding a JSON " ++
      (if array then "array" else "object") ++ " from a unicode string"

/-- A cause and the text that is left where it was found. -/
structure Stop where
  cause : Cause
  rest : List Char

def isSpace (c : Char) : Bool := c = ' ' || c = '\t' || c = '\n' || c = '\r'

def skipSpace (s : List Char) : List Char := s.dropWhile isSpace

def hexValue? (c : Char) : Option Nat :=
  if c.isDigit then some (c.toNat - 48)
  else if 'a' ≤ c ∧ c ≤ 'f' then some (c.toNat - 87)
  else if 'A' ≤ c ∧ c ≤ 'F' then some (c.toNat - 55)
  else none

def hex4? (a b c d : Char) : Option Nat :=
  match hexValue? a, hexValue? b, hexValue? c, hexValue? d with
  | some a, some b, some c, some d => some (((a * 16 + b) * 16 + c) * 16 + d)
  | _, _, _, _ => none

def isHighUnit (n : Nat) : Bool := 0xD800 ≤ n && n ≤ 0xDBFF

def isLowUnit (n : Nat) : Bool := 0xDC00 ≤ n && n ≤ 0xDFFF

/-- Half of a pair on its own has no character; the replacement mark stands for it. -/
def unitChar (n : Nat) : Char :=
  if isHighUnit n || isLowUnit n then Char.ofNat 0xFFFD else Char.ofNat n

def pairChar (high low : Nat) : Char :=
  Char.ofNat (0x10000 + (high - 0xD800) * 0x400 + (low - 0xDC00))

def simpleEscape? (c : Char) : Option Char :=
  if c = '"' ∨ c = '\\' ∨ c = '/' then some c
  else if c = 'b' then some (Char.ofNat 0x08)
  else if c = 'f' then some (Char.ofNat 0x0C)
  else if c = 'n' then some '\n'
  else if c = 'r' then some '\r'
  else if c = 't' then some '\t'
  else none

/-- The rest of a string after its quote; `opening` is the text from that quote on, `acc` the
characters read so far, last first. A numeric escape has to be followed by something. -/
def readString (opening acc : List Char) : List Char → Except Stop (String × List Char)
  | [] => .error ⟨.unterminated, opening⟩
  | '"' :: rest => .ok (String.ofList acc.reverse, rest)
  | '\\' :: 'u' :: a :: b :: c :: d :: x :: after =>
    match hex4? a b c d with
    | none => .error ⟨.unicodeEscape, 'u' :: a :: b :: c :: d :: x :: after⟩
    | some n =>
      if isHighUnit n then
        match x, after with
        | '\\', 'u' :: e :: f :: g :: h :: y :: tail =>
          match hex4? e f g h with
          | none => .error ⟨.unicodeEscape, 'u' :: e :: f :: g :: h :: y :: tail⟩
          | some m =>
            if isLowUnit m then readString opening (pairChar n m :: acc) (y :: tail)
            else
              readString opening (unitChar n :: acc) ('\\' :: 'u' :: e :: f :: g :: h :: y :: tail)
        | x, after => readString opening (unitChar n :: acc) (x :: after)
      else readString opening (unitChar n :: acc) (x :: after)
  | '\\' :: 'u' :: rest => .error ⟨.unicodeEscape, 'u' :: rest⟩
  | ['\\'] => .error ⟨.unterminated, opening⟩
  | '\\' :: c :: rest =>
    match simpleEscape? c with
    | some r => readString opening (r :: acc) rest
    | none => .error ⟨.escape, '\\' :: c :: rest⟩
  | c :: rest =>
    if c.toNat < 0x20 then .error ⟨.controlCharacter, c :: rest⟩
    else readString opening (c :: acc) rest
  termination_by s => s.length

/-- The digits at the start. -/
def digits (s : List Char) : List Char := s.takeWhile Char.isDigit

/-- The parts of a number: sign, whole digits, digits after the point, exponent. -/
structure NumberParts where
  negative : Bool
  whole : List Char
  part : List Char
  exponent : Option Int

/-- The value of a number: an integer unless it has a point or an exponent. -/
def NumberParts.value (p : NumberParts) : Value :=
  if p.part.isEmpty ∧ p.exponent.isNone then
    let n : Int := Decimal.BaseTen.natOfDigits p.whole
    .int (if p.negative then -n else n)
  else
    .float (Decimal.BaseTen.finiteFloat p.negative (Decimal.BaseTen.natOfDigits (p.whole ++ p.part))
      (p.exponent.getD 0 - p.part.length))

/-- A point counts only with a digit after it. -/
def readPart (s : List Char) : List Char × List Char :=
  match s with
  | '.' :: r => if (digits r).isEmpty then ([], s) else (digits r, r.drop (digits r).length)
  | _ => ([], s)

/-- An exponent counts only with a digit after its letter and sign. -/
def readExponent (s : List Char) : Option Int × List Char :=
  match s with
  | [] => (none, s)
  | c :: r =>
    if c = 'e' ∨ c = 'E' then
      let (negative, ds) := match r with
        | '-' :: t => (true, t)
        | '+' :: t => (false, t)
        | t => (false, t)
      if (digits ds).isEmpty then (none, s)
      else
        let n : Int := Decimal.BaseTen.natOfDigits (digits ds)
        (some (if negative then -n else n), ds.drop (digits ds).length)
    else (none, s)

def readNumber (s : List Char) : Except Stop (Value × List Char) :=
  let (negative, t) := match s with
    | '-' :: r => (true, r)
    | r => (false, r)
  let whole := match t with
    | '0' :: _ => ['0']
    | r => digits r
  if whole.isEmpty then .error ⟨.value, s⟩
  else
    let (part, t) := readPart (t.drop whole.length)
    let (exponent, t) := readExponent t
    if part.isEmpty ∧ exponent.isNone ∧ 4300 < whole.length then
      .error ⟨.longInteger whole.length, s⟩
    else .ok (NumberParts.value ⟨negative, whole, part, exponent⟩, t)

/-- The words that stand for values. -/
def names : List (List Char × Value) :=
  [("null".toList, .null), ("true".toList, .bool true), ("false".toList, .bool false),
    ("NaN".toList, .float (0.0 / 0.0)), ("Infinity".toList, .float (1.0 / 0.0)),
    ("-Infinity".toList, .float (-1.0 / 0.0))]

def readName? (s : List Char) : Option (Value × List Char) :=
  names.findSome? fun (word, v) =>
    if word.isPrefixOf s then some (v, s.drop word.length) else none

/-- The most brackets around a value. -/
def maxDepth : Nat := 990

mutual

/-- One value; `room` tells how many brackets may still be opened. `fuel` bounds the calls; twice the
length of the text is enough, since each call but the one that opens a bracket comes after a
character was taken. -/
def readValue (room : Nat) : Nat → List Char → Except Stop (Value × List Char)
  | 0, s => .error ⟨.value, s⟩
  | fuel + 1, s =>
    match s with
    | '"' :: rest => do
      let (t, rest) ← readString s [] rest
      .ok (.str t, rest)
    | '\x7b' :: rest =>
      if room = 0 then .error ⟨.tooDeep false, s⟩
      else
        match skipSpace rest with
        | '\x7d' :: rest => .ok (.dict [], rest)
        | rest => readMembers (room - 1) fuel [] rest
    | '[' :: rest =>
      if room = 0 then .error ⟨.tooDeep true, s⟩
      else
        match skipSpace rest with
        | ']' :: rest => .ok (.list [], rest)
        | rest => readItems (room - 1) fuel [] rest
    | s =>
      match readName? s with
      | some r => .ok r
      | none => readNumber s

/-- The members of an object from a key on. -/
def readMembers (room : Nat) :
    Nat → List (Value × Value) → List Char → Except Stop (Value × List Char)
  | 0, _, s => .error ⟨.value, s⟩
  | fuel + 1, entries, s =>
    match s with
    | '"' :: rest => do
      let (key, rest) ← readString s [] rest
      match skipSpace rest with
      | ':' :: rest =>
        let (v, rest) ← readValue room fuel (skipSpace rest)
        let entries := Value.insertEntry (.str key) v entries
        match skipSpace rest with
        | '\x7d' :: rest => .ok (.dict entries, rest)
        | ',' :: rest => readMembers room fuel entries (skipSpace rest)
        | rest => .error ⟨.comma, rest⟩
      | rest => .error ⟨.colon, rest⟩
    | s => .error ⟨.propertyName, s⟩

/-- The items of an array from an item on; `acc` holds the earlier ones, last first. -/
def readItems (room : Nat) : Nat → List Value → List Char → Except Stop (Value × List Char)
  | 0, _, s => .error ⟨.value, s⟩
  | fuel + 1, acc, s => do
    let (v, rest) ← readValue room fuel s
    match skipSpace rest with
    | ']' :: rest => .ok (.list (v :: acc).reverse, rest)
    | ',' :: rest => readItems room fuel (v :: acc) (skipSpace rest)
    | rest => .error ⟨.comma, rest⟩

end

/-- A fault with its place: characters before it, and line and column counted from one. -/
structure Fault where
  cause : Cause
  offset : Nat
  line : Nat
  column : Nat
  deriving Repr, DecidableEq

/-- The place where `rest` of `whole` is left. -/
def faultAt (whole : List Char) (stop : Stop) : Fault :=
  let before := whole.take (whole.length - stop.rest.length)
  let sinceBreak := before.reverse.takeWhile (· ≠ '\n')
  ⟨stop.cause, before.length, before.count '\n' + 1, sinceBreak.length + 1⟩

/-- One value with blanks around it. -/
def readAll (s : List Char) : Except Stop Value := do
  let (v, rest) ← readValue maxDepth (2 * s.length + 2) (skipSpace s)
  match skipSpace rest with
  | [] => .ok v
  | rest => .error ⟨.extraData, rest⟩

def parse (text : String) : Except Fault Value :=
  match readAll text.toList with
  | .ok v => .ok v
  | .error stop => .error (faultAt text.toList stop)

end Inquiry.Json
