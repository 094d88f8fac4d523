import Inquiry.Text.Blank
import Inquiry.Text.Search

/-!
Shell literals in JSON text. `ISODate("s")`, `new Date("s")` and `ObjectId("s")` become the string
`"s"`; `NumberDecimal(x)`, `NumberLong(n)` and `NumberInt(n)` become the bare number. The six kinds
are replaced one after the other, everywhere in the text.
-/
namespace Inquiry.Reply

open Text.Chars (dropBlank dropPrefix?)

/-- Finds a literal at the start of a text: what replaces it, and the text after it. -/
abbrev Matcher := List Char → Option (List Char × List Char)

def isQuote (c : Char) : Bool := c = '"' || c = '\''

/-- Blanks and a closing parenthesis. -/
def closing? (s : List Char) : Option (List Char) :=
  match dropBlank s with
  | ')' :: rest => some rest
  | _ => none

/-- A quote that ends the argument, with the closing parenthesis after it. -/
def quoteClosing? : List Char → Option (List Char)
  | c :: rest => if isQuote c then closing? rest else none
  | [] => none

/-- The shortest text of at least one character on one line that is followed by the end of the
argument. -/
def quotedBody? : Matcher
  | [] => none
  | c :: rest =>
    if c = '\n' then none
    else
      match quoteClosing? rest with
      | some after => some ([c], after)
      | none => (quotedBody? rest).map fun (body, after) => (c :: body, after)

/-- A call whose argument is quoted; `opening?` drops the name and the parenthesis. -/
def textLiteral (opening? : List Char → Option (List Char)) : Matcher := fun s =>
  match (opening? s).map dropBlank with
  | some (c :: rest) =>
    if isQuote c then
      (quotedBody? rest).map fun (body, after) => ('"' :: body ++ ['"'], after)
    else none
  | _ => none

def dropQuote (s : List Char) : List Char :=
  match s with
  | c :: rest => if isQuote c then rest else s
  | [] => []

/-- A call whose argument is a number of characters from `allowed`, quoted or not. -/
def numberLiteral (name : String) (allowed : Char → Bool) : Matcher := fun s =>
  match dropPrefix? (name ++ "(").toList s with
  | none => none
  | some rest =>
    let t := dropQuote (dropBlank rest)
    let number := t.takeWhile allowed
    if number.isEmpty then none
    else (closing? (dropQuote (t.dropWhile allowed))).map fun after => (number, after)

/-- `new`, blanks and `Date(`. -/
def newDate? (s : List Char) : Option (List Char) :=
  match dropPrefix? "new".toList s with
  | some (c :: rest) => if Text.isBlank c then dropPrefix? "Date(".toList (dropBlank rest) else none
  | _ => none

def isIntegerChar (c : Char) : Bool := c = '-' || c = '+' || c.isDigit

def isNumberChar (c : Char) : Bool := isIntegerChar c || c = '.' || c = 'e' || c = 'E'

/-- The six literals, in the order in which they are replaced. -/
def literals : List Matcher :=
  [textLiteral (dropPrefix? "ISODate(".toList), textLiteral newDate?,
    textLiteral (dropPrefix? "ObjectId(".toList), numberLiteral "NumberDecimal" isNumberChar,
    numberLiteral "NumberLong" isIntegerChar, numberLiteral "NumberInt" isIntegerChar]

/-- Replaces every match from left to right; the first `skip` characters belong to a match. -/
def substitute (m : Matcher) : Nat → List Char → List Char
  | _, [] => []
  | skip + 1, _ :: rest => substitute m skip rest
  | 0, c :: rest =>
    match m (c :: rest) with
    | some (replacement, after) => replacement ++ substitute m (rest.length - after.length) rest
    | none => c :: substitute m 0 rest

/-- The text without shell literals. -/
def normalizeLiterals (text : List Char) : List Char :=
  literals.foldl (fun s m => substitute m 0 s) text

end Inquiry.Reply
