import Inquiry.Decimal.BaseTen
import Inquiry.Text.Digit

/-!
Integers as people write them. In a request an integer is a sign and digits with single underscores
between them. In the environment it may also have zeros in front and a fraction of zeros. Either way
a text with too many digits is refused for its length.
-/
namespace Inquiry.Decimal

/-- The most digits of an integer that is read. -/
def maxDigits : Nat := 4300

inductive IntegerText where
  | value (n : Int)
  | tooLong (digits : Nat)
  | malformed
  deriving Repr, DecidableEq

/-- A sign and the text after it. -/
def takeSign (s : List Char) : Bool × List Char :=
  match s with
  | '-' :: r => (true, r)
  | '+' :: r => (false, r)
  | r => (false, r)

def signed (negative : Bool) (ds : List Char) : Int :=
  let n : Int := BaseTen.natOfDigits ds
  if negative then -n else n

def isSeparator (c : Char) : Bool := c = '_'

/-- Whether two underscores stand side by side. -/
def hasGap : List Char → Bool
  | a :: b :: rest => (isSeparator a && isSeparator b) || hasGap (b :: rest)
  | _ => false

/-- Whether underscores stand only between other characters, one at a time. -/
def separatesWell (s : List Char) : Bool :=
  !s.head?.any isSeparator && !s.getLast?.any isSeparator && !hasGap s

def withoutSeparators (s : List Char) : List Char := s.filter fun c => !isSeparator c

/-- A sign, and digits that underscores may separate. -/
def readInteger (s : List Char) : IntegerText :=
  let (negative, body) := takeSign s
  let run := body.takeWhile fun c => c.isDigit || isSeparator c
  let ds := withoutSeparators run
  if run.isEmpty || !separatesWell run then .malformed
  else if maxDigits < ds.length then .tooLong ds.length
  else if run.length < body.length then .malformed
  else .value (signed negative ds)

/-- The same in a text with blanks around it and digits of any script. -/
def readIntegerText (s : String) : IntegerText :=
  readInteger ((Text.Chars.trimOf Text.isSpacing s.toList).map Text.plainDigit)

/-- A minus sign or none, and digits that do not start with a zero; zero is one digit. -/
def readBare (s : List Char) : IntegerText :=
  let (negative, body) := match s with
    | '-' :: r => (true, r)
    | r => (false, r)
  match body with
  | ['0'] => .value 0
  | '0' :: _ => .malformed
  | _ =>
    let ds := body.takeWhile Char.isDigit
    let length := ds.length + if negative then 1 else 0
    if ds.isEmpty then .malformed
    else if maxDigits < length then .tooLong length
    else if ds.length < body.length then .malformed
    else .value (signed negative ds)

/-- What follows zeros in front; `last` is the character before. Of zeros alone, the last character
stays, and so does a zero before a point. -/
def afterZeros? (last : Char) : List Char → Option (List Char)
  | [] => some [last]
  | c :: rest =>
    if c = '0' ∨ c = '_' then afterZeros? c rest
    else if c.isDigit then some (c :: rest)
    else if c = '.' then some (last :: c :: rest)
    else none

def dropZeros? : List Char → Option (List Char)
  | [] => none
  | c :: rest =>
    if c = '0' then afterZeros? c rest
    else if c.isDigit ∨ c = '-' then some (c :: rest)
    else none

/-- Without a fraction that is made of zeros. -/
def dropZeroFraction (s : List Char) : List Char :=
  match s.dropWhile (· ≠ '.') with
  | _ :: zero :: more => if (zero :: more).all (· = '0') then s.takeWhile (· ≠ '.') else s
  | _ => s

/-- A written form brought closer to a bare one. -/
def bare? (s : List Char) : Option (List Char) :=
  let trimmed := Text.Chars.trimOf Text.isSpacing s
  let unsigned? := match trimmed with
    | '+' :: '-' :: _ => none
    | '+' :: r => some r
    | r => some r
  ((unsigned?.bind dropZeros?).map dropZeroFraction).map fun r =>
    if separatesWell r then withoutSeparators r else r

/-- An integer from the environment. Its length counts only if it is bare as it stands. -/
def readSetting (text : String) : IntegerText :=
  match readBare text.toList with
  | .malformed =>
    match (bare? text.toList).map readBare with
    | some (.value n) => .value n
    | _ => .malformed
  | read => read

end Inquiry.Decimal
