import Inquiry.Text.Printable

/-!
Quoted text for messages: single quotes unless the text has a single quote and no double one, a
backslash before the quote and before itself, short escapes for tab and line ends, and numeric
escapes for what cannot be shown.
-/
namespace Inquiry.Text

def hexDigit (n : Nat) : Char := if n < 10 then Char.ofNat (48 + n) else Char.ofNat (87 + n)

/-- Exactly `width` lower-case hexadecimal digits of `n`. -/
def hexDigits : Nat → Nat → List Char
  | 0, _ => []
  | width + 1, n => hexDigits width (n / 16) ++ [hexDigit (n % 16)]

namespace Quoted

/-- The quote that needs the fewest escapes: the double one only if the text has a single quote and
no double one. -/
def quoteFor (s : List Char) : Char := if s.contains '\'' && !s.contains '"' then '"' else '\''

def numericEscape (n : Nat) : List Char :=
  if n ≤ 0xFF then '\\' :: 'x' :: hexDigits 2 n
  else if n ≤ 0xFFFF then '\\' :: 'u' :: hexDigits 4 n
  else '\\' :: 'U' :: hexDigits 8 n

def escapeChar (quote c : Char) : List Char :=
  if c = quote || c = '\\' then ['\\', c]
  else if c = '\t' then ['\\', 't']
  else if c = '\n' then ['\\', 'n']
  else if c = '\r' then ['\\', 'r']
  else if isPrintable c then [c]
  else numericEscape c.toNat

def encode (s : List Char) : List Char :=
  let quote := quoteFor s
  quote :: (s.flatMap (escapeChar quote) ++ [quote])

/-- Bytes are quoted as the characters they are in ASCII; the others are written as numbers. -/
def encodeBytes (bytes : List UInt8) : List Char :=
  let cs := bytes.map fun b => Char.ofNat b.toNat
  let quote := quoteFor cs
  let one (c : Char) : List Char := if 0x7F ≤ c.toNat then numericEscape c.toNat
    else escapeChar quote c
  'b' :: quote :: (cs.flatMap one ++ [quote])

end Quoted

/-- The text in quotes. -/
def quoted (s : String) : String := String.ofList (Quoted.encode s.toList)

end Inquiry.Text
