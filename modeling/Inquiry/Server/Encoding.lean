import Inquiry.Json.Reader
import Inquiry.Text.Utf8

/-!
Encodings of a body. A body is UTF-8 unless its first bytes are zero where only a wider encoding has
zeros.
-/
namespace Inquiry.Server

inductive Encoding where
  | utf8
  | utf16 (bigEndian : Bool)
  | utf32 (bigEndian : Bool)
  deriving Repr, DecidableEq

/-- The encoding that the first bytes show. -/
def Encoding.ofBytes : List UInt8 → Encoding
  | [0, _] => .utf16 true
  | [_, 0] => .utf16 false
  | a :: b :: c :: d :: _ =>
    if a = 0 then (if b = 0 then .utf32 true else .utf16 true)
    else if b = 0 then (if c = 0 ∧ d = 0 then .utf32 false else .utf16 false)
    else .utf8
  | _ => .utf8

/-- The number in some bytes, the first of which counts most. -/
def numberOf (bytes : List UInt8) : Nat := bytes.foldl (fun n b => n * 256 + b.toNat) 0

/-- The numbers in units of two bytes; nothing if a byte is left over. -/
def units16? (bigEndian : Bool) : List UInt8 → Option (List Nat)
  | [] => some []
  | a :: b :: rest =>
    (units16? bigEndian rest).map (numberOf (if bigEndian then [a, b] else [b, a]) :: ·)
  | _ => none

/-- The numbers in units of four bytes. -/
def units32? (bigEndian : Bool) : List UInt8 → Option (List Nat)
  | [] => some []
  | a :: b :: c :: d :: rest =>
    (units32? bigEndian rest).map
      (numberOf (if bigEndian then [a, b, c, d] else [d, c, b, a]) :: ·)
  | _ => none

/-- The characters of units of sixteen bits. -/
def chars16 : List Nat → List Char
  | [] => []
  | [n] => [Json.unitChar n]
  | a :: b :: rest =>
    if Json.isHighUnit a && Json.isLowUnit b then Json.pairChar a b :: chars16 rest
    else Json.unitChar a :: chars16 (b :: rest)

/-- The characters of units of 32 bits; there are none beyond the last plane. -/
def chars32? (units : List Nat) : Option (List Char) :=
  if units.all (· ≤ 0x10FFFF) then some (units.map Json.unitChar) else none

/-- Without the mark that may stand in front. -/
def dropMark : List Char → List Char
  | '\ufeff' :: rest => rest
  | s => s

/-- The text of a body. -/
def bodyText? (bytes : List UInt8) : Option String :=
  match Encoding.ofBytes bytes with
  | .utf8 => (Text.Utf8.decode? bytes).map fun s => String.ofList (dropMark s.toList)
  | .utf16 bigEndian => (units16? bigEndian bytes).map fun us => String.ofList (chars16 us)
  | .utf32 bigEndian => ((units32? bigEndian bytes).bind chars32?).map String.ofList

end Inquiry.Server
