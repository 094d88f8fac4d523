/-!
Reading bytes as UTF-8. Where the bytes cannot be read on, one replacement character stands for those
of the broken character so far, and reading starts again at the byte that did not fit.
-/
namespace Inquiry.Text.Utf8

/-- The character that stands for what cannot be read. -/
def replacement : Char := Char.ofNat 0xFFFD

/-- A character of which some bytes are read: the bits so far, the count of bytes that are owed, and
the least and the greatest value of the next one. -/
structure Pending where
  bits : Nat
  owed : Nat
  low : Nat
  high : Nat
  deriving Repr, DecidableEq

/-- What the first byte of a longer character starts. -/
def lead? (b : Nat) : Option Pending :=
  if 0xC2 ≤ b ∧ b ≤ 0xDF then some ⟨b - 0xC0, 1, 0x80, 0xBF⟩
  else if 0xE0 ≤ b ∧ b ≤ 0xEF then
    some ⟨b - 0xE0, 2, if b = 0xE0 then 0xA0 else 0x80, if b = 0xED then 0x9F else 0xBF⟩
  else if 0xF0 ≤ b ∧ b ≤ 0xF4 then
    some ⟨b - 0xF0, 3, if b = 0xF0 then 0x90 else 0x80, if b = 0xF4 then 0x8F else 0xBF⟩
  else none

/-- The first byte of a character. -/
def start (b : Nat) : List Char × Option Pending :=
  if b < 0x80 then ([Char.ofNat b], none)
  else
    match lead? b with
    | some p => ([], some p)
    | none => ([replacement], none)

/-- The characters that a byte ends, and the one that it leaves open. -/
def step (pending : Option Pending) (b : Nat) : List Char × Option Pending :=
  match pending with
  | none => start b
  | some p =>
    if p.low ≤ b ∧ b ≤ p.high then
      let bits := p.bits * 64 + (b - 0x80)
      if p.owed ≤ 1 then ([Char.ofNat bits], none) else ([], some ⟨bits, p.owed - 1, 0x80, 0xBF⟩)
    else
      let (chars, next) := start b
      (replacement :: chars, next)

def decodeFrom (pending : Option Pending) : List UInt8 → List Char
  | [] => if pending.isSome then [replacement] else []
  | b :: rest =>
    let (chars, next) := step pending b.toNat
    chars ++ decodeFrom next rest

/-- The text of bytes, whatever they are. -/
def decode (bytes : List UInt8) : List Char := decodeFrom none bytes

/-- The text of bytes that are UTF-8 throughout. -/
def decode? (bytes : List UInt8) : Option String := String.fromUTF8? ⟨bytes.toArray⟩

end Inquiry.Text.Utf8
