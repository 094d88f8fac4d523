/-!
Finding an object in free text: from the first opening brace on, braces are counted outside of
string literals, and the text up to the brace that closes the first one is the object.
-/
namespace Inquiry.Reply

/-- Where the scan stands: outside string literals, inside one, or after a backslash in one. -/
inductive Mode where
  | code
  | string
  | escaped
  deriving Repr, DecidableEq

/-- The text up to the brace that brings the depth back to zero. -/
def scan : Mode → Nat → List Char → Option (List Char)
  | _, _, [] => none
  | .escaped, depth, c :: rest => (scan .string depth rest).map (c :: ·)
  | .string, depth, c :: rest =>
    let next := if c = '\\' then Mode.escaped else if c = '"' then .code else .string
    (scan next depth rest).map (c :: ·)
  | .code, depth, c :: rest =>
    if c = '"' then (scan .string depth rest).map (c :: ·)
    else if c = '\x7b' then (scan .code (depth + 1) rest).map (c :: ·)
    else if c = '\x7d' then
      if depth ≤ 1 then some [c] else (scan .code (depth - 1) rest).map (c :: ·)
    else (scan .code depth rest).map (c :: ·)

/-- The object that starts at the first opening brace, if it is closed. -/
def findBalanced? (text : List Char) : Option (List Char) :=
  match text.dropWhile (· ≠ '\x7b') with
  | [] => none
  | brace :: rest => scan .code 0 (brace :: rest)

end Inquiry.Reply
