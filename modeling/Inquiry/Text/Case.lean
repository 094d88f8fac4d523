import Inquiry.Text.CaseTables

/-!
Case conversion of whole texts by the full Unicode mappings. A capital sigma becomes its final form
at the end of a word; a title starts every word with the title form and lowers the rest.
-/
namespace Inquiry.Text

namespace CaseRun

def image? (r : CaseRun) (n : Nat) : Option Nat :=
  if r.first ≤ n && n ≤ r.last && (n - r.first) % r.step == 0 then some (n + r.shift).toNat
  else none

end CaseRun

/-- The image of a code point under runs and expansions; one that is in neither stays as it is. -/
def caseImage (expansions : List (Nat × List Nat)) (runs : List CaseRun) (n : Nat) : List Nat :=
  match expansions.lookup n with
  | some ns => ns
  | none =>
    match runs.findSome? (·.image? n) with
    | some m => [m]
    | none => [n]

def isCased (c : Char) : Bool :=
  if c.toNat < 128 then c.isAlpha else CodePoints.holds casedBounds c.toNat

def isCaseIgnorable (c : Char) : Bool := CodePoints.holds caseIgnorableBounds c.toNat

namespace Chars

def ofNats (ns : List Nat) : List Char := ns.map Char.ofNat

def lowerChar (c : Char) : List Char :=
  if c.toNat < 128 then [c.toLower]
  else ofNats (caseImage lowerExpansions lowerRuns c.toNat)

def upperChar (c : Char) : List Char :=
  if c.toNat < 128 then [c.toUpper]
  else ofNats (caseImage upperExpansions upperRuns c.toNat)

def titleChar (c : Char) : List Char :=
  if c.toNat < 128 then [c.toUpper]
  else
    match titleExceptions.lookup c.toNat with
    | some ns => ofNats ns
    | none => upperChar c

/-- A letter is met before anything that counts, looking past the ignorable characters. -/
def meetsCased (s : List Char) : Bool :=
  match s.dropWhile isCaseIgnorable with
  | [] => false
  | c :: _ => isCased c

/-- The lower case of `c` between the reversed text before it and the text after it. -/
def lowerBetween (before : List Char) (c : Char) (after : List Char) : List Char :=
  if c.toNat = 0x3A3 then
    [if meetsCased before && !meetsCased after then Char.ofNat 0x3C2 else Char.ofNat 0x3C3]
  else lowerChar c

def lowerFrom (before : List Char) : List Char → List Char
  | [] => []
  | c :: rest => lowerBetween before c rest ++ lowerFrom (c :: before) rest

def lower (s : List Char) : List Char := lowerFrom [] s

def upper (s : List Char) : List Char := s.flatMap upperChar

def titleFrom (inWord : Bool) (before : List Char) : List Char → List Char
  | [] => []
  | c :: rest =>
    (if inWord then lowerBetween before c rest else titleChar c) ++
      titleFrom (isCased c) (c :: before) rest

/-- Every word starts with its title form; any character without case ends a word. -/
def title (s : List Char) : List Char := titleFrom false [] s

/-- The first character in upper case, the others in lower case. -/
def capitalize : List Char → List Char
  | [] => []
  | c :: rest => upperChar c ++ lower rest

end Chars

def lower (s : String) : String := String.ofList (Chars.lower s.toList)

def upper (s : String) : String := String.ofList (Chars.upper s.toList)

def title (s : String) : String := String.ofList (Chars.title s.toList)

end Inquiry.Text
