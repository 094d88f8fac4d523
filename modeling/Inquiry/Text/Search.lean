/-!
Finding and cutting texts as lists of characters.
-/
namespace Inquiry.Text

namespace Chars

/-- What follows `part` at the start of the text. -/
def dropPrefix? : List Char → List Char → Option (List Char)
  | [], s => some s
  | _ :: _, [] => none
  | p :: ps, c :: cs => if p = c then dropPrefix? ps cs else none

def startsWith (part s : List Char) : Bool := (dropPrefix? part s).isSome

/-- Whether `part` occurs anywhere in the text. -/
def contains (part : List Char) : List Char → Bool
  | [] => part.isEmpty
  | c :: rest => startsWith part (c :: rest) || contains part rest

/-- The text before and after the first occurrence of `part`. -/
def cutAt? (part : List Char) : List Char → Option (List Char × List Char)
  | [] => if part.isEmpty then some ([], []) else none
  | c :: rest =>
    match dropPrefix? part (c :: rest) with
    | some after => some ([], after)
    | none => (cutAt? part rest).map fun (b, a) => (c :: b, a)

/-- The pieces between the separator characters; always at least one. -/
def splitOn (sep : Char) : List Char → List (List Char)
  | [] => [[]]
  | c :: rest =>
    if c = sep then [] :: splitOn sep rest
    else
      match splitOn sep rest with
      | [] => [[c]]
      | piece :: pieces => (c :: piece) :: pieces

/-- Every `old` becomes `new`. -/
def replaceChar (old new : Char) (s : List Char) : List Char :=
  s.map fun c => if c = old then new else c

/-- Joins pieces with a separator between each two. -/
def joinWith (sep : List Char) : List (List Char) → List Char
  | [] => []
  | [p] => p
  | p :: ps => p ++ sep ++ joinWith sep ps

end Chars

def contains (part s : String) : Bool := Chars.contains part.toList s.toList

def startsWith (part s : String) : Bool := Chars.startsWith part.toList s.toList

/-- At most the first `n` characters. -/
def takeChars (n : Nat) (s : String) : String := String.ofList (s.toList.take n)

def splitOn (sep : Char) (s : String) : List String := (Chars.splitOn sep s.toList).map String.ofList

end Inquiry.Text
