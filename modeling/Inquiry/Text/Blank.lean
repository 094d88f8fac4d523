/-!
Blank characters, and the three things that depend on them: trimming a text, testing whether it is
blank, and taking it apart into words.
-/
namespace Inquiry.Text

/-- The blank characters: the ASCII spacing and separator controls, the space, and the Unicode
space, line and paragraph separators. -/
def isBlank (c : Char) : Bool :=
  let n := c.toNat
  (0x09 ≤ n && n ≤ 0x0D) || (0x1C ≤ n && n ≤ 0x20) || n == 0x85 || n == 0xA0 || n == 0x1680 ||
    (0x2000 ≤ n && n ≤ 0x200A) || n == 0x2028 || n == 0x2029 || n == 0x202F || n == 0x205F ||
    n == 0x3000

theorem isBlank_space : isBlank ' ' = true := by decide

/-- The blanks that only space out a text; the four separator controls are none. -/
def isSpacing (c : Char) : Bool := isBlank c && !(0x1C ≤ c.toNat && c.toNat ≤ 0x1F)

namespace Chars

def dropBlank (s : List Char) : List Char := s.dropWhile isBlank

/-- Without the blanks at both ends. -/
def trim (s : List Char) : List Char := (dropBlank (dropBlank s).reverse).reverse

def allBlank (s : List Char) : Bool := s.all isBlank

/-- Without the characters at both ends of which `p` holds. -/
def trimOf (p : Char → Bool) (s : List Char) : List Char :=
  ((s.dropWhile p).reverse.dropWhile p).reverse

/-- The maximal runs of non-blank characters; `word` is the run being read. -/
def wordsFrom (word : List Char) : List Char → List (List Char)
  | [] => if word.isEmpty then [] else [word]
  | c :: rest =>
    if isBlank c then (if word.isEmpty then [] else [word]) ++ wordsFrom [] rest
    else wordsFrom (word ++ [c]) rest

def words (s : List Char) : List (List Char) := wordsFrom [] s

end Chars

def trim (s : String) : String := String.ofList (Chars.trim s.toList)

def allBlank (s : String) : Bool := Chars.allBlank s.toList

end Inquiry.Text
