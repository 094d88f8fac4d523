import Inquiry.Proofs.Json.Numbers

/-!
# The texts of JSON values

The grammar as it is written down for the format: which texts are values, whatever they mean and
however a value is printed. Blanks may stand around every token; a string literal may hold every
character from the space on as it is, but a quote or a backslash, and every character as an escape.
-/
namespace Inquiry.Json.Grammar

/-- Blanks between two tokens. -/
def Gap (t : List Char) : Prop := ∀ c ∈ t, isSpace c = true

/-- The characters that may follow a backslash on their own. -/
def shortEscapes : List Char := ['"', '\\', '/', 'b', 'f', 'n', 'r', 't']

def isHexDigit (c : Char) : Bool := c.isDigit || ('a' ≤ c && c ≤ 'f') || ('A' ≤ c && c ≤ 'F')

/-- What stands between the quotes of a string literal. -/
inductive Body : List Char → Prop
  | nil : Body []
  | plain {c t} (quote : c ≠ '"') (slash : c ≠ '\\') (printable : 0x20 ≤ c.toNat) (rest : Body t) :
      Body (c :: t)
  | short {c t} (listed : c ∈ shortEscapes) (rest : Body t) : Body ('\\' :: c :: t)
  | numeric {a b c d t} (digits : ∀ x ∈ [a, b, c, d], isHexDigit x = true) (rest : Body t) :
      Body ('\\' :: 'u' :: a :: b :: c :: d :: t)

inductive Literal : List Char → Prop
  | mk {t} (body : Body t) : Literal ('"' :: (t ++ ['"']))

inductive Fraction : List Char → Prop
  | none : Fraction []
  | some {ds} (nonempty : ds ≠ []) (digits : ∀ d ∈ ds, d.isDigit = true) : Fraction ('.' :: ds)

inductive Exponent : List Char → Prop
  | none : Exponent []
  | some {letter sign ds} (letters : letter ∈ ['e', 'E']) (signs : sign ∈ [[], ['+'], ['-']])
      (nonempty : ds ≠ []) (digits : ∀ d ∈ ds, d.isDigit = true) :
      Exponent (letter :: (sign ++ ds))

inductive Numeral : List Char → Prop
  | mk {ds part exponent} (negative : Bool) (whole : Whole ds) (fraction : Fraction part)
      (scale : Exponent exponent) : Numeral (signText negative ++ (ds ++ (part ++ exponent)))

mutual

inductive IsValue : List Char → Prop
  | null : IsValue ['n', 'u', 'l', 'l']
  | true : IsValue ['t', 'r', 'u', 'e']
  | false : IsValue ['f', 'a', 'l', 's', 'e']
  | number {t} (number : Numeral t) : IsValue t
  | string {t} (literal : Literal t) : IsValue t
  | array {t} (items : Items t) : IsValue ('[' :: (t ++ [']']))
  | emptyArray {t} (gap : Gap t) : IsValue ('[' :: (t ++ [']']))
  | object {t} (object : IsObject t) : IsValue t

/-- A value with the blanks around it. -/
inductive Padded : List Char → Prop
  | mk {before t after} (left : Gap before) (value : IsValue t) (right : Gap after) :
      Padded (before ++ (t ++ after))

/-- The items of an array, parted by commas. -/
inductive Items : List Char → Prop
  | one {t} (item : Padded t) : Items t
  | more {t rest} (item : Padded t) (items : Items rest) : Items (t ++ ',' :: rest)

/-- A key and its value. -/
inductive Member : List Char → Prop
  | mk {before key after t} (left : Gap before) (literal : Literal key) (right : Gap after)
      (value : Padded t) : Member (before ++ (key ++ (after ++ ':' :: t)))

/-- The members of an object, parted by commas. -/
inductive Members : List Char → Prop
  | one {t} (member : Member t) : Members t
  | more {t rest} (member : Member t) (members : Members rest) : Members (t ++ ',' :: rest)

/-- An object from its opening brace to its closing one. -/
inductive IsObject : List Char → Prop
  | members {t} (members : Members t) : IsObject ('\x7b' :: (t ++ ['\x7d']))
  | empty {t} (gap : Gap t) : IsObject ('\x7b' :: (t ++ ['\x7d']))

end

end Inquiry.Json.Grammar
