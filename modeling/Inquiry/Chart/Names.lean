import Inquiry.Text.Case
import Inquiry.Text.Blank
import Inquiry.Text.Search

/-!
Names for display: `totalSales` and `total_sales` are shown as `Total Sales`.
-/
namespace Inquiry.Chart

def isCapital (c : Char) : Bool := 'A' ≤ c && c ≤ 'Z'

/-- A space before every capital letter. -/
def spaceCapitals (s : List Char) : List Char :=
  s.flatMap fun c => if isCapital c then [' ', c] else [c]

/-- The words of a name, each with a capital at its start and nowhere else. -/
def displayWords (s : List Char) : List (List Char) :=
  (Text.Chars.words (Text.Chars.replaceChar '_' ' ' (spaceCapitals s))).map Text.Chars.capitalize

def displayChars (s : List Char) : List Char := Text.Chars.joinWith [' '] (displayWords s)

/-- The name as it is shown. -/
def displayName (name : String) : String := String.ofList (displayChars name.toList)

/-- Nothing is shown for a name that is missing. -/
def displayName? (name : Option String) : String := displayName (name.getD "")

end Inquiry.Chart
