import Inquiry.Fault
import Inquiry.Text.Search
import Inquiry.Text.Utf8

/-!
Routes: where the target of a request leads. The query and the fragment of a target do not count, and
neither do the steps `.` and `..` once they are taken. Percent escapes stand for bytes of UTF-8 and are
read twice. A line break at the end of a path is overlooked, and a path with slashes at its end leads
where it leads without them.
-/
namespace Inquiry.Server

inductive Route where
  | ask
  | plan
  | visualize
  | cacheStats
  | cacheSweep
  | collections
  | collection (name : String)
  | health
  /-- A page that describes the server. -/
  | manual
  deriving Repr, DecidableEq

/-- The methods that a route answers. -/
def Route.methods : Route → List String
  | .ask => ["POST"]
  | .plan => ["POST"]
  | .visualize => ["POST"]
  | .cacheSweep => ["POST"]
  | .cacheStats => ["GET"]
  | .collections => ["GET"]
  | .collection _ => ["GET"]
  | .health => ["GET"]
  | .manual => ["GET", "HEAD"]

def Route.ofParts? : List String → Option Route
  | ["", "ask"] => some .ask
  | ["", "ask", "plan"] => some .plan
  | ["", "ask", "visualize"] => some .visualize
  | ["", "ask", "cache", "stats"] => some .cacheStats
  | ["", "ask", "cache", "sweep"] => some .cacheSweep
  | ["", "collections"] => some .collections
  | ["", "collections", name] => if name.isEmpty then none else some (.collection name)
  | ["", "health"] => some .health
  | ["", "docs"] => some .manual
  | ["", "docs", "oauth2-redirect"] => some .manual
  | ["", "redoc"] => some .manual
  | ["", "openapi.json"] => some .manual
  | _ => none

/-- The text without one line break at its end. -/
def dropEndBreak (path : String) : String :=
  match path.toList.reverse with
  | '\n' :: rest => String.ofList rest.reverse
  | _ => path

/-- The route of a path; the name of a collection keeps its line break. -/
def Route.ofPath? (path : String) : Option Route :=
  (ofParts? (Text.splitOn '/' path)).or (ofParts? (Text.splitOn '/' (dropEndBreak path)))

/-- The text without slashes at its end. -/
def dropEndSlashes (path : String) : String :=
  String.ofList (path.toList.reverse.dropWhile (· = '/')).reverse

def byteOf? (a b : Char) : Option UInt8 :=
  match Json.hexValue? a, Json.hexValue? b with
  | some a, some b => some (UInt8.ofNat (a * 16 + b))
  | _, _ => none

/-- The bytes that a target stands for. A percent sign before anything else is itself. -/
def unescape : List Char → List UInt8
  | '%' :: a :: b :: rest =>
    match byteOf? a b with
    | some byte => byte :: unescape rest
    | none => 37 :: unescape (a :: b :: rest)
  | c :: rest => (String.singleton c).toUTF8.toList ++ unescape rest
  | [] => []

/-- One reading of the escapes. -/
def unescaped (path : String) : String := String.ofList (Text.Utf8.decode (unescape path.toList))

/-- Takes the steps `.` and `..`; `taken` are the parts so far, the last one first. -/
def takeSteps (taken : List String) : List String → List String
  | [] => taken.reverse
  | part :: rest =>
    if part = "." then takeSteps taken rest
    else if part = ".." then takeSteps (if taken = [""] then taken else taken.drop 1) rest
    else takeSteps (part :: taken) rest

/-- The path with its steps taken; it never is empty. -/
def settled (path : String) : String :=
  let taken := "/".intercalate (takeSteps [] (Text.splitOn '/' path))
  if taken.isEmpty then "/" else taken

def isTargetEnd (c : Char) : Bool := c = '?' || c = '#'

/-- The target without the host that may stand in front, after two slashes. -/
def dropHost : List Char → List Char
  | '/' :: '/' :: rest => rest.dropWhile fun c => !(c = '/' || isTargetEnd c)
  | s => s

/-- The target without a scheme in front: a letter and more before a colon. -/
def dropScheme (s : List Char) : List Char :=
  let name := s.takeWhile fun c => c.isAlphanum || c = '+' || c = '-' || c = '.'
  match name, s.drop name.length with
  | c :: _, ':' :: rest => if c.isAlpha then rest else s
  | _, _ => s

/-- The path of a target. -/
def pathOf (target : String) : String :=
  let bare := (dropHost (dropScheme target.toList)).takeWhile fun c => !isTargetEnd c
  unescaped (unescaped (settled (String.ofList ('/' :: bare.dropWhile (· = '/')))))

/-- The path that is answered instead of one that leads nowhere: that without slashes at its end, read
once more. `fuel` bounds how often that helps. -/
def settlePath : Nat → String → String
  | 0, path => path
  | fuel + 1, path =>
    let shorter := dropEndSlashes path
    if (Route.ofPath? path).isNone && (Route.ofPath? shorter).isSome then
      settlePath fuel (unescaped (settled shorter))
    else path

/-- The path as it is told: up to a query or a fragment, and without line breaks and tabs. -/
def shownPath (path : String) : String :=
  String.ofList ((path.toList.takeWhile fun c => !isTargetEnd c).filter fun c =>
    !(c = '\n' || c = '\r' || c = '\t'))

/-- The most characters of a target. -/
def maxTarget : Nat := 65536

def isControl (c : Char) : Bool := c.toNat < 0x20 || c.toNat = 0x7F

/-- Why a target cannot be sent. -/
def targetFault? (target : String) : Option Fault :=
  let cs := target.toList
  if maxTarget < cs.length then some (.foreign "InvalidURL" "URL too long")
  else
    match cs.find? isControl with
    | none => none
    | some c =>
      some (.foreign "InvalidURL" ("Invalid non-printable ASCII character in URL, " ++
        Text.quoted (String.singleton c) ++ " at position " ++
        toString (cs.takeWhile (· ≠ c)).length ++ "."))

end Inquiry.Server
