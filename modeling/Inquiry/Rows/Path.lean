import Inquiry.Fault
import Inquiry.Text.Search

/-!
Dotted paths into result rows. Rows are documents; for any other value `defect?` tells why it cannot
be asked for a path, and where it tells nothing, `nested` has the answer.
-/
namespace Inquiry.Rows

/-- Follows keys one after the other; what is no mapping has nothing below it. -/
def walk (v : Value) : List String → Value
  | [] => v
  | key :: keys => walk (v.getD key) keys

/-- The value at a path such as `_id.month`. A key that is the whole path comes first; an empty path
leads nowhere. -/
def nested (row : Value) (path : String) : Value :=
  if path.isEmpty then .null
  else
    match row.get? path with
    | some v => v
    | none => walk row (Text.splitOn '.' path)

def isNotANumber : Value → Bool
  | .float x => x.isNaN
  | _ => false

/-- The value under a key of whatever type. A key that is no number finds itself. -/
def atKey? (key : Value) (entries : List (Value × Value)) : Option Value :=
  (entries.find? fun e => e.1.same key || (isNotANumber e.1 && isNotANumber key)).map (·.2)

mutual

/-- The first part of a value that keeps it from being a key. -/
def unhashable? : Value → Option Value
  | .list xs => some (.list xs)
  | .set xs => some (.set xs)
  | .dict es => some (.dict es)
  | .tuple xs => unhashableItem? xs
  | _ => none

def unhashableItem? : List Value → Option Value
  | [] => none
  | v :: vs => (unhashable? v).or (unhashableItem? vs)

end

/-- A value that can be a key. -/
def asKey (v : Value) : Except Defect Value :=
  match unhashable? v with
  | some part => .error (.notHashable part.fullTypeName)
  | none => .ok v

/-- The item at an index, which counts from the end if it is negative. -/
def item (kind : String) (xs : List Value) (index : Value) : Except Defect Value :=
  match index.wholeNumber?, index with
  | none, v => .error (.badIndex kind v.fullTypeName)
  | some _, .float x => .error (.badIndex kind (Value.float x).fullTypeName)
  | some n, _ =>
    let at? := if n < 0 then (if n.natAbs ≤ xs.length then xs[xs.length - n.natAbs]? else none)
      else xs[n.toNat]?
    match at? with
    | some v => .ok v
    | none => .error (.indexRange kind)

/-- What a value holds under a whole path. A sequence that contains the path is then indexed with
it. -/
def direct? (row path : Value) : Except Defect (Option Value) :=
  let indexed (kind : String) (xs : List Value) : Except Defect (Option Value) :=
    if xs.any (·.same path) then (item kind xs path).map some else .ok none
  match row with
  | .dict es => (asKey path).map fun path => atKey? path es
  | .list xs => indexed "list" xs
  | .tuple xs => indexed "tuple" xs
  | .set xs => do
    let path ← asKey path
    if xs.any (·.same path) then .error (.notIndexed "set") else .ok none
  | .str s =>
    match path with
    | .str p => if Text.contains p s then .error (.badTextIndex "str") else .ok none
    | p => .error (.textPart p.fullTypeName)
  | .bytes bs =>
    match path with
    | .bytes p =>
      if Text.Chars.contains (p.map fun b => Char.ofNat b.toNat) (bs.map fun b => Char.ofNat b.toNat)
      then .error (.badIndex "byte" "bytes") else .ok none
    | .str _ => .error (.bytesPart "str")
    | .float _ => .error (.bytesPart "float")
    | p =>
      match p.wholeNumber? with
      | none => .error (.bytesPart p.fullTypeName)
      | some n =>
        if n < 0 ∨ 255 < n then .error .byteRange
        else indexed "byte" (bs.map fun b => .ofNat b.toNat)
  | v => .error (.notContainer v.fullTypeName)

/-- What a value hands out one after the other; of a document, its keys. -/
def parts : Value → Except Defect (List Value)
  | .dict es => .ok (es.map (·.1))
  | .list xs => .ok xs
  | .tuple xs => .ok xs
  | .set xs => .ok xs
  | .str s => .ok (s.toList.map fun c => .str (String.singleton c))
  | .bytes bs => .ok (bs.map fun b => .ofNat b.toNat)
  | v => .error (.notIterable v.fullTypeName)

/-- Whether a value has a name among its parts. -/
def holds (row : Value) (name : String) : Except Defect Bool :=
  match row with
  | .dict es => .ok (atKey? (.str name) es).isSome
  | .list xs => .ok (xs.any (·.same (.str name)))
  | .tuple xs => .ok (xs.any (·.same (.str name)))
  | .set xs => .ok (xs.any (·.same (.str name)))
  | .str s => .ok (Text.contains name s)
  | .bytes _ => .error (.bytesPart "str")
  | v => .error (.notContainer v.fullTypeName)

/-- A path is taken apart at its points, so it has to be a text. -/
def splitDefect (path : Value) : Defect :=
  match path with
  | .bytes _ => .bytesPart "str"
  | p => .noAttribute p.fullTypeName "split"

/-- The value at a path of any type in a row of any type. -/
def lookup (row path : Value) : Except Defect Value :=
  if !path.isGiven then .ok .null
  else
    match direct? row path with
    | .error d => .error d
    | .ok (some v) => .ok v
    | .ok none =>
      match path with
      | .str p => .ok (walk row (Text.splitOn '.' p))
      | p => .error (splitDefect p)

/-- Why a value cannot be asked for a path. -/
def defect? (row : Value) (path : String) : Option Defect :=
  match lookup row (.str path) with
  | .error d => some d
  | .ok _ => none

theorem asKey_str (s : String) : asKey (.str s) = .ok (.str s) := by
  simp [asKey, unhashable?]

theorem defect?_dict (es : List (Value × Value)) (path : String) : defect? (.dict es) path = none := by
  simp only [defect?, lookup, direct?, asKey_str, Except.map]
  split <;> simp_all
  rename_i h
  split at h <;> simp_all
  split at h <;> simp_all

end Inquiry.Rows
