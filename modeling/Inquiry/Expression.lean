import Inquiry.Fault

/-!
Expression trees: what the spec of a pipeline stage is made of. Reading a value tells field
references, operator calls and embedded documents apart from plain leaves; the payload of `$literal`
is a leaf whatever it holds. `toValue` writes a tree back.
-/
namespace Inquiry

inductive Expression where
  | scalar (value : Value)
  /-- `$path`, kept without its sign. -/
  | fieldRef (path : String)
  | keyed (entries : List (String × Expression))
  | array (items : List Expression)
  deriving Inhabited, Repr

/-- A text that starts with a dollar sign names an operator. -/
def isOperatorName (s : String) : Bool :=
  match s.toList with
  | '$' :: _ => true
  | _ => false

/-- `$name` refers to a field; a second sign makes it a variable. -/
def fieldPath? (s : String) : Option String :=
  match s.toList with
  | '$' :: c :: rest => if c = '$' then none else some (String.ofList (c :: rest))
  | _ => none

/-- A path and the next key below it. -/
def joinPath (path key : String) : String := if path.isEmpty then key else path ++ "." ++ key

/-- A path and the next index below it. -/
def indexPath (path : String) (i : Int) : String := path ++ "[" ++ toString i ++ "]"

namespace Expression

/-- The entry under a key. -/
def find? (key : String) : List (String × Expression) → Option Expression
  | [] => none
  | (k, e) :: rest => if k = key then some e else find? key rest

def get? (key : String) : Expression → Option Expression
  | .keyed es => find? key es
  | _ => none

/-- The operator and operand of a single-key operator call. -/
def call? : Expression → Option (String × Expression)
  | .keyed [(key, operand)] => if isOperatorName key then some (key, operand) else none
  | _ => none

def operator? (e : Expression) : Option String := e.call?.map (·.1)

/-- A keyed node that is no operator call and not empty. -/
def isDocument : Expression → Bool
  | .keyed [] => false
  | .keyed es => (call? (.keyed es)).isNone
  | _ => false

/-- The only item of a one-item array stands for the item. -/
def unwrapSingle : Expression → Expression
  | .array [e] => e
  | e => e

/-- The types that stand for themselves. -/
def isLeaf : Value → Bool
  | .str _ => true
  | .int _ => true
  | .int64 _ => true
  | .float _ => true
  | .bool _ => true
  | .null => true
  | .moment _ => true
  | .day _ => true
  | _ => false

def ofText (s : String) : Expression :=
  match fieldPath? s with
  | some path => .fieldRef path
  | none => .scalar (.str s)

mutual

/-- Reads a value at a path, or tells the first place that has no tree. -/
def ofValue (path : String) : Value → Except Malformed Expression
  | .dict es => (ofEntries path es).map .keyed
  | .list xs => (ofItems path 0 xs).map .array
  | .tuple xs => (ofItems path 0 xs).map .array
  | .str s => .ok (ofText s)
  | v => if isLeaf v then .ok (.scalar v) else .error (.unsupported path v.typeName)

def ofItems (path : String) (i : Nat) : List Value → Except Malformed (List Expression)
  | [] => .ok []
  | v :: vs =>
    match ofValue (indexPath path i) v with
    | .error m => .error m
    | .ok e => (ofItems path (i + 1) vs).map (e :: ·)

def ofEntries (path : String) : List (Value × Value) → Except Malformed (List (String × Expression))
  | [] => .ok []
  | (.str key, v) :: es =>
    if key = "$literal" then (ofEntries path es).map ((key, .scalar v) :: ·)
    else
      match ofValue (joinPath path key) v with
      | .error m => .error m
      | .ok e => (ofEntries path es).map ((key, e) :: ·)
  | (key, _) :: _ => .error (.keyNotText path key)

end

mutual

def toValue : Expression → Value
  | .scalar v => v
  | .fieldRef path => .str ("$" ++ path)
  | .keyed es => .dict (toEntries es)
  | .array xs => .list (toItems xs)

def toItems : List Expression → List Value
  | [] => []
  | e :: es => e.toValue :: toItems es

def toEntries : List (String × Expression) → List (Value × Value)
  | [] => []
  | (key, e) :: es => (.str key, e.toValue) :: toEntries es

end

end Expression

/-- A pipeline stage: one operator and its spec. -/
structure Stage where
  operator : String
  spec : Expression
  deriving Inhabited, Repr

namespace Stage

def toExpression (s : Stage) : Expression := .keyed [(s.operator, s.spec)]

def toValue (s : Stage) : Value := s.toExpression.toValue

/-- Reads a stage: a mapping with one key, which names an operator. -/
def ofValue (index : Int) : Value → Except Malformed Stage
  | .dict [(key, v)] =>
    match key with
    | .str op =>
      if isOperatorName op then
        if op = "$literal" then .ok ⟨op, .scalar v⟩
        else
          (Expression.ofValue (joinPath (indexPath "" index) op) v).map fun spec => ⟨op, spec⟩
      else .error (.notOperator index key)
    | key => .error (.notOperator index key)
  | .dict es => .error (.operatorCount index (es.map (·.1)))
  | v => .error (.notStage index v.typeName)

end Stage

end Inquiry
