import Inquiry.Text.Case
import Inquiry.Text.Search
import Inquiry.Value.Display

/-!
Schemas: the fields of one collection with the names of their types, as one sampled document shows
them. A type whose name speaks of a date or a timestamp makes its field a date field.
-/
namespace Inquiry

/-- The types that a sample is described with. -/
inductive FieldType where
  | string
  | number
  | boolean
  | date
  | array
  | null
  | unknown
  deriving Repr, DecidableEq

namespace FieldType

def name : FieldType → String
  | .string => "string"
  | .number => "number"
  | .boolean => "boolean"
  | .date => "date"
  | .array => "array"
  | .null => "null"
  | .unknown => "unknown"

/-- The type of a stored value. -/
def ofValue : Value → FieldType
  | .null => .null
  | .bool _ => .boolean
  | .int _ => .number
  | .int64 _ => .number
  | .float _ => .number
  | .decimal128 _ => .number
  | .decimal _ => .number
  | .moment _ => .date
  | .day _ => .date
  | .str _ => .string
  | .list _ => .array
  | .tuple _ => .array
  | _ => .unknown

end FieldType

structure Schema where
  name : String
  /-- Field and type name, in the order of the sample. -/
  fields : List (String × String)
  deriving Repr, DecidableEq, Inhabited

namespace Schema

def isDateType (typeName : String) : Bool :=
  let t := Text.lower typeName
  Text.contains "date" t || Text.contains "timestamp" t

def names (s : Schema) : List String := s.fields.map (·.1)

def dateFields (s : Schema) : List String :=
  (s.fields.filter fun f => isDateType f.2).map (·.1)

/-- The fields of one type. -/
def fieldsOf (s : Schema) (t : FieldType) : List String :=
  (s.fields.filter fun f => f.2 = t.name).map (·.1)

/-- The schema as a prompt shows it. -/
def promptValue (s : Schema) : Value :=
  .doc [("collection_name", .str s.name),
    ("schema", .doc (s.fields.map fun f => (f.1, .doc [("type", .str f.2)])))]

end Schema

end Inquiry
