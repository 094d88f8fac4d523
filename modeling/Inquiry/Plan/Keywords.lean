import Inquiry.Chart.Names
import Inquiry.Plan.Basic

/-!
Plans from keywords. The words of the question choose a collection, a field to group by and a field
to add up; months are grouped by when the question speaks of months and the collection has a date.
-/
namespace Inquiry.Keywords

open Text.Chars (words replaceChar capitalize)

def countWords : List String := ["how many", "number of", "count"]

def monthWords : List String :=
  ["by month", "per month", "monthly", "each month", "over time", "trend"]

/-- The most groups that are returned. -/
def groupLimit : Int := 50

def isSmall (c : Char) : Bool := 'a' ≤ c && c ≤ 'z'

/-- A space between a small letter and a capital one. -/
def spaceHumps : List Char → List Char
  | a :: b :: rest =>
    if isSmall a && Chart.isCapital b then a :: ' ' :: spaceHumps (b :: rest)
    else a :: spaceHumps (b :: rest)
  | s => s

/-- The words of a field name, with spaces between them. -/
def spaced (field : String) : List Char := replaceChar '_' ' ' (spaceHumps field.toList)

/-- Whether a question, in lower case, names a field. -/
def mentions (question : String) (field : String) : Bool :=
  Text.contains (Text.lower field) question ||
    Text.contains (String.ofList (Text.Chars.lower (spaced field))) question

/-- A name made of a first word and the words of a field. -/
def compound (first : String) (field : String) : String :=
  first ++ String.ofList ((words (spaced field)).flatMap capitalize)

/-- A field name for display. -/
def label (field : String) : String := String.ofList (Text.Chars.title (spaced field))

/-- Whether a question names a collection. -/
def namesCollection (question : String) (name : String) : Bool :=
  Text.contains (Text.lower name) question ||
    Text.contains (String.ofList (Text.Chars.lower (replaceChar '_' ' ' name.toList))) question

/-- The first collection that the question names, else the first one. -/
def pickCollection (question : String) (first : String × Schema) (rest : Schemas) :
    String × Schema :=
  ((first :: rest).find? fun s => namesCollection question s.1).getD first

def asks (question : String) (keywords : List String) : Bool :=
  keywords.any fun k => Text.contains k question

/-- The field that groups are made by: its name in the result, and what it is computed from. -/
structure Category where
  name : String
  source : Value
  byMonth : Bool
  deriving Repr, BEq

/-- The first date by month if months are asked for, else the first text field that the question
names, else the first one. A field without a name groups nothing. -/
def pickCategory (question : String) (s : Schema) : Option Category :=
  match asks question monthWords, s.dateFields with
  | true, date :: _ => some ⟨"month", .doc [("$month", .str ("$" ++ date))], true⟩
  | _, _ =>
    let fields := s.fieldsOf .string
    match (fields.find? (mentions question)).or fields.head? with
    | some f => if f.isEmpty then none else some ⟨f, .str ("$" ++ f), false⟩
    | none => none

/-- What is computed in each group. -/
structure Measure where
  name : String
  accumulator : Value
  deriving Repr, BEq

/-- The total of the first number that the question names, else of the first one; a count if the
question asks for one or there is no number. -/
def pickMeasure (question : String) (s : Schema) : Measure :=
  let fields := s.fieldsOf .number
  let picked := (fields.find? (mentions question)).or fields.head?
  match asks question countWords, picked with
  | false, some f => ⟨compound "total" f, .doc [("$sum", .str ("$" ++ f))]⟩
  | _, _ => ⟨"count", .doc [("$sum", .int 1)]⟩

/-- A mapping in which a repeated key keeps its place and takes its last value. -/
def fields (entries : List (String × Value)) : Value :=
  .ofPairs (entries.map fun e => (.str e.1, e.2))

def groupStage (source : Value) (m : Measure) : Value :=
  .doc [("$group", fields [("_id", source), (m.name, m.accumulator)])]

/-- Groups, the two fields of the result, an order and a limit. -/
def groupedPipeline (c : Category) (m : Measure) : List Value :=
  [groupStage c.source m,
    .doc [("$project", fields [("_id", .int 0), (c.name, .str "$_id"), (m.name, .int 1)])],
    .doc [("$sort", if c.byMonth then .doc [(c.name, .int 1)] else .doc [(m.name, .int (-1))])],
    .doc [("$limit", .int groupLimit)]]

/-- One total for everything. -/
def totalPipeline (m : Measure) : List Value :=
  [groupStage .null m, .doc [("$project", fields [("_id", .int 0), (m.name, .int 1)])]]

def chartTitle (c : Category) (m : Measure) : String := label m.name ++ " by " ++ label c.name

def hintFor (c : Category) (m : Measure) : Hint :=
  { Hint.default with
    kind := if c.byMonth then "line" else "bar"
    title := chartTitle c m
    xAxisType := some "category"
    yAxisType := some "value"
    dimensions := [c.name, m.name] }

def planFor (primary : String) (category : Option Category) (m : Measure) : Plan where
  interpretation :=
    (match category with
      | some c => chartTitle c m
      | none => label m.name) ++ " in " ++ primary
  primary := primary
  requiresAnalysis := false
  pipeline :=
    match category with
    | some c => groupedPipeline c m
    | none => totalPipeline m
  recommended := category.isSome
  hint := category.map fun c => hintFor c m
  explanation := "Keyword-based plan (mock mode)."

/-- The plan for a question over at least one schema. -/
def plan (query : String) (first : String × Schema) (rest : Schemas) : Plan :=
  let question := Text.trim (Text.lower query)
  let (primary, schema) := pickCollection question first rest
  planFor primary (pickCategory question schema) (pickMeasure question schema)

end Inquiry.Keywords
