import Inquiry.Plan.Basic

/-!
The prompt that asks a model for a plan: the question, the schemas, the rules, and the shape of the
answer.
-/
namespace Inquiry.Prompt

def schemasText (schemas : Schemas) : String :=
  Json.indented (.doc (schemas.map fun s => (s.1, s.2.promptValue)))

/-- The rules, given the names that may be used. -/
def rules (collections : String) : List String :=
  ["Rules:",
    "  1. Pick the primary collection the pipeline starts from; it MUST be one of: " ++ collections ++
      ".",
    "  2. Use the exact field names from the schemas.",
    "  3. Date handling: if a field's type is 'date', apply date operators ($year, $month, " ++
      "$dateToString ...) to it directly. Only when the type is 'string' convert it first " ++
      "with $dateFromString.",
    "  4. Name computed fields clearly (count, totalSales, averagePrice).",
    "  5. When no order is requested, sort by the category ascending or the value descending.",
    "  6. The final stage must output documents whose field names match " ++
      "visualization.option.dataset.dimensions, ordered [category, value].",
    "  7. Use plain JSON only: no ISODate(), ObjectId(), NumberLong()."]

def answerShape : List String :=
  ["Respond ONLY with a JSON object of this shape:",
    "\x7b",
    "  \"interpretation\": \"how the question was understood\",",
    "  \"primary_collection\": \"collection_name\",",
    "  \"requires_analysis\": false,",
    "  \"pipeline\": [\x7b\"$match\": \x7b\x7d\x7d, \x7b\"$group\": \x7b\x7d\x7d, " ++
      "\x7b\"$sort\": \x7b\x7d\x7d],",
    "  \"explanation\": \"what the pipeline does\",",
    "  \"visualization_recommended_by_ai\": true,",
    "  \"visualization\": \x7b",
    "    \"type\": \"bar | line | pie | scatter\",",
    "    \"title\": \"Descriptive chart title\",",
    "    \"option\": \x7b",
    "      \"xAxis\": \x7b\"type\": \"category\"\x7d,",
    "      \"yAxis\": \x7b\"type\": \"value\"\x7d,",
    "      \"dataset\": \x7b\"dimensions\": [\"category_field\", \"value_field\"]\x7d,",
    "      \"series\": [\x7b\"type\": \"bar\", \"encode\": \x7b\"x\": \"category_field\", " ++
      "\"y\": \"value_field\"\x7d\x7d]",
    "    \x7d",
    "  \x7d",
    "\x7d"]

/-- The prompt for a question. -/
def planning (query : String) (schemas : Schemas) : String :=
  "\n".intercalate
    (["You are a MongoDB aggregation expert. Convert the natural-language question below " ++
      "into ONE aggregation pipeline, joining collections with $lookup only when needed.",
      "",
      "Question: \"" ++ query ++ "\"",
      "",
      "Available collections and their sampled field types:",
      schemasText schemas,
      ""] ++
      rules (", ".intercalate (schemas.map (·.1))) ++ [""] ++ answerShape)

end Inquiry.Prompt
