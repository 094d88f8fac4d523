import Inquiry.Proofs.Json.RoundTrip
import Inquiry.Proofs.Plan.Keywords

/-!
# The chart of a plan by keywords

Its two dimensions are named apart from one another, after a field and after what is added up, and
the names are keys of the same objects. As long as they differ, and neither is the key of the groups,
the pipeline returns exactly the two fields that the chart shows.
-/
namespace Inquiry.Keywords

/-- The documents that a pipeline returns have the two fields that a hint asks for: the first one is
what the groups are made by, the second one is added up in each group, and one of them gives the
order. -/
structure Supplies (p : Plan) (h : Hint) (category value : String) : Prop where
  dimensions : h.dimensions = [category, value]
  distinct : category ≠ value
  stages : ∃ source summand key direction limit,
    p.pipeline =
      [.doc [("$group", .doc [("_id", source), (value, .doc [("$sum", summand)])])],
        .doc [("$project", .doc [("_id", .int 0), (category, .str "$_id"), (value, .int 1)])],
        .doc [("$sort", .doc [(key, direction)])], .doc [("$limit", limit)]] ∧
      key ∈ [category, value]

/-- The names that a value can have. -/
def valueNames (s : Schema) : List String := "count" :: (s.fieldsOf .number).map (compound "total")

theorem foldl_insertEntry {done entries : List (String × Value)}
    (h : ((done ++ entries).map Prod.fst).Nodup) :
    (Json.entries entries).foldl (fun es p => Value.insertEntry p.1 p.2 es) (Json.entries done) =
      Json.entries (done ++ entries) := by
  induction entries generalizing done with
  | nil => rw [List.append_nil]; rfl
  | cons e entries ih =>
    obtain ⟨key, v⟩ := e
    have hnew : key ∉ done.map Prod.fst := by
      rw [List.map_append, List.map_cons, List.nodup_middle] at h
      exact fun hmem => (List.nodup_cons.mp h).1 (List.mem_append_left _ hmem)
    have hnext : done ++ (key, v) :: entries = done ++ [(key, v)] ++ entries := List.append_cons ..
    have hinsert := Json.insertEntry_entries hnew v
    rw [hnext] at h ⊢
    rw [← ih h, ← hinsert]
    rfl

theorem fields_eq_doc {entries : List (String × Value)} (h : (entries.map Prod.fst).Nodup) :
    fields entries = .doc entries :=
  congrArg Value.dict (@foldl_insertEntry [] entries h)

/-- A field with the name of the groups' key takes its place. -/
theorem fields_of_group_key (value : String) (fs : List (String × Value)) :
    fields [("_id", .int 0), ("_id", .str "$_id"), (value, .int 1)] ≠ .doc (("_id", .int 0) :: fs) := by
  have hfields : fields [("_id", .int 0), ("_id", .str "$_id"), (value, .int 1)] =
      .dict (Value.insertEntry (.str value) (.int 1) [(.str "_id", .str "$_id")]) := rfl
  rw [hfields, Value.insertEntry]
  intro h
  split at h <;> cases (Prod.mk.inj (List.cons.inj (Value.dict.inj h)).1).2

theorem pickMeasure_sum (question : String) (s : Schema) :
    ∃ summand, (pickMeasure question s).accumulator = .doc [("$sum", summand)] := by
  rcases pickMeasure_cases question s with ⟨f, -, hm⟩ | hm
  · exact ⟨_, congrArg Measure.accumulator hm⟩
  · exact ⟨_, congrArg Measure.accumulator hm⟩

theorem pickMeasure_name_mem (question : String) (s : Schema) :
    (pickMeasure question s).name ∈ valueNames s := by
  rcases pickMeasure_cases question s with ⟨f, hf, hm⟩ | hm
  · rw [hm]
    exact List.mem_cons_of_mem _ (List.mem_map_of_mem hf)
  · rw [hm]
    exact List.mem_cons_self

/-- Months have a name that no value has. -/
theorem month_not_mem_valueNames (s : Schema) : "month" ∉ valueNames s := by
  rw [valueNames, List.mem_cons, not_or]
  refine ⟨by decide, fun hmem => ?_⟩
  obtain ⟨f, -, hf⟩ := List.mem_map.mp hmem
  have hletters := congrArg String.toList hf
  rw [compound, String.toList_append] at hletters
  exact absurd (List.cons.inj hletters).1 (by decide)

/-- A category is called apart from the groups' key and from every value, if all text fields are. -/
theorem pickCategory_name_apart {question : String} {s : Schema} {c : Category}
    (hc : pickCategory question s = some c)
    (h : ∀ f ∈ s.fieldsOf .string, f ≠ "_id" ∧ f ∉ valueNames s) :
    c.name ≠ "_id" ∧ c.name ∉ valueNames s := by
  rcases pickCategory_cases hc with ⟨date, -, rfl⟩ | ⟨f, hf, rfl⟩
  · have hmonth : "month" ≠ "_id" := by decide
    exact ⟨hmonth, month_not_mem_valueNames s⟩
  · exact h f hf

variable {question primary : String} {s : Schema} {c : Category}

theorem supplies_of_apart (hdistinct : c.name ≠ (pickMeasure question s).name)
    (hgroup : c.name ≠ "_id") : Supplies (planFor primary (some c) (pickMeasure question s))
      (hintFor c (pickMeasure question s)) c.name (pickMeasure question s).name := by
  obtain ⟨-, hid⟩ := pickMeasure_name question s
  obtain ⟨summand, hsum⟩ := pickMeasure_sum question s
  have hgroups : fields [("_id", c.source), ((pickMeasure question s).name,
      (pickMeasure question s).accumulator)] = _ := fields_eq_doc (by simp [hid])
  have hproject : fields [("_id", .int 0), (c.name, .str "$_id"),
      ((pickMeasure question s).name, .int 1)] = _ :=
    fields_eq_doc (by simp [hid, hdistinct, Ne.symm hgroup])
  refine ⟨rfl, hdistinct, ?_⟩
  rw [hsum] at hgroups
  cases hmonth : c.byMonth with
  | true =>
    refine ⟨c.source, summand, c.name, .int 1, .int groupLimit, ?_, List.mem_cons_self⟩
    simp only [planFor, groupedPipeline, groupStage, hsum, hgroups, hproject, hmonth, if_true]
  | false =>
    refine ⟨c.source, summand, (pickMeasure question s).name, .int (-1), .int groupLimit, ?_, by simp⟩
    simp only [planFor, groupedPipeline, groupStage, hsum, hgroups, hproject, hmonth,
      Bool.false_eq_true, if_false]

theorem Supplies.apart {m : Measure} {category value : String}
    (h : Supplies (planFor primary (some c) m) (hintFor c m) category value) :
    c.name ≠ m.name ∧ c.name ≠ "_id" := by
  obtain ⟨hdimensions, hdistinct, source, summand, key, direction, limit, hstages, -⟩ := h
  obtain ⟨rfl, hvalue⟩ := List.cons.inj hdimensions
  obtain ⟨rfl, -⟩ := List.cons.inj hvalue
  refine ⟨hdistinct, fun hgroup => ?_⟩
  obtain ⟨hproject, -⟩ := List.cons.inj (List.cons.inj hstages).2
  have hspec := (Prod.mk.inj (List.cons.inj (Value.dict.inj hproject)).1).2
  rw [hgroup] at hspec
  exact fields_of_group_key _ _ hspec

/-- A chart names its category and its value, and the pipeline supplies the two exactly when they have
two names and the category is not called like the key of the groups. They have, if no text field of
the collection is called like that key or like a value. -/
theorem chart_supplied_unless_names_clash (query : String) (first : String × Schema) (rest : Schemas)
    {h : Hint} (hint : (plan query first rest).hint = some h) :
    ∃ schema category value,
      (first :: rest).lookup (plan query first rest).primary = some schema ∧
        h.dimensions = [category, value] ∧
        (Supplies (plan query first rest) h category value ↔
          category ≠ value ∧ category ≠ "_id") ∧
        ((∀ f ∈ schema.fieldsOf .string, f ≠ "_id" ∧ f ∉ valueNames schema) →
          category ≠ value ∧ category ≠ "_id") := by
  unfold plan at hint ⊢
  generalize Text.trim (Text.lower query) = question at hint ⊢
  have hlookup := lookup_pickCollection question first rest
  dsimp only at hint ⊢
  generalize pickCollection question first rest = picked at hint hlookup ⊢
  obtain ⟨primary, schema⟩ := picked
  obtain ⟨c, hc, rfl⟩ := Option.map_eq_some_iff.mp hint
  refine ⟨schema, c.name, (pickMeasure question schema).name, hlookup, rfl, ?_, fun happart => ?_⟩
  · rw [hc]
    exact ⟨Supplies.apart, fun hne => supplies_of_apart hne.1 hne.2⟩
  · obtain ⟨hgroup, hvalue⟩ := pickCategory_name_apart hc happart
    exact ⟨fun heq => hvalue (heq ▸ pickMeasure_name_mem question schema), hgroup⟩

def sales : Schema := ⟨"sales", [("region", "string"), ("totalAmount", "number")]⟩

def salesHint : Hint :=
  hintFor ⟨"region", .str "$region", false⟩
    ⟨"totalTotalAmount", .doc [("$sum", .str "$totalAmount")]⟩

theorem hint_sales :
    (plan "Total amount by region" ("sales", sales) []).hint = some salesHint := rfl

theorem chart_supplied_unless_names_clash_sales :
    (plan "Total amount by region" ("sales", sales) []).hint = some salesHint ∧
      ∃ schema category value,
        [("sales", sales)].lookup (plan "Total amount by region" ("sales", sales) []).primary =
            some schema ∧
          salesHint.dimensions = [category, value] ∧
          (Supplies (plan "Total amount by region" ("sales", sales) []) salesHint category value ↔
            category ≠ value ∧ category ≠ "_id") ∧
          ((∀ f ∈ schema.fieldsOf .string, f ≠ "_id" ∧ f ∉ valueNames schema) →
            category ≠ value ∧ category ≠ "_id") :=
  ⟨hint_sales, chart_supplied_unless_names_clash _ _ _ hint_sales⟩

/-- Totals that are kept as texts, beside the amounts that they add up. -/
def invoices : Schema := ⟨"invoices", [("totalAmount", "string"), ("amount", "number")]⟩

/-- The value takes the place of the category, and no grouping field is left in the result. -/
theorem chart_of_clashing_names :
    ∃ h, (plan "List the invoices" ("invoices", invoices) []).hint = some h ∧
      h.dimensions = ["totalAmount", "totalAmount"] ∧
      (plan "List the invoices" ("invoices", invoices) []).pipeline[1]? =
        some (.doc [("$project", .doc [("_id", .int 0), ("totalAmount", .int 1)])]) ∧
      ∀ category value,
        ¬ Supplies (plan "List the invoices" ("invoices", invoices) []) h category value := by
  refine ⟨_, rfl, rfl, rfl, fun category value h => ?_⟩
  obtain ⟨hdimensions, hdistinct, -⟩ := h
  obtain ⟨hcategory, hvalue⟩ := List.cons.inj hdimensions
  exact hdistinct (hcategory.symm.trans (List.cons.inj hvalue).1)

end Inquiry.Keywords
