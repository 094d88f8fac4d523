import Inquiry.Proofs.Plan.Shaped
import Inquiry.Proofs.Value.Documents
import Inquiry.Proofs.Value.Sorted

/-!
# Which JSON objects are plans

A JSON object is a plan just if its pipeline is a list of objects and its collection is one of those
that were offered; every other one is refused as ill-shaped. The chart part is read without fault,
whatever it is, and nothing but the hint depends on it.
-/
namespace Inquiry

open Expression (ok_of_map_ok)
open Value (IsJson TextKeys keyTexts lookup setEntry dropEntry)

variable {es : List (Value × Value)}

namespace Advice

theorem readSeries_ok (h : TextKeys es) : ∃ t, (readSeries es).result = .ok t := by
  rw [readSeries, if_pos h.all_isSome]
  cases SeriesTemplate.ofEntries (normalizeSeries es) with
  | ok t => exact ⟨some t, rfl⟩
  | error vs => exact ⟨none, rfl⟩

theorem readAllSeries_ok {objects : List (List (Value × Value))} (h : ∀ es ∈ objects, TextKeys es) :
    ∃ ts, (readAllSeries objects).result = .ok ts := by
  induction objects with
  | nil => exact ⟨[], rfl⟩
  | cons es rest ih =>
    obtain ⟨hes, hrest⟩ := List.forall_mem_cons.mp h
    obtain ⟨t, ht⟩ := readSeries_ok hes
    obtain ⟨ts, hts⟩ := ih hrest
    exact ⟨t.toList ++ ts, Traced.bind_result_ok_iff.mpr ⟨t, ht,
      Traced.bind_result_ok_iff.mpr ⟨ts, hts, rfl⟩⟩⟩

theorem isJson_seriesObjects {option : Value} (h : option.IsJson) :
    ∀ es ∈ seriesObjects option, (Value.dict es).IsJson := by
  have hseries := h.getD "series"
  unfold seriesObjects
  intro es hes
  split at hes
  · rename_i fields heq
    rw [heq] at hseries
    split at hes
    · cases hes
    · rwa [List.mem_singleton.mp hes]
  · rename_i vs heq
    rw [heq] at hseries
    obtain ⟨v, hv, hsome⟩ := List.mem_filterMap.mp hes
    match v, hsome with
    | .dict fields, hsome =>
      obtain rfl := Option.some.inj hsome
      exact hseries.items _ hv
  · cases hes

/-- The chart option of a chart part; what is no object counts as an empty one. -/
def optionOf (advice : Value) : Value :=
  match advice.getD "option" with
  | .dict es => .dict es
  | _ => .dict []

theorem isJson_optionOf {advice : Value} (h : advice.IsJson) : (optionOf advice).IsJson := by
  have hoption := h.getD "option"
  unfold optionOf
  generalize advice.getD "option" = option at hoption
  cases option with
  | dict es => exact hoption
  | _ => exact .dict (List.forall_mem_nil _) (List.forall_mem_nil _)

theorem hintFrom_ok (advice : Value) {option : Value} (h : option.IsJson) :
    ∃ hint, (readAllSeries (seriesObjects option) >>= fun series =>
      Traced.done (some (hintFrom advice option series))).result = .ok hint := by
  obtain ⟨ts, hts⟩ := readAllSeries_ok fun es hes =>
    (isJson_seriesObjects h es hes).keys
  exact ⟨_, Traced.bind_result_ok_iff.mpr ⟨ts, hts, rfl⟩⟩

/-- Whatever JSON value the chart part is, it is read. -/
theorem read_ok {advice : Value} (h : advice.IsJson) : ∃ hint, (read advice).result = .ok hint := by
  unfold read
  split
  · exact hintFrom_ok _ (isJson_optionOf h)
  · exact ⟨none, rfl⟩

end Advice

namespace Plan

variable {schemas : Schemas} {stages : List Value} {name : String}

theorem stageDocuments_eq (hobjects : ∀ stage ∈ stages, stage.isDict = true)
    (hjson : ∀ stage ∈ stages, stage.IsJson) : stageDocuments stages = .ok stages := by
  have hdocument : ∀ stage ∈ stages, Shape.document stage = .ok stage := by
    intro stage hstage
    match stage, hobjects stage hstage, hjson stage hstage with
    | .dict es, _, hes => exact Shape.document_of_textKeys hes.keys
  rw [stageDocuments, Shape.list, Shape.itemsFrom_eq hdocument]
  rfl

theorem badStages_eq_nil_iff : badStages stages = [] ↔ ∀ stage ∈ stages, stage.isDict = true := by
  unfold badStages
  rw [List.map_eq_nil_iff, List.filter_eq_nil_iff]
  constructor
  · intro h stage hstage
    obtain ⟨i, hi⟩ := List.mem_iff_getElem?.mp hstage
    have hbad := h (stage, i) (List.mem_zipIdx_iff_getElem?.mpr hi)
    simpa using hbad
  · intro h s hs
    have hstage := h s.1 (List.fst_mem_of_mem_zipIdx hs)
    simp [hstage]

theorem isSome_lookup_iff : (schemas.lookup name).isSome = true ↔ name ∈ schemas.map (·.1) := by
  rw [List.lookup_isSome_iff, List.mem_map]
  constructor
  · rintro ⟨s, hs, heq⟩
    exact ⟨s, hs, (eq_of_beq heq).symm⟩
  · rintro ⟨s, hs, heq⟩
    exact ⟨s, hs, beq_iff_eq.mpr heq.symm⟩

theorem sortedKeys_eq (h : TextKeys es) :
    sortedKeys (keysOf (.dict es)) = .ok (((keyTexts es).mergeSort (· ≤ ·)).map .str) := by
  rw [sortedKeys, keysOf, Value.map_keyTexts h, Value.sorted_map_str]

/-- The pipeline of a JSON object is a list of objects. -/
def HasStages (es : List (Value × Value)) (stages : List Value) : Prop :=
  lookup "pipeline" es = some (.list stages) ∧ ∀ stage ∈ stages, stage.isDict = true

/-- The collection of a JSON object, under the first of its two keys, is a text that is not empty,
and one of the schemas. -/
def HasPrimary (es : List (Value × Value)) (schemas : Schemas) (name : String) : Prop :=
  (lookup "primary_collection" es).or (lookup "primaryCollection" es) = some (.str name) ∧
    name ≠ "" ∧ name ∈ schemas.map (·.1)

theorem getD_eq_list_iff {key : String} :
    (Value.dict es).getD key = .list stages ↔ lookup key es = some (.list stages) := by
  change (lookup key es).getD .null = _ ↔ _
  cases lookup key es with
  | none => simp
  | some v => simp

theorem either_eq_str_iff {key other : String} : either (.dict es) key other = .str name ↔
    (lookup key es).or (lookup other es) = some (.str name) := by
  have hget : ∀ key, (Value.dict es).get? key = lookup key es := fun _ => rfl
  rw [either, Value.getD, hget, hget]
  cases lookup key es with
  | none => cases lookup other es <;> simp
  | some v => simp

theorem stagesOf_cases (h : TextKeys es) :
    (∃ stages, stagesOf (.dict es) = .ok stages ∧ HasStages es stages) ∨
      (∃ fault, stagesOf (.dict es) = .error (.plan fault)) ∧ ∀ stages, ¬ HasStages es stages := by
  unfold stagesOf
  rw [if_neg (by simp [Value.isDict])]
  split
  · rename_i stages hpipeline
    split
    · rename_i hbad
      exact Or.inl ⟨stages, rfl, getD_eq_list_iff.mp hpipeline, badStages_eq_nil_iff.mp hbad⟩
    · rename_i hbad
      refine Or.inr ⟨⟨_, rfl⟩, fun stages' hstages' => hbad ?_⟩
      have heq : stages' = stages := by
        have hlist := (getD_eq_list_iff.mpr hstages'.1).symm.trans hpipeline
        exact Value.list.inj hlist
      rw [← heq]
      exact badStages_eq_nil_iff.mpr hstages'.2
  · rename_i hno
    rw [sortedKeys_eq h]
    exact Or.inr ⟨⟨_, rfl⟩, fun stages hstages => hno stages (getD_eq_list_iff.mpr hstages.1)⟩

theorem primaryOf_cases (h : TextKeys es) (schemas : Schemas) :
    (∃ name, primaryOf (.dict es) schemas = .ok name ∧ HasPrimary es schemas name) ∨
      (∃ fault, primaryOf (.dict es) schemas = .error (.plan fault)) ∧
        ∀ name, ¬ HasPrimary es schemas name := by
  unfold primaryOf
  split
  · rename_i name hname
    have hsame : ∀ name', HasPrimary es schemas name' → name' = name := by
      intro name' hname'
      exact Value.str.inj ((either_eq_str_iff.mpr hname'.1).symm.trans hname)
    split
    · rename_i hempty
      rw [sortedKeys_eq h]
      refine Or.inr ⟨⟨_, rfl⟩, fun name' hname' => hname'.2.1 ?_⟩
      rw [hsame name' hname']
      simpa using hempty
    · rename_i hnonempty
      split
      · rename_i hlookup
        have hne : name ≠ "" := by simpa using hnonempty
        exact Or.inl ⟨name, rfl, either_eq_str_iff.mp hname, hne, isSome_lookup_iff.mp hlookup⟩
      · rename_i hlookup
        refine Or.inr ⟨⟨_, rfl⟩, fun name' hname' => hlookup ?_⟩
        rw [← hsame name' hname']
        exact isSome_lookup_iff.mpr hname'.2.2
  · rename_i hno
    rw [sortedKeys_eq h]
    exact Or.inr ⟨⟨_, rfl⟩, fun name hname => hno name (either_eq_str_iff.mpr hname.1)⟩

/-- The plan with the stages, the collection and the hint that were read from an object. -/
def assembled (es : List (Value × Value)) (stages : List Value) (primary : String)
    (hint : Option Hint) : Plan where
  interpretation :=
    givenOr ((Value.dict es).getD "interpretation") "Query processed successfully"
  primary := primary
  requiresAnalysis := ((Value.dict es).getD "requires_analysis").isGiven
  pipeline := stages
  recommended :=
    (either (.dict es) "visualization_recommended_by_ai" "visualization_recommended").isGiven
  hint := hint
  explanation := givenOr ((Value.dict es).getD "explanation") ""

def withoutHint (p : Plan) : Plan := { p with hint := none }

theorem ofValue_result (h : (Value.dict es).IsJson) (schemas : Schemas) :
    ∃ hint, (ofValue (.dict es) schemas).result =
      (stagesOf (.dict es)).bind fun stages =>
        (primaryOf (.dict es) schemas).map fun primary => assembled es stages primary hint := by
  obtain ⟨hint, hread⟩ := Advice.read_ok (h.getD "visualization")
  refine ⟨hint, ?_⟩
  unfold ofValue
  rcases stagesOf_cases h.keys with ⟨stages, hstages, hlisted, hobjects⟩ | ⟨⟨fault, hstages⟩, -⟩
  · have hjson : ∀ stage ∈ stages, stage.IsJson := by
      have hpipeline := h.getD "pipeline"
      rw [getD_eq_list_iff.mpr hlisted] at hpipeline
      exact hpipeline.items
    rw [hstages, Traced.ofResult_ok_bind]
    cases hprimary : primaryOf (.dict es) schemas with
    | error f => rfl
    | ok primary =>
      rw [Traced.ofResult_ok_bind, Traced.bind_of_ok hread, stageDocuments_eq hobjects hjson]
      rfl
  · rw [hstages]
    rfl

theorem ofValue_result_withoutHint (h : (Value.dict es).IsJson) (schemas : Schemas) :
    (ofValue (.dict es) schemas).result.map withoutHint =
      (stagesOf (.dict es)).bind fun stages =>
        (primaryOf (.dict es) schemas).map fun primary => assembled es stages primary none := by
  obtain ⟨hint, hresult⟩ := ofValue_result h schemas
  rw [hresult]
  cases stagesOf (.dict es) with
  | error f => rfl
  | ok stages => cases primaryOf (.dict es) schemas <;> rfl

/-- Two objects differ in nothing but what stands under a key. -/
def AgreeExcept (key : String) (es ds : List (Value × Value)) : Prop :=
  ∀ k, k ≠ key → lookup k ds = lookup k es

section Agree

variable {ds : List (Value × Value)} {key : String}

theorem AgreeExcept.getD (h : AgreeExcept key es ds) {k : String} (hk : k ≠ key) :
    (Value.dict ds).getD k = (Value.dict es).getD k := congrArg (Option.getD · Value.null) (h k hk)

theorem AgreeExcept.either (h : AgreeExcept key es ds) {k l : String} (hk : k ≠ key)
    (hl : l ≠ key) : either (.dict ds) k l = either (.dict es) k l := by
  have hget : (Value.dict ds).get? k = (Value.dict es).get? k := h k hk
  rw [Plan.either, Plan.either, hget, h.getD hl]

/-- A fault with the keys that it lists changed. -/
def changeKeys (g : List Value → List Value) : Fault → Fault
  | .plan (.noPipeline keys) => .plan (.noPipeline (g keys))
  | .plan (.noPrimary keys) => .plan (.noPrimary (g keys))
  | f => f

variable {g : List Value → List Value}
  (hagree : AgreeExcept "visualization" es ds)
  (hkeys : sortedKeys (keysOf (.dict ds)) = (sortedKeys (keysOf (.dict es))).map g)
include hagree hkeys

theorem stagesOf_agree (h : TextKeys es) :
    stagesOf (.dict ds) = (stagesOf (.dict es)).mapError (changeKeys g) := by
  unfold stagesOf
  rw [if_neg (by simp [Value.isDict]), if_neg (by simp [Value.isDict]), hkeys, sortedKeys_eq h,
    hagree.getD (by decide)]
  split
  · split <;> rfl
  · rfl

theorem primaryOf_agree (h : TextKeys es) (schemas : Schemas) :
    primaryOf (.dict ds) schemas = (primaryOf (.dict es) schemas).mapError (changeKeys g) := by
  unfold primaryOf
  rw [hkeys, sortedKeys_eq h, hagree.either (by decide) (by decide)]
  split
  · split
    · rfl
    · split <;> rfl
  · rfl

theorem ofValue_agree (hes : (Value.dict es).IsJson) (hds : (Value.dict ds).IsJson)
    (schemas : Schemas) :
    (ofValue (.dict ds) schemas).result.map withoutHint =
      ((ofValue (.dict es) schemas).result.map withoutHint).mapError (changeKeys g) := by
  have hassembled (stages : List Value) (primary : String) :
      assembled ds stages primary none = assembled es stages primary none := by
    unfold assembled
    rw [hagree.getD (by decide), hagree.getD (by decide), hagree.either (by decide) (by decide),
      hagree.getD (by decide)]
  rw [ofValue_result_withoutHint hes, ofValue_result_withoutHint hds,
    stagesOf_agree hagree hkeys hes.keys, primaryOf_agree hagree hkeys hes.keys]
  cases stagesOf (.dict es) with
  | error f => rfl
  | ok stages =>
    cases primaryOf (.dict es) schemas with
    | error f => rfl
    | ok primary => exact congrArg Except.ok (hassembled stages primary)

end Agree

theorem agreeExcept_setEntry (key : String) (v : Value) (es : List (Value × Value)) :
    AgreeExcept key es (setEntry key v es) := fun _ hk => Value.lookup_setEntry hk v es

theorem agreeExcept_dropEntry (key : String) (es : List (Value × Value)) :
    AgreeExcept key es (dropEntry key es) := fun _ hk => Value.lookup_dropEntry hk es

theorem mapError_changeKeys_id {α : Type} (x : Except Fault α) :
    x.mapError (changeKeys id) = x := by
  cases x with
  | ok a => rfl
  | error f =>
    refine congrArg Except.error ?_
    unfold changeKeys
    split <;> rfl

/-- Keys without one of them. -/
def withoutKey (key : String) (keys : List Value) : List Value :=
  keys.filter fun k => k.str? ≠ some key

theorem sortedKeys_setEntry (key : String) (v : Value) (es : List (Value × Value)) :
    sortedKeys (keysOf (.dict (setEntry key v es))) = (sortedKeys (keysOf (.dict es))).map id := by
  have hkeys : keysOf (.dict (setEntry key v es)) = keysOf (.dict es) :=
    Value.keys_setEntry key v es
  rw [hkeys]
  cases sortedKeys (keysOf (.dict es)) <;> rfl

theorem sortedKeys_dropEntry (h : TextKeys es) (key : String) :
    sortedKeys (keysOf (.dict (dropEntry key es))) =
      (sortedKeys (keysOf (.dict es))).map (withoutKey key) := by
  have hdropped : TextKeys (dropEntry key es) := fun e he => h e (List.mem_filter.mp he).1
  rw [sortedKeys_eq hdropped, sortedKeys_eq h, Value.keyTexts_dropEntry, Value.mergeSort_filter]
  refine congrArg Except.ok ?_
  rw [withoutKey, List.filter_map]
  refine congrArg (List.map Value.str) (List.filter_congr fun s _ => ?_)
  simp [Value.str?]

/-- A JSON object is a plan over some schemas just if its pipeline is a list of objects and its
collection is one of the schemas, and then the plan has that pipeline and that collection. Every
other object is refused as an ill-shaped plan. The chart part is always read, and nothing but the
hint depends on what it is; where it is left out, only the keys that a refusal lists tell so. -/
theorem ofValue_shape (es : List (Value × Value)) (hes : (Value.dict es).IsJson)
    (schemas : Schemas) :
    (∀ p, (ofValue (.dict es) schemas).result = .ok p →
      HasStages es p.pipeline ∧ HasPrimary es schemas p.primary) ∧
    ((∃ p, (ofValue (.dict es) schemas).result = .ok p) ↔
      (∃ stages, HasStages es stages) ∧ ∃ name, HasPrimary es schemas name) ∧
    (∀ f, (ofValue (.dict es) schemas).result = .error f → ∃ fault, f = .plan fault) ∧
    (∀ v : Value, v.IsJson → (ofValue (.dict (setEntry "visualization" v es)) schemas).result.map
      withoutHint = (ofValue (.dict es) schemas).result.map withoutHint) ∧
    (ofValue (.dict (dropEntry "visualization" es)) schemas).result.map withoutHint =
      ((ofValue (.dict es) schemas).result.map withoutHint).mapError
        (changeKeys (withoutKey "visualization")) ∧
    ∀ v : Value, v.IsJson → ∃ hint, (Advice.read v).result = .ok hint := by
  obtain ⟨hint, hresult⟩ := ofValue_result hes schemas
  have hcases : (∃ stages name, (ofValue (.dict es) schemas).result =
        .ok (assembled es stages name hint) ∧ HasStages es stages ∧ HasPrimary es schemas name) ∨
      (∃ fault, (ofValue (.dict es) schemas).result = .error (.plan fault)) ∧
        ¬ ((∃ stages, HasStages es stages) ∧ ∃ name, HasPrimary es schemas name) := by
    rw [hresult]
    rcases stagesOf_cases hes.keys with ⟨stages, hstages, hlisted⟩ | ⟨⟨fault, hstages⟩, hnone⟩
    · rw [hstages]
      rcases primaryOf_cases hes.keys schemas with
        ⟨name, hprimary, hnamed⟩ | ⟨⟨fault, hprimary⟩, hnone⟩
      · rw [hprimary]
        exact Or.inl ⟨stages, name, rfl, hlisted, hnamed⟩
      · rw [hprimary]
        exact Or.inr ⟨⟨fault, rfl⟩, fun ⟨_, name, hnamed⟩ => hnone name hnamed⟩
    · rw [hstages]
      exact Or.inr ⟨⟨fault, rfl⟩, fun ⟨⟨stages, hlisted⟩, _⟩ => hnone stages hlisted⟩
  refine ⟨fun p hp => ?_, ?_, fun f hf => ?_, fun v hv => ?_, ?_, fun v => Advice.read_ok⟩
  · rcases hcases with ⟨stages, name, hok, hlisted, hnamed⟩ | ⟨⟨fault, herror⟩, -⟩
    · obtain rfl := Except.ok.inj (hok.symm.trans hp)
      exact ⟨hlisted, hnamed⟩
    · rw [herror] at hp
      cases hp
  · rcases hcases with ⟨stages, name, hok, hlisted, hnamed⟩ | ⟨⟨fault, herror⟩, hnone⟩
    · exact iff_of_true ⟨_, hok⟩ ⟨⟨stages, hlisted⟩, name, hnamed⟩
    · refine iff_of_false ?_ hnone
      rintro ⟨p, hp⟩
      rw [herror] at hp
      cases hp
  · rcases hcases with ⟨stages, name, hok, -⟩ | ⟨⟨fault, herror⟩, -⟩
    · rw [hok] at hf
      cases hf
    · exact ⟨fault, Except.error.inj (hf.symm.trans herror)⟩
  · rw [ofValue_agree (agreeExcept_setEntry _ v es) (sortedKeys_setEntry _ v es) hes
      (hes.setEntry hv _), mapError_changeKeys_id]
  · exact ofValue_agree (agreeExcept_dropEntry _ es) (sortedKeys_dropEntry hes.keys _) hes
      (hes.dropEntry _) schemas

private def chartPart : Value × Value := (.str "visualization", .doc [("type", .str "line")])

/-- The object of a plan, before it has a pipeline. -/
private def unplanned : List (Value × Value) :=
  [(.str "primary_collection", .str "orders"), chartPart]

private def limitOne : Value := .doc [("$limit", .int 1)]

private def planned : List (Value × Value) := (.str "pipeline", .list [limitOne]) :: unplanned

private def ordersOnly : Schemas := [("orders", ⟨"orders", []⟩)]

private theorem isJson_unplanned : (Value.dict unplanned).IsJson := by
  have hchart : (Value.doc [("type", .str "line")]).IsJson :=
    .dict (by simp [TextKeys]) (by simp [IsJson.str])
  exact .dict (by simp [unplanned, chartPart, TextKeys])
    (by simp [unplanned, chartPart, hchart, IsJson.str])

private theorem isJson_planned : (Value.dict planned).IsJson := by
  have hlimit : limitOne.IsJson := .dict (by simp [TextKeys]) (by simp [IsJson.int])
  have hpipeline : (Value.list [limitOne]).IsJson := .list (by simpa using hlimit)
  refine .dict (List.forall_mem_cons.mpr ⟨⟨_, rfl⟩, isJson_unplanned.keys⟩) ?_
  exact List.forall_mem_cons.mpr ⟨hpipeline, isJson_unplanned.members⟩

theorem ofValue_shape_planned :
    ∃ p, (ofValue (.dict planned) ordersOnly).result = .ok p ∧ p.pipeline = [limitOne] ∧
      p.primary = "orders" ∧
      (ofValue (.dict (setEntry "visualization" .null planned)) ordersOnly).result.map withoutHint =
        .ok (withoutHint p) := by
  obtain ⟨hfields, haccepts, -, hset, -⟩ := ofValue_shape planned isJson_planned ordersOnly
  have hstages : HasStages planned [limitOne] :=
    ⟨rfl, List.forall_mem_singleton.mpr rfl⟩
  have hprimary : HasPrimary planned ordersOnly "orders" :=
    ⟨rfl, by decide, by decide⟩
  obtain ⟨p, hp⟩ := haccepts.mpr ⟨⟨_, hstages⟩, _, hprimary⟩
  obtain ⟨hlisted, hnamed⟩ := hfields p hp
  refine ⟨p, hp, ?_, ?_, ?_⟩
  · exact Value.list.inj (Option.some.inj (hlisted.1.symm.trans hstages.1))
  · exact Value.str.inj (Option.some.inj (hnamed.1.symm.trans hprimary.1))
  · rw [hset .null .null, hp]
    rfl

/-- Leaving the chart part out of an object that is no plan changes the keys that its refusal
lists. -/
theorem refusal_lists_chart_key :
    (Value.dict unplanned).IsJson ∧
      (ofValue (.dict unplanned) ordersOnly).result =
        .error (.plan (.noPipeline [.str "primary_collection", .str "visualization"])) ∧
      (ofValue (.dict (dropEntry "visualization" unplanned)) ordersOnly).result =
        .error (.plan (.noPipeline [.str "primary_collection"])) ∧
      (ofValue (.dict (dropEntry "visualization" unplanned)) ordersOnly).result ≠
        (ofValue (.dict unplanned) ordersOnly).result := by
  have hwith : (ofValue (.dict unplanned) ordersOnly).result =
      .error (.plan (.noPipeline [.str "primary_collection", .str "visualization"])) := rfl
  have hwithout : (ofValue (.dict (dropEntry "visualization" unplanned)) ordersOnly).result =
      .error (.plan (.noPipeline [.str "primary_collection"])) := rfl
  refine ⟨isJson_unplanned, hwith, hwithout, ?_⟩
  rw [hwith, hwithout]
  simp

end Plan

end Inquiry
