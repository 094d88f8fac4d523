import Inquiry.Proofs.Expression.Canonical
import Inquiry.Proofs.Json.Keys
import Inquiry.Proofs.Service.Runs

/-!
# What every plan is

However a plan was made, its collection is one of the schemas that it was made over, and JSON has a
form for its pipeline: a plan by keywords is written with texts for keys, and a model's plan was read
from JSON.
-/
namespace Inquiry

open Expression (ok_of_map_ok)
open Json (badKey? badKey?_list_iff badKey?_dict_iff)
open Traced

namespace Shape

variable {α β : Type}

theorem within_ok {step : Value} {x : Checked α} {a : α} (h : within step x = .ok a) :
    x = .ok a := by
  cases x with
  | error vs => cases h
  | ok b => exact h

theorem both_ok {x : Checked α} {y : Checked β} {c : α × β} (h : both x y = .ok c) :
    x = .ok c.1 ∧ y = .ok c.2 := by
  cases x with
  | error vs => cases y <;> cases h
  | ok a =>
    cases y with
    | error vs => cases h
    | ok b =>
      cases h
      exact ⟨rfl, rfl⟩

theorem itemsFrom_ok {read : Value → Checked α} {i : Nat} {vs : List Value} {as : List α}
    (h : itemsFrom read i vs = .ok as) : ∀ a ∈ as, ∃ v ∈ vs, read v = .ok a := by
  induction vs generalizing i as with
  | nil =>
    cases h
    simp
  | cons v vs ih =>
    obtain ⟨c, hboth, rfl⟩ := ok_of_map_ok h
    obtain ⟨hv, hvs⟩ := both_ok hboth
    refine List.forall_mem_cons.mpr ⟨⟨v, List.mem_cons_self, within_ok hv⟩, fun a ha => ?_⟩
    obtain ⟨w, hw, hread⟩ := ih hvs a ha
    exact ⟨w, List.mem_cons_of_mem v hw, hread⟩

theorem textEntries_ok {es : List (Value × Value)} {fields : List (String × Value)}
    (h : textEntries es = .ok fields) : ∀ f ∈ fields, ∃ e ∈ es, e.2 = f.2 := by
  induction es generalizing fields with
  | nil =>
    cases h
    simp
  | cons e es ih =>
    obtain ⟨c, hboth, rfl⟩ := ok_of_map_ok h
    obtain ⟨-, hes⟩ := both_ok hboth
    refine List.forall_mem_cons.mpr ⟨⟨e, List.mem_cons_self, rfl⟩, fun f hf => ?_⟩
    obtain ⟨d, hd, heq⟩ := ih hes f hf
    exact ⟨d, List.mem_cons_of_mem e hd, heq⟩

theorem badKey?_of_document {v w : Value} (h : document v = .ok w) (hv : badKey? v = none) :
    badKey? w = none := by
  match v, h with
  | .dict es, h =>
    obtain ⟨fields, hfields, rfl⟩ := ok_of_map_ok h
    split
    · exact hv
    · refine Json.badKey?_ofPairs fun p hp => ?_
      obtain ⟨f, hf, rfl⟩ := List.mem_map.mp hp
      obtain ⟨e, he, heq⟩ := textEntries_ok hfields f hf
      refine ⟨rfl, ?_⟩
      rw [← heq]
      exact (badKey?_dict_iff.mp hv e he).2

end Shape

namespace Plan

/-- A plan that may be carried out over some schemas. -/
structure Fits (p : Plan) (schemas : Schemas) : Prop where
  primary : (schemas.lookup p.primary).isSome = true
  /-- JSON has a form for every stage. -/
  stages : ∀ stage ∈ p.pipeline, badKey? stage = none

theorem badKey?_of_stagesOf {data : Value} {stages : List Value} (h : stagesOf data = .ok stages)
    (hdata : badKey? data = none) : ∀ stage ∈ stages, badKey? stage = none := by
  unfold stagesOf at h
  split at h
  · cases h
  · split at h
    · rename_i listed hlisted
      split at h
      · cases h
        have hpipeline := @Json.badKey?_getD data "pipeline" hdata
        rw [hlisted] at hpipeline
        exact badKey?_list_iff.mp hpipeline
      · cases h
    · cases hkeys : sortedKeys (keysOf data) <;> rw [hkeys] at h <;> cases h

theorem badKey?_of_stageDocuments {stages documents : List Value}
    (h : stageDocuments stages = .ok documents) (hstages : ∀ stage ∈ stages, badKey? stage = none) :
    ∀ document ∈ documents, badKey? document = none := by
  intro document hdocument
  obtain ⟨stage, hstage, hread⟩ := Shape.itemsFrom_ok (Shape.within_ok h) document hdocument
  exact Shape.badKey?_of_document hread (hstages stage hstage)

theorem primaryOf_ok {data : Value} {schemas : Schemas} {name : String}
    (h : primaryOf data schemas = .ok name) : (schemas.lookup name).isSome = true := by
  unfold primaryOf at h
  split at h
  · split at h
    · cases hkeys : sortedKeys (keysOf data) <;> rw [hkeys] at h <;> cases h
    · split at h
      · rename_i hlookup
        cases h
        exact hlookup
      · cases h
  · cases hkeys : sortedKeys (keysOf data) <;> rw [hkeys] at h <;> cases h

theorem fits_of_ofValue {data : Value} {schemas : Schemas} {p : Plan}
    (h : (ofValue data schemas).result = .ok p) (hdata : badKey? data = none) :
    Fits p schemas := by
  obtain ⟨stages, hstages, h⟩ := bind_result_ok_iff.mp h
  obtain ⟨primary, hprimary, h⟩ := bind_result_ok_iff.mp h
  obtain ⟨hint, -, h⟩ := bind_result_ok_iff.mp h
  split at h
  · rename_i documents hdocuments
    cases h
    exact ⟨primaryOf_ok hprimary,
      badKey?_of_stageDocuments hdocuments (badKey?_of_stagesOf hstages hdata)⟩
  · cases h

theorem badKey?_of_extract {reply v : Value} (h : Reply.extract reply = .ok v) :
    badKey? v = none := by
  unfold Reply.extract at h
  split at h
  · dsimp only at h
    split at h
    · cases h
    · split at h
      · cases h
      · split at h
        · rename_i w hparse
          cases h
          exact Json.badKey?_of_parse hparse
        · split at h <;> cases h
  · cases h

theorem fits_of_byModel {model : Model} {query mode : String} {schemas : Schemas} {limit : Value}
    {p : Plan} (h : (byModel model query schemas mode limit).result = .ok p) : Fits p schemas := by
  obtain ⟨reply, -, h⟩ := bind_result_ok_iff.mp h
  obtain ⟨_, -, h⟩ := bind_result_ok_iff.mp h
  obtain ⟨data, hdata, h⟩ := bind_result_ok_iff.mp h
  exact fits_of_ofValue h (badKey?_of_extract hdata)

end Plan

namespace Keywords

theorem badKey?_fields {entries : List (String × Value)}
    (h : ∀ e ∈ entries, badKey? e.2 = none) : badKey? (fields entries) = none := by
  refine Json.badKey?_ofPairs fun p hp => ?_
  obtain ⟨e, he, rfl⟩ := List.mem_map.mp hp
  exact ⟨rfl, h e he⟩

theorem badKey?_doc {entries : List (String × Value)} (h : ∀ e ∈ entries, badKey? e.2 = none) :
    badKey? (Value.doc entries) = none := by
  refine badKey?_dict_iff.mpr fun d hd => ?_
  obtain ⟨e, he, rfl⟩ := List.mem_map.mp hd
  exact ⟨rfl, h e he⟩

theorem mem_of_picked {fields : List String} {q : String → Bool} {f : String}
    (h : (fields.find? q).or fields.head? = some f) : f ∈ fields := by
  rcases Option.or_eq_some_iff.mp h with hfound | ⟨-, hhead⟩
  · exact List.mem_of_find?_eq_some hfound
  · exact List.mem_of_head? hhead

theorem pickCategory_cases {question : String} {s : Schema} {c : Category}
    (h : pickCategory question s = some c) :
    (∃ date ∈ s.dateFields, c = ⟨"month", .doc [("$month", .str ("$" ++ date))], true⟩) ∨
      ∃ f ∈ s.fieldsOf .string, c = ⟨f, .str ("$" ++ f), false⟩ := by
  unfold pickCategory at h
  split at h
  · rename_i date dates _ hdates
    cases h
    exact Or.inl ⟨date, hdates ▸ List.mem_cons_self, rfl⟩
  · dsimp only at h
    split at h
    · rename_i hpicked
      split at h
      · cases h
      · cases h
        exact Or.inr ⟨_, mem_of_picked hpicked, rfl⟩
    · cases h

theorem pickMeasure_cases (question : String) (s : Schema) :
    (∃ f ∈ s.fieldsOf .number,
      pickMeasure question s = ⟨compound "total" f, .doc [("$sum", .str ("$" ++ f))]⟩) ∨
      pickMeasure question s = ⟨"count", .doc [("$sum", .int 1)]⟩ := by
  unfold pickMeasure
  dsimp only
  split
  · rename_i hpicked
    exact Or.inl ⟨_, mem_of_picked hpicked, rfl⟩
  · exact Or.inr rfl

theorem badKey?_source {question : String} {s : Schema} {c : Category}
    (h : pickCategory question s = some c) : badKey? c.source = none := by
  rcases pickCategory_cases h with ⟨date, -, rfl⟩ | ⟨f, -, rfl⟩
  · rfl
  · rfl

theorem badKey?_accumulator (question : String) (s : Schema) :
    badKey? (pickMeasure question s).accumulator = none := by
  rcases pickMeasure_cases question s with ⟨f, -, hm⟩ | hm
  · rw [hm]
    rfl
  · rw [hm]
    rfl

theorem badKey?_groupStage {source : Value} {m : Measure} (hsource : badKey? source = none)
    (hm : badKey? m.accumulator = none) : badKey? (groupStage source m) = none := by
  have hfields : badKey? (fields [("_id", source), (m.name, m.accumulator)]) = none :=
    badKey?_fields (by simp [hsource, hm])
  exact badKey?_doc (by simpa using hfields)

theorem badKey?_projectStage {entries : List (String × Value)}
    (h : ∀ e ∈ entries, badKey? e.2 = none) :
    badKey? (.doc [("$project", fields entries)]) = none :=
  badKey?_doc (by simpa using badKey?_fields h)

theorem badKey?_totalPipeline {m : Measure} (hm : badKey? m.accumulator = none) :
    ∀ stage ∈ totalPipeline m, badKey? stage = none := by
  refine List.forall_mem_cons.mpr ⟨badKey?_groupStage rfl hm, List.forall_mem_singleton.mpr ?_⟩
  exact badKey?_projectStage (by simp [badKey?])

theorem badKey?_groupedPipeline {c : Category} {m : Measure} (hc : badKey? c.source = none)
    (hm : badKey? m.accumulator = none) :
    ∀ stage ∈ groupedPipeline c m, badKey? stage = none := by
  refine List.forall_mem_cons.mpr ⟨badKey?_groupStage hc hm, List.forall_mem_cons.mpr ⟨?_,
    List.forall_mem_cons.mpr ⟨?_, List.forall_mem_singleton.mpr rfl⟩⟩⟩
  · exact badKey?_projectStage (by simp [badKey?])
  · split <;> rfl

theorem pickCollection_mem (question : String) (first : String × Schema) (rest : Schemas) :
    pickCollection question first rest ∈ first :: rest := by
  unfold pickCollection
  cases h : (first :: rest).find? fun s => namesCollection question s.1 with
  | none => exact List.mem_cons_self
  | some s => exact List.mem_of_find?_eq_some h

theorem fits_plan (query : String) (first : String × Schema) (rest : Schemas) :
    (plan query first rest).Fits (first :: rest) := by
  unfold plan
  generalize Text.trim (Text.lower query) = question
  have hmem := pickCollection_mem question first rest
  dsimp only
  generalize pickCollection question first rest = picked at hmem ⊢
  constructor
  · exact List.lookup_isSome_iff.mpr ⟨picked, hmem, beq_self_eq_true _⟩
  · unfold planFor
    dsimp only
    split
    · rename_i c hc
      exact badKey?_groupedPipeline (badKey?_source hc) (badKey?_accumulator _ _)
    · exact badKey?_totalPipeline (badKey?_accumulator _ _)

end Keywords

namespace Plan

/-- A plan that is resolved fits its schemas, in a mode that is given or set. -/
theorem resolve_ok {s : Settings.Source} {model : Model} {query : String} {schemas : Schemas}
    {mode : Option String} {limit : Value} {p : Plan}
    (h : (resolve s model query schemas mode limit).result = .ok p) :
    (∃ used, Settings.modeOr s mode = .ok used) ∧ p.Fits schemas := by
  unfold resolve at h
  split at h
  · cases h
  · obtain ⟨used, hused, h⟩ := bind_result_ok_iff.mp h
    refine ⟨⟨used, hused⟩, ?_⟩
    have hlogged : ∀ plan : Plan, (if plan.openValues.all (Json.fits Json.logDepth) then
        (do Traced.log [resolvedLine used plan]; .done plan)
        else (.fail (.defect .tooNested) : Traced Plan)).result = .ok p → plan = p := by
      intro plan hplan
      split at hplan
      · cases hplan
        rfl
      · cases hplan
    dsimp only at h
    split at h
    · obtain ⟨plan, hplan, h⟩ := bind_result_ok_iff.mp h
      rw [← hlogged plan h, ← Except.ok.inj hplan]
      exact Keywords.fits_plan _ _ _
    · obtain ⟨plan, hplan, h⟩ := bind_result_ok_iff.mp h
      obtain rfl := hlogged _ h
      exact fits_of_byModel hplan

end Plan

end Inquiry
