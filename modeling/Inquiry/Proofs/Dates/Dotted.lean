import Inquiry.Proofs.Dates.Idempotence
import Inquiry.Proofs.Dates.HealedDefinitions
import Inquiry.Proofs.Dates.Places
import Inquiry.Proofs.Expression.Dotted

/-!
# Nested and dotted specs

An embedded document is no node of its own for healing: nothing replaces it, nothing is reported on
it, and what it defines are its fields. So a stage with a nested spec and the stage with the dotted
spec say the same, name for name and path for path, and the pipelines that they stand in run alike.
-/
namespace Inquiry.Dates

open Expression (Canonical dottedField dottedField_embedded dottedField_other dottedFields
  dottedFields_eq_flatMap dotted_other embedded_induction field_of_isEmbedded isEmbedded
  isEmbedded_map)

variable {known : String → Bool} {force : Bool} {stage : Nat} {es : List (String × Expression)}

/-- A mapping of fields is no operator call. -/
theorem call?_of_fields (h : ∀ d ∈ es, isOperatorName d.1 = false) :
    (Expression.keyed es).call? = none := by
  match es, h with
  | [], _ => rfl
  | [(key, x)], h =>
    have hkey := h (key, x) List.mem_cons_self
    rw [Expression.call?, hkey]
    rfl
  | _ :: _ :: _, _ => rfl

theorem call?_embedded (h : isEmbedded es = true) : (Expression.keyed es).call? = none :=
  call?_of_fields fun _ hd => field_of_isEmbedded h hd

theorem isDocument_embedded (h : isEmbedded es = true) :
    (Expression.keyed es).isDocument = true := by
  have hcall := call?_embedded h
  match es, h, hcall with
  | [(key, x)], _, hcall => exact Option.isNone_iff_eq_none.mpr hcall
  | _ :: _ :: _, _, _ => rfl

/-- The dotted fields of a document are fields. -/
theorem field_of_dottedField {e : Expression} {name : String} (hname : isOperatorName name = false) :
    ∀ d ∈ dottedField name e, isOperatorName d.1 = false := by
  induction e using embedded_induction generalizing name with
  | other e he =>
    rw [dottedField_other he]
    simpa using hname
  | document es hes ih =>
    rw [dottedField_embedded hes, dottedFields_eq_flatMap]
    intro d hd
    obtain ⟨c, hc, hd⟩ := List.mem_flatMap.mp hd
    exact ih c hc (isOperatorName_dot hname c.1) d hd

theorem field_of_dottedFields (h : isEmbedded es = true) :
    ∀ d ∈ dottedFields "" es, isOperatorName d.1 = false := by
  rw [dottedFields_eq_flatMap]
  intro d hd
  obtain ⟨c, hc, hd⟩ := List.mem_flatMap.mp hd
  refine field_of_dottedField ?_ d hd
  rw [String.empty_append]
  exact field_of_isEmbedded h hc

theorem heal_embedded (h : isEmbedded es = true) :
    heal known force (.keyed es) = .keyed (es.map fun d => (d.1, heal known force d.2)) :=
  heal_keyed_of_no_call (call?_embedded h)

/-- What is no embedded document does not become one. -/
theorem heal_other {e : Expression} (h : ∀ es, e = .keyed es → isEmbedded es = false) :
    ∀ es, heal known force e = .keyed es → isEmbedded es = false := by
  intro fs hfs
  cases e with
  | scalar v => simp at hfs
  | fieldRef path => simp at hfs
  | array xs => simp [heal_array] at hfs
  | keyed es =>
    rcases heal_keyed_cases known force es with hc | ⟨f, hc, -⟩
    · rw [hc] at hfs
      cases hfs
      exact (isEmbedded_map _ es).trans (h es rfl)
    · rw [hc] at hfs
      cases hfs

theorem heal_dottedField (e : Expression) (name : String) :
    (dottedField name e).map (fun d => (d.1, heal known force d.2)) =
      dottedField name (heal known force e) := by
  induction e using embedded_induction generalizing name with
  | other e he => rw [dottedField_other he, dottedField_other (heal_other he), List.map_singleton]
  | document es hes ih =>
    rw [heal_embedded hes, dottedField_embedded hes,
      dottedField_embedded ((isEmbedded_map _ es).trans hes), dottedFields_eq_flatMap,
      dottedFields_eq_flatMap, List.map_flatMap, List.flatMap_map]
    exact List.flatMap_congr fun d hd => ih d hd _

theorem heal_dotted (e : Expression) :
    heal known force e.dotted = (heal known force e).dotted := by
  cases e using embedded_induction with
  | other e he => rw [dotted_other he, dotted_other (heal_other he)]
  | document es hes =>
    rw [heal_embedded hes, Expression.dotted, Expression.dotted, isEmbedded_map, hes, if_pos rfl,
      if_pos rfl, heal_keyed_of_no_call (call?_of_fields (field_of_dottedFields hes)),
      healedParts, dottedFields_eq_flatMap, dottedFields_eq_flatMap, List.map_flatMap,
      List.flatMap_map]
    exact congrArg _ (List.flatMap_congr fun d _ => heal_dottedField d.2 _)

/-- Nothing is reported on a mapping of fields itself. -/
theorem diagnose_of_no_call (h : (Expression.keyed es).call? = none) (path : String) :
    diagnose known force stage path (.keyed es) = diagnoseEntries known force stage path es := by
  have hcall : (healedParts known force es).call? = none := by rw [call?_healedParts, h]; rfl
  rw [diagnose, healEntries_eq_map, ← healedParts, diagnoseNode, redundantSource?, hcall]
  dsimp only
  rw [mismatch, hcall, List.append_nil]

theorem diagnoseEntries_single (path key : String) (e : Expression) :
    diagnoseEntries known force stage path [(key, e)] =
      diagnose known force stage (joinPath path key) e := by
  rw [diagnoseEntries, diagnoseEntries, List.append_nil]

theorem diagnoseEntries_dottedField {path place namePrefix : String}
    (h : Leads path place namePrefix) (hpath : path ≠ "") {key : String}
    (hkey : isOperatorName key = false) (e : Expression) :
    diagnoseEntries known force stage path (dottedField (namePrefix ++ key) e) =
      diagnose known force stage (joinPath place key) e := by
  induction e using embedded_induction generalizing place namePrefix key with
  | other e he => rw [dottedField_other he, diagnoseEntries_single, h.join]
  | document es hes ih =>
    rw [dottedField_embedded hes, diagnose_of_no_call (call?_embedded hes),
      diagnoseEntries_eq_flatMap, diagnoseEntries_eq_flatMap, dottedFields_eq_flatMap,
      List.flatMap_assoc]
    refine List.flatMap_congr fun d hd => ?_
    rw [← diagnoseEntries_eq_flatMap]
    exact ih d hd (h.down hpath hkey) (field_of_isEmbedded hes hd)

theorem diagnose_dotted {path : String} (hpath : path ≠ "") (e : Expression) :
    diagnose known force stage path e.dotted = diagnose known force stage path e := by
  cases e using embedded_induction with
  | other e he => rw [dotted_other he]
  | document es hes =>
    rw [Expression.dotted, if_pos hes, diagnose_of_no_call (call?_embedded hes),
      diagnose_of_no_call (call?_of_fields (field_of_dottedFields hes)),
      diagnoseEntries_eq_flatMap, diagnoseEntries_eq_flatMap, dottedFields_eq_flatMap,
      List.flatMap_assoc]
    refine List.flatMap_congr fun d hd => ?_
    rw [← diagnoseEntries_eq_flatMap]
    exact diagnoseEntries_dottedField (.refl path) hpath (field_of_isEmbedded hes hd) d.2

/-- Only the whole name tells what a definition defines. -/
theorem definitionsOf_append (path name : String) (e : Expression) :
    definitionsOf "" (path ++ name) e = definitionsOf path name e := by
  cases hdoc : e.isDocument with
  | true =>
    obtain ⟨es, rfl⟩ := exists_keyed_of_isDocument hdoc
    rw [definitionsOf_document hdoc, definitionsOf_document hdoc, String.empty_append]
  | false =>
    rw [definitionsOf_of_not_document hdoc, definitionsOf_of_not_document hdoc,
      String.empty_append]

theorem definitions_single (path name : String) (e : Expression) :
    definitions path [(name, e)] = definitionsOf path name e := by
  rw [definitions, definitions, List.append_nil]

theorem definitions_dottedField (e : Expression) (name : String) :
    definitions "" (dottedField name e) = definitionsOf "" name e := by
  induction e using embedded_induction generalizing name with
  | other e he => rw [dottedField_other he, definitions_single]
  | document es hes ih =>
    rw [dottedField_embedded hes, definitionsOf_document (isDocument_embedded hes),
      definitions_eq_flatMap, definitions_eq_flatMap, dottedFields_eq_flatMap,
      List.flatMap_assoc, String.empty_append]
    refine List.flatMap_congr fun d hd => ?_
    rw [← definitions_eq_flatMap, ← definitionsOf_append]
    exact ih d hd _

theorem definitions_dottedFields (es : List (String × Expression)) :
    definitions "" (dottedFields "" es) = definitions "" es := by
  rw [definitions_eq_flatMap, definitions_eq_flatMap, dottedFields_eq_flatMap, List.flatMap_assoc]
  refine List.flatMap_congr fun d _ => ?_
  rw [← definitions_eq_flatMap, definitions_dottedField, definitionsOf_append]

variable {s : Stage}

theorem stageDefinitions_dotted (s : Stage) : stageDefinitions s.dotted = stageDefinitions s := by
  obtain ⟨operator, spec⟩ := s
  unfold Stage.dotted
  cases hop : takesFields operator with
  | false => rfl
  | true =>
    rw [if_pos rfl]
    have hdefines : operator = "$addFields" ∨ operator = "$set" ∨ operator = "$project" := by
      simpa [takesFields, or_assoc] using hop
    unfold stageDefinitions
    rw [if_pos hdefines, if_pos hdefines]
    cases spec with
    | keyed es =>
      rw [Expression.dotted]
      dsimp only
      split
      · exact definitions_dottedFields es
      · rfl
    | _ => rfl

theorem propagate_dotted (index : Nat) (s : Stage) (f : DateFields) :
    propagate index s.dotted f = propagate index s f := by
  by_cases hunset : s.operator = "$unset"
  · have hself : s.dotted = s := by
      obtain ⟨operator, spec⟩ := s
      obtain rfl : operator = "$unset" := hunset
      rfl
    rw [hself]
  · have hunset' : s.dotted.operator ≠ "$unset" := hunset
    rw [propagate_eq_foldl hunset, propagate_eq_foldl hunset', stageDefinitions_dotted]
    rfl

theorem healStage_dotted (s : Stage) :
    healStage known force s.dotted = (healStage known force s).dotted := by
  unfold healStage Stage.dotted
  dsimp only
  split
  · rw [heal_dotted]
  · rfl

/-- A stage that defines fields takes no part of a date. -/
theorem mismatch_of_takesFields (hop : takesFields s.operator = true) (index : Nat) :
    mismatch known index "" s.toExpression = [] := by
  have hpart : s.operator ∉ partOperators := by
    intro hmem
    have hall : ∀ op ∈ partOperators, takesFields op = false := by decide
    rw [hall _ hmem] at hop
    cases hop
  apply List.eq_nil_iff_forall_not_mem.mpr
  intro d hd
  obtain ⟨op, operand, f, hcall, hunknown, -⟩ := mem_mismatch_iff.mp hd
  cases hcall
  exact hpart hunknown.part

theorem diagnoseStage_dotted (index : Nat) (s : Stage) :
    diagnoseStage known force index s.dotted = diagnoseStage known force index s := by
  cases hop : takesFields s.operator with
  | false =>
    have hself : s.dotted = s := by rw [Stage.dotted, hop]; rfl
    rw [hself]
  | true =>
    have hpath : s.operator ≠ "" := by
      intro hempty
      rw [hempty] at hop
      cases hop
    have hspec : s.dotted.spec = s.spec.dotted := if_pos hop
    have hop' : takesFields s.dotted.operator = true := hop
    rw [diagnoseStage, diagnoseStage, mismatch_of_takesFields (s := healStage known force s) hop,
      mismatch_of_takesFields (s := healStage known force s.dotted) hop', hspec]
    exact congrArg (· ++ []) (diagnose_dotted hpath s.spec)

theorem step_dotted (p : Progress) (index : Nat) (s : Stage) :
    p.step force index s.dotted = ((p.step force index s).1, (p.step force index s).2.dotted) := by
  unfold Progress.step
  dsimp only
  rw [healStage_dotted, propagate_dotted, diagnoseStage_dotted]

theorem healStages_dotted (vs : List Value) (p : Progress) (index : Nat) :
    healStages force index p (vs.map Value.dottedStage) =
      ((healStages force index p vs).1,
        (healStages force index p vs).2.map (·.map Value.dottedStage)) := by
  induction vs generalizing p index with
  | nil => rfl
  | cons v vs ih =>
    have hread := Stage.ofValue_dottedStage index v
    rw [List.map_cons]
    cases hs : Stage.ofValue index v with
    | error m =>
      rw [hs] at hread
      rw [healStages_cons_of_error hs, healStages_cons_of_error hread]
      rfl
    | ok s =>
      rw [hs] at hread
      have hc : Canonical (healStage p.fields.contains force s).toExpression :=
        canonical_healedParts (Stage.canonical_of_ofValue hs).2 fun _ _ hd => canonical_heal hd
      rw [healStages_cons_of_ok hs, healStages_cons_of_ok hread, step_dotted, ih,
        healStage_dotted, Stage.toValue_dotted hc]
      cases (healStages force (index + 1) (p.step force index s).1 vs).2 <;> rfl

/-- Nested and dotted specs say the same. A pipeline whose `$addFields`, `$set` and `$project` stages
have their specs dotted ends with the same reports, at the same paths, and with the same date fields,
their sources included; it has the same fault, or its output is the output of the nested pipeline
with the specs dotted. -/
theorem healPipeline_dotted (forced : List String) (start : Progress) (collection : String)
    (stages : List Value) :
    let nested := healPipeline forced start collection (.list stages)
    healPipeline forced start collection (.list (stages.map Value.dottedStage)) =
      (nested.1, nested.2.map (·.map Value.dottedStage)) :=
  healStages_dotted stages start 0

end Inquiry.Dates
