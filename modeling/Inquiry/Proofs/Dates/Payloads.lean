import Inquiry.Proofs.Dates.Opaque
import Inquiry.Proofs.Expression.Payload

/-!
# Runs with another payload

A tree with another payload blanks the same. So healing takes the same conversions out of it and
reports the same, each stage settles the same names, and the whole run with another payload is the
run with that payload put into its output.
-/
namespace Inquiry.Dates

open Expression (Canonical isLeaf putPayload putPayload_fieldRef putPayload_scalar setPayload
  setPayload_keyed_of_ne setPayload_literal)

variable (p : Value)

theorem modify_map_eq {α β : Type} {f : α → α} {g : α → β} (h : ∀ x, g (f x) = g x) (xs : List α)
    (i : Nat) : (xs.modify i f).map g = xs.map g := by
  have hmap : (xs.modify i f).map g = (xs.map g).modify i id := map_modify h xs i
  rw [hmap, List.modify_id]

/-- Only the keys and the blanked entries of a mapping stand in its blanked form. -/
theorem blank_keyed_congr {es ds : List (String × Expression)}
    (h : es.map (fun d => (d.1, blank d.2)) = ds.map fun d => (d.1, blank d.2)) :
    blank (.keyed es) = blank (.keyed ds) := by
  have hkeys : HoldsLiteral es ↔ HoldsLiteral ds := by
    rw [← holdsLiteral_map blank, h, holdsLiteral_map]
  by_cases hes : HoldsLiteral es
  · rw [hes.blank_eq, (hkeys.mp hes).blank_eq]
  · rw [blank_keyed hes, blank_keyed fun hds => hes (hkeys.mpr hds), h]

theorem blank_scalar_putPayload (address : List Nat) (v : Value) :
    blank (.scalar (Value.putPayload p address v)) = blank (.scalar v) := by
  rw [blank_scalar, blank_scalar, Value.isLeaf_putPayload]
  cases hv : isLeaf v with
  | true => rw [Value.putPayload_leaf p hv]
  | false => rfl

theorem blank_setPayload (e : Expression) : blank (setPayload p e) = blank e := by
  cases e with
  | scalar v => exact blank_scalar_putPayload p [] v
  | fieldRef path => rfl
  | array xs => rfl
  | keyed es =>
    by_cases hes : HoldsLiteral es
    · obtain ⟨e, rfl⟩ := hes.exists
      rfl
    · rw [setPayload_keyed_of_ne]
      rintro e rfl
      exact hes rfl

theorem blank_putPayload (address : List Nat) (e : Expression) :
    blank (putPayload p address e) = blank e := by
  induction address generalizing e with
  | nil => exact blank_setPayload p e
  | cons i address ih =>
    cases e with
    | scalar v => exact blank_scalar_putPayload p (i :: address) v
    | fieldRef path => rfl
    | keyed es => exact blank_keyed_congr (modify_map_eq (fun d => by rw [ih]) es i)
    | array xs =>
      rw [putPayload, blank_array, blank_array, modify_map_eq ih]

section Heal

variable {known : String → Bool} {force : Bool}

theorem redundantSource?_putPayload (address : List Nat) (e : Expression) :
    redundantSource? known force (putPayload p address e) =
      redundantSource? known force e := by
  rw [← redundantSource?_blank, blank_putPayload, redundantSource?_blank]

/-- A node loses its conversion with any payload, and then holds none. -/
theorem collapse_putPayload (address : List Nat) (e : Expression) :
    collapse known force (putPayload p address e) =
      putPayload p address (collapse known force e) := by
  rw [collapse, collapse, redundantSource?_putPayload]
  cases redundantSource? known force e with
  | none => rfl
  | some f => exact (putPayload_fieldRef p address f).symm

theorem healedParts_modify {g : Expression → Expression}
    (h : ∀ e, heal known force (g e) = g (heal known force e)) (es : List (String × Expression))
    (i : Nat) :
    healedParts known force (es.modify i fun d => (d.1, g d.2)) =
      .keyed ((es.map fun d => (d.1, heal known force d.2)).modify i fun d => (d.1, g d.2)) :=
  congrArg Expression.keyed (map_modify (fun d => by rw [h]) es i)

theorem heal_setPayload_keyed (es : List (String × Expression)) :
    heal known force (setPayload p (.keyed es)) =
      collapse known force (setPayload p (healedParts known force es)) := by
  by_cases hes : HoldsLiteral es
  · obtain ⟨e, rfl⟩ := hes.exists
    rw [setPayload_literal, heal_keyed, healedParts_call, heal_scalar, healedParts_call,
      setPayload_literal]
  · rw [setPayload_keyed_of_ne, heal_keyed, healedParts,
      setPayload_keyed_of_ne]
    · intro e he
      refine hes ((holdsLiteral_map (heal known force)).mp ?_)
      rw [he]
      rfl
    · rintro e rfl
      exact hes rfl

/-- A tree with another payload heals to the healed tree with that payload. -/
theorem heal_putPayload (address : List Nat) (e : Expression) :
    heal known force (putPayload p address e) =
      putPayload p address (heal known force e) := by
  induction address generalizing e with
  | nil =>
    cases e with
    | scalar v => exact (heal_scalar known force _).trans (by rw [heal_scalar]; rfl)
    | fieldRef path => rw [putPayload_fieldRef, heal_fieldRef, putPayload_fieldRef]
    | array xs => rw [heal_array]; exact heal_array known force xs
    | keyed es =>
      rw [heal_keyed, ← collapse_putPayload]
      exact heal_setPayload_keyed p es
  | cons i address ih =>
    cases e with
    | scalar v => rw [putPayload_scalar, heal_scalar, heal_scalar, putPayload_scalar]
    | fieldRef path => rw [putPayload_fieldRef, heal_fieldRef, putPayload_fieldRef]
    | array xs =>
      rw [putPayload, heal_array, heal_array, putPayload, map_modify ih]
    | keyed es =>
      rw [putPayload, heal_keyed, heal_keyed, healedParts_modify ih]
      exact collapse_putPayload p (i :: address) (healedParts known force es)

end Heal

section Reports

variable {known : String → Bool} {force : Bool} {stage : Nat}

theorem mismatch_putPayload (address : List Nat) (path : String) (e : Expression) :
    mismatch known stage path (putPayload p address e) = mismatch known stage path e := by
  rw [← mismatch_blank, blank_putPayload, mismatch_blank]

theorem diagnoseNode_putPayload (address : List Nat) (path : String) (e : Expression) :
    diagnoseNode known force stage path (putPayload p address e) =
      diagnoseNode known force stage path e := by
  have hoperator : (putPayload p address e).operator? = e.operator? := by
    rw [← operator?_blank, blank_putPayload, operator?_blank]
  rw [diagnoseNode, diagnoseNode, redundantSource?_putPayload, hoperator, mismatch_putPayload]

theorem diagnoseItems_modify {g : Expression → Expression} {xs : List Expression}
    (h : ∀ x ∈ xs, ∀ path,
      diagnose known force stage path (g x) = diagnose known force stage path x)
    (path : String) (k i : Nat) :
    diagnoseItems known force stage path k (xs.modify i g) =
      diagnoseItems known force stage path k xs := by
  induction xs generalizing k i with
  | nil => rw [List.modify_nil]
  | cons x xs ih =>
    obtain ⟨hx, hxs⟩ := List.forall_mem_cons.mp h
    cases i with
    | zero => rw [List.modify_zero_cons, diagnoseItems, diagnoseItems, hx]
    | succ i => rw [List.modify_succ_cons, diagnoseItems, diagnoseItems, ih hxs]

theorem diagnoseEntries_modify {g : Expression → Expression} {es : List (String × Expression)}
    (h : ∀ d ∈ es, ∀ path,
      diagnose known force stage path (g d.2) = diagnose known force stage path d.2)
    (path : String) (i : Nat) :
    diagnoseEntries known force stage path (es.modify i fun d => (d.1, g d.2)) =
      diagnoseEntries known force stage path es := by
  induction es generalizing i with
  | nil => rw [List.modify_nil]
  | cons d es ih =>
    obtain ⟨hd, hes⟩ := List.forall_mem_cons.mp h
    cases i with
    | zero => rw [List.modify_zero_cons, diagnoseEntries, diagnoseEntries, hd]
    | succ i => rw [List.modify_succ_cons, diagnoseEntries, diagnoseEntries, ih hes]

theorem diagnose_setPayload {e : Expression} (hc : Canonical e) (path : String) :
    diagnose known force stage path (setPayload p e) =
      diagnose known force stage path e := by
  cases e with
  | scalar v => rw [setPayload, diagnose, diagnose]
  | fieldRef f => rfl
  | array xs => rfl
  | keyed es =>
    by_cases hes : HoldsLiteral es
    · obtain ⟨e, rfl⟩ := hes.exists
      obtain ⟨v, rfl⟩ := hc.literal List.mem_cons_self
      rfl
    · rw [setPayload_keyed_of_ne]
      rintro e rfl
      exact hes rfl

/-- The reports on a tree that was read do not depend on a payload. -/
theorem diagnose_putPayload {e : Expression} (hc : Canonical e) (address : List Nat)
    (path : String) :
    diagnose known force stage path (putPayload p address e) =
      diagnose known force stage path e := by
  induction address generalizing e path with
  | nil => exact diagnose_setPayload p hc path
  | cons i address ih =>
    cases e with
    | scalar v => rw [putPayload_scalar, diagnose, diagnose]
    | fieldRef f => rfl
    | array xs =>
      rw [putPayload, diagnose, diagnose]
      exact diagnoseItems_modify (fun x hx path => ih (hc.items x hx) path) path 0 i
    | keyed es =>
      have hentries : ∀ d ∈ es, ∀ path,
          diagnose known force stage path (putPayload p address d.2) =
            diagnose known force stage path d.2 := by
        intro d hd path
        by_cases hkey : d.1 = "$literal"
        · -- The payload itself is no tree, so there is nothing to report on it.
          obtain ⟨v, hv⟩ := hc.literal (e := d.2) (by rw [← hkey]; exact hd)
          rw [hv, putPayload_scalar, diagnose, diagnose]
        · exact ih (hc.entry hd hkey) path
      rw [putPayload, diagnose, diagnose, diagnoseEntries_modify hentries,
        healEntries_eq_map, healEntries_eq_map]
      have hheal : ∀ e, heal known force (putPayload p address e) =
          putPayload p address (heal known force e) := heal_putPayload p address
      rw [← healedParts, ← healedParts, healedParts_modify hheal]
      exact congrArg _ (diagnoseNode_putPayload p (i :: address) path (healedParts known force es))

end Reports

variable {known : String → Bool} {force : Bool} {s : Stage} (i : Nat) (address : List Nat)

theorem healStage_putPayload :
    healStage known force (s.putPayload p i address) =
      (healStage known force s).putPayload p i address :=
  congrArg (Stage.mk s.operator) (heal_putPayload p (i :: address) s.spec)

theorem diagnoseStage_putPayload (hc : Canonical s.toExpression) (index : Nat) :
    diagnoseStage known force index (s.putPayload p i address) =
      diagnoseStage known force index s := by
  have hspec : diagnose known force index s.operator (s.putPayload p i address).spec =
      diagnose known force index s.operator s.spec := by
    by_cases hoperator : s.operator = "$literal"
    · obtain ⟨v, hv⟩ := hc.literal (e := s.spec) (by rw [← hoperator]; exact List.mem_cons_self)
      rw [Stage.putPayload, hv, putPayload_scalar, diagnose, diagnose]
    · exact diagnose_putPayload p (hc.entry List.mem_cons_self hoperator) (i :: address) s.operator
  have hroot : mismatch known index ""
      ((healStage known force s).putPayload p i address).toExpression =
        mismatch known index "" (healStage known force s).toExpression :=
    mismatch_putPayload p (0 :: i :: address) "" (healStage known force s).toExpression
  rw [diagnoseStage, diagnoseStage, healStage_putPayload, hroot]
  exact congrArg (· ++ _) hspec

theorem foldl_judge_blank (projected : Bool) (source : String) (ds : List (String × Expression))
    (f : DateFields) :
    (ds.map fun d => (d.1, blank d.2)).foldl (judge projected source) f =
      ds.foldl (judge projected source) f := by
  rw [List.foldl_map]
  have hjudge : (fun f (d : String × Expression) => judge projected source f (d.1, blank d.2)) =
      judge projected source := funext fun f => funext fun d => judge_blank projected source f d
  rw [hjudge]

/-- A stage defines the same names with another payload, by expressions that blank the same. -/
theorem stageDefinitions_putPayload :
    (stageDefinitions (s.putPayload p i address)).map (fun d => (d.1, blank d.2)) =
      (stageDefinitions s).map fun d => (d.1, blank d.2) := by
  obtain ⟨operator, spec⟩ := s
  cases spec with
  | keyed es =>
    have hentries : (es.modify i fun d => (d.1, putPayload p address d.2)).map
        (fun d => (d.1, blank d.2)) = es.map fun d => (d.1, blank d.2) :=
      modify_map_eq (fun d => by rw [blank_putPayload]) es i
    rw [Stage.putPayload, putPayload, ← keepsDocuments_blank.stageDefinitions_eq,
      ← keepsDocuments_blank.stageDefinitions_eq, hentries]
  | _ =>
    rw [Stage.putPayload, stageDefinitions_of_not_keyed (by simp [putPayload]),
      stageDefinitions_of_not_keyed (by simp)]

/-- A stage settles the same names, whatever its payloads are. -/
theorem propagate_putPayload (index : Nat) (f : DateFields) :
    propagate index (s.putPayload p i address) f = propagate index s f := by
  by_cases hunset : s.operator = "$unset"
  · have hunset' : (s.putPayload p i address).operator = "$unset" := hunset
    rw [propagate_of_unset hunset', propagate_of_unset hunset, Stage.putPayload,
      ← unsetNames_blank, blank_putPayload, unsetNames_blank]
  · have hunset' : (s.putPayload p i address).operator ≠ "$unset" := hunset
    rw [propagate_eq_foldl hunset', propagate_eq_foldl hunset, ← foldl_judge_blank,
      stageDefinitions_putPayload, foldl_judge_blank]
    rfl

theorem step_putPayload (hc : Canonical s.toExpression) (progress : Progress) (index : Nat) :
    progress.step force index (s.putPayload p i address) =
      ((progress.step force index s).1,
        (progress.step force index s).2.putPayload p i address) := by
  unfold Progress.step
  dsimp only
  rw [healStage_putPayload, propagate_putPayload, diagnoseStage_putPayload p i address hc]

/-- The pipeline with the payload `p` at an address strictly inside the spec of the stage `n`. -/
def withPayload (p : Value) (n i : Nat) (address : List Nat) (vs : List Value) : List Value :=
  vs.modify n (Value.putPayload p (0 :: i :: address))

variable {p i address} in
theorem healStages_cons_withPayload {progress : Progress} {index : Nat} (v : Value)
    (vs : List Value) :
    healStages force index progress (Value.putPayload p (0 :: i :: address) v :: vs) =
      ((healStages force index progress (v :: vs)).1,
        (healStages force index progress (v :: vs)).2.map (withPayload p 0 i address)) := by
  have hread := Stage.ofValue_putPayload p i address index v
  cases hs : Stage.ofValue index v with
  | error m =>
    rw [hs] at hread
    rw [healStages_cons_of_error hs, healStages_cons_of_error hread]
    rfl
  | ok s =>
    rw [hs] at hread
    obtain ⟨-, hc⟩ := Stage.canonical_of_ofValue hs
    rw [healStages_cons_of_ok hs, healStages_cons_of_ok hread, step_putPayload p i address hc,
      healStage_putPayload, Stage.toValue_putPayload]
    cases (healStages force (index + 1) (progress.step force index s).1 vs).2 <;> rfl

theorem healStages_withPayload (n : Nat) (vs : List Value) (progress : Progress) (index : Nat) :
    healStages force index progress (withPayload p n i address vs) =
      ((healStages force index progress vs).1,
        (healStages force index progress vs).2.map (withPayload p n i address)) := by
  induction n generalizing index progress vs with
  | zero =>
    cases vs with
    | nil => rfl
    | cons v vs => exact healStages_cons_withPayload v vs
  | succ n ih =>
    cases vs with
    | nil => rfl
    | cons v vs =>
      rw [withPayload, List.modify_succ_cons]
      cases hs : Stage.ofValue index v with
      | error m =>
        rw [healStages_cons_of_error hs, healStages_cons_of_error hs]
        rfl
      | ok s =>
        have hrest := ih vs (progress.step force index s).1 (index + 1)
        rw [withPayload] at hrest
        rw [healStages_cons_of_ok hs, healStages_cons_of_ok hs, hrest]
        cases (healStages force (index + 1) (progress.step force index s).1 vs).2 <;> rfl

/-- The payload of a `$literal` object strictly inside the spec of a stage has no influence on a
run: with any two payloads, of whatever kind, a run ends with the same reports and date fields and
with the same fault or the same output, which holds the one payload or the other where the object
still stands. -/
theorem healPipeline_opaque_payload (forced : List String) (start : Progress) (collection : String)
    (vs : List Value) (n i : Nat) (address : List Nat) (p q : Value) :
    let run := fun payload => healPipeline forced start collection
      (.list (withPayload payload n i address vs))
    (run p).1 = (run q).1 ∧
      ∃ result : Except Malformed (List Value),
        (run p).2 = result.map (withPayload p n i address) ∧
        (run q).2 = result.map (withPayload q n i address) := by
  dsimp only [healPipeline]
  rw [healStages_withPayload p, healStages_withPayload q]
  exact ⟨rfl, _, rfl, rfl⟩

end Inquiry.Dates
