import Inquiry.Dates.Fields
import Inquiry.Proofs.Dates.Rewriting

/-!
# The normal form of a stage

Each removal that is reported takes at least one conversion away, so there are no more such reports
than conversions, and a stage without one is returned as it was. With the steps of `Rewriting` this
makes the healed stage the one normal form of a stage: every order of steps ends there.
-/
namespace Inquiry.Dates

open Relation (ReflTransGen)

/-- The number of reports that tell of a removed conversion. -/
def removals (ds : List Diagnostic) : Nat :=
  ds.countP fun d => d.finding.name = "conversion_removed"

@[simp] theorem removals_nil : removals [] = 0 := rfl

@[simp] theorem removals_append (xs ys : List Diagnostic) :
    removals (xs ++ ys) = removals xs + removals ys := List.countP_append

@[simp] theorem removals_mismatch (known : String → Bool) (stage : Nat) (path : String)
    (e : Expression) : removals (mismatch known stage path e) = 0 := by
  unfold mismatch
  split
  · split
    · split
      · split
        · rfl
        · simp [removals, Finding.name]
      · rfl
    · rfl
  · rfl

variable {known : String → Bool} {force : Bool}

theorem isConversion_of_healedParts {es : List (String × Expression)}
    (h : isConversion (healedParts known force es) = true) : isConversion (.keyed es) = true := by
  match es, h with
  | [(op, operand)], h =>
    have hsteps : ReflTransGen (Step known force) operand (heal known force operand) :=
      steps_heal operand
    rw [healedParts_call] at h
    -- The target of a `$convert` is the same all along the steps that heal the operand.
    generalize heal known force operand = healed at h hsteps
    induction hsteps with
    | refl => exact h
    | tail _ step ih => exact ih (step.isConversion op [] [] h)

/-- A report on a node tells of a removal exactly when the node collapses. -/
theorem removals_diagnoseNode_add_le (stage : Nat) (path : String)
    (es : List (String × Expression)) :
    removals (diagnoseNode known force stage path (healedParts known force es)) +
        conversions (collapse known force (healedParts known force es)) ≤
      conversionsOfEntries (es.map fun d => (d.1, heal known force d.2)) +
        (isConversion (.keyed es)).toNat := by
  have hmono : (isConversion (healedParts known force es)).toNat ≤ (isConversion (.keyed es)).toNat :=
    Bool.toNat_le_toNat (Bool.le_iff_imp.mpr isConversion_of_healedParts)
  cases h : redundantSource? known force (healedParts known force es) with
  | none =>
    rw [diagnoseNode, collapse, h]
    simp only [removals_mismatch, healedParts, conversions] at hmono ⊢
    omega
  | some f =>
    have hc := (redundantSource?_eq_some_iff.mp h).1.isConversion
    rw [hc] at hmono
    rw [diagnoseNode, collapse, h]
    simp only [removals, Finding.name, List.countP_singleton, conversions, Bool.toNat_true] at hmono ⊢
    simp
    omega

theorem removals_diagnoseItems_add_le {stage : Nat} {path : String} {xs : List Expression}
    (h : ∀ x ∈ xs, ∀ p, removals (diagnose known force stage p x) +
      conversions (heal known force x) ≤ conversions x) (i : Nat) :
    removals (diagnoseItems known force stage path i xs) +
      conversionsOfItems (xs.map (heal known force)) ≤ conversionsOfItems xs := by
  induction xs generalizing i with
  | nil => simp [diagnoseItems, conversionsOfItems]
  | cons x xs ih =>
    have hx := h x List.mem_cons_self (indexPath path i)
    have hxs := ih (fun y hy => h y (List.mem_cons_of_mem x hy)) (i + 1)
    simp only [diagnoseItems, removals_append, List.map_cons, conversionsOfItems]
    omega

theorem removals_diagnoseEntries_add_le {stage : Nat} {path : String}
    {es : List (String × Expression)}
    (h : ∀ d ∈ es, ∀ p, removals (diagnose known force stage p d.2) +
      conversions (heal known force d.2) ≤ conversions d.2) :
    removals (diagnoseEntries known force stage path es) +
      conversionsOfEntries (es.map fun d => (d.1, heal known force d.2)) ≤
        conversionsOfEntries es := by
  induction es with
  | nil => simp [diagnoseEntries, conversionsOfEntries]
  | cons d es ih =>
    have hd := h d List.mem_cons_self (joinPath path d.1)
    have hes := ih fun c hc => h c (List.mem_cons_of_mem d hc)
    simp only [diagnoseEntries, removals_append, List.map_cons, conversionsOfEntries]
    omega

/-- Every reported removal takes a conversion away. -/
theorem removals_diagnose_add_le (stage : Nat) (path : String) (e : Expression) :
    removals (diagnose known force stage path e) + conversions (heal known force e) ≤
      conversions e := by
  induction e generalizing path with
  | scalar v => simp [diagnose, conversions]
  | fieldRef f => simp [diagnose, conversions]
  | array xs ih =>
    rw [heal_array, diagnose, conversions, conversions]
    exact removals_diagnoseItems_add_le (fun x hx p => ih x hx p) 0
  | keyed es ih =>
    have hnode := @removals_diagnoseNode_add_le known force stage path es
    have hes : removals (diagnoseEntries known force stage path es) +
        conversionsOfEntries (es.map fun d => (d.1, heal known force d.2)) ≤
          conversionsOfEntries es :=
      removals_diagnoseEntries_add_le fun d hd p => ih d hd p
    rw [heal_keyed, diagnose, removals_append, healEntries_eq_map, ← healedParts, conversions]
    omega

theorem heal_items_of_no_removals {stage : Nat} {path : String} {xs : List Expression}
    (h : ∀ x ∈ xs, ∀ p, removals (diagnose known force stage p x) = 0 → heal known force x = x)
    (i : Nat) (hxs : removals (diagnoseItems known force stage path i xs) = 0) :
    xs.map (heal known force) = xs := by
  induction xs generalizing i with
  | nil => rfl
  | cons x xs ih =>
    rw [diagnoseItems, removals_append, Nat.add_eq_zero_iff] at hxs
    rw [List.map_cons, h x List.mem_cons_self _ hxs.1,
      ih (fun y hy => h y (List.mem_cons_of_mem x hy)) (i + 1) hxs.2]

theorem heal_entries_of_no_removals {stage : Nat} {path : String}
    {es : List (String × Expression)}
    (h : ∀ d ∈ es, ∀ p, removals (diagnose known force stage p d.2) = 0 →
      heal known force d.2 = d.2)
    (hes : removals (diagnoseEntries known force stage path es) = 0) :
    es.map (fun d => (d.1, heal known force d.2)) = es := by
  induction es with
  | nil => rfl
  | cons d es ih =>
    rw [diagnoseEntries, removals_append, Nat.add_eq_zero_iff] at hes
    rw [List.map_cons, h d List.mem_cons_self _ hes.1,
      ih (fun c hc => h c (List.mem_cons_of_mem d hc)) hes.2]

theorem heal_of_no_removals {stage : Nat} {path : String} {e : Expression}
    (h : removals (diagnose known force stage path e) = 0) : heal known force e = e := by
  induction e generalizing path with
  | scalar v => exact heal_scalar known force v
  | fieldRef f => exact heal_fieldRef known force f
  | array xs ih =>
    rw [heal_array, heal_items_of_no_removals (fun x hx p hp => ih x hx hp) 0 h]
  | keyed es ih =>
    rw [diagnose, removals_append, Nat.add_eq_zero_iff, healEntries_eq_map, ← healedParts] at h
    have hes : healedParts known force es = .keyed es := by
      rw [healedParts, heal_entries_of_no_removals (fun d hd p hp => ih d hd hp) h.1]
    rw [heal_keyed, collapse]
    cases hs : redundantSource? known force (healedParts known force es) with
    | none => exact hes
    | some f =>
      have hnode := h.2
      rw [diagnoseNode, hs] at hnode
      simp [removals, Finding.name] at hnode

theorem removals_diagnoseStage (index : Nat) (s : Stage) :
    removals (diagnoseStage known force index s) =
      removals (diagnose known force index s.operator s.spec) := by
  rw [diagnoseStage, removals_append, removals_mismatch, Nat.add_zero]

theorem healStage_eq_self_iff {s : Stage} :
    healStage known force s = s ↔ heal known force s.spec = s.spec := by
  obtain ⟨op, spec⟩ := s
  simp [healStage]

theorem removals_diagnoseStage_eq_zero_iff (index : Nat) (s : Stage) :
    removals (diagnoseStage known force index s) = 0 ↔ healStage known force s = s := by
  rw [removals_diagnoseStage, healStage_eq_self_iff]
  constructor
  · exact heal_of_no_removals
  · intro h
    have hle := @removals_diagnose_add_le known force index s.operator s.spec
    rw [h] at hle
    omega

theorem healStage_healStage (s : Stage) :
    healStage known force (healStage known force s) = healStage known force s := by
  rw [healStage_eq_self_iff]
  exact heal_heal s.spec

theorem StageStep.healStage_eq {s t : Stage} (h : StageStep known force s t) :
    healStage known force t = healStage known force s := by
  rw [healStage, healStage, h.1, h.2.heal_eq]

theorem stageSteps_healStage (s : Stage) :
    ReflTransGen (StageStep known force) s (healStage known force s) :=
  ReflTransGen.lift (p := StageStep known force) (fun e => Stage.mk s.operator e)
    (fun _ _ step => ⟨rfl, step⟩) _ _ (steps_heal s.spec)

theorem healStage_eq_of_stageSteps {s t : Stage}
    (h : ReflTransGen (StageStep known force) s t) :
    healStage known force t = healStage known force s := by
  induction h with
  | refl => rfl
  | tail _ step ih => rw [step.healStage_eq, ih]

theorem healStage_eq_self_of_final {s : Stage} (h : ∀ t, ¬ StageStep known force s t) :
    healStage known force s = s := by
  rw [healStage_eq_self_iff, heal_eq_self_iff]
  exact fun e step => h ⟨s.operator, e⟩ ⟨rfl, step⟩

/-- No sequence of steps goes on for ever: each one leaves fewer conversions. -/
theorem no_endless_stageSteps (σ : Nat → Stage) :
    ∃ n, ¬ StageStep known force (σ n) (σ (n + 1)) := by
  by_contra hall
  simp only [not_exists, not_not] at hall
  -- After `n` steps at least `n` conversions are gone.
  have hle : ∀ n, conversions (σ n).spec + n ≤ conversions (σ 0).spec := by
    intro n
    induction n with
    | zero => exact Nat.le_refl _
    | succ n ih =>
      have hlt := (hall n).2.conversions_lt
      omega
  have hlast := hle (conversions (σ 0).spec + 1)
  omega

/-- The healed stage is the one normal form of a stage. It is reached by removals strictly below the
root, none is left in it, no sequence of removals goes on for ever, and every one that cannot go on
has ended in it, whatever its order. No more removals are reported than there are conversions, and
none exactly when the stage comes back as it was. -/
theorem healStage_normal_form (F : DateFields) (force : Bool) (index : Nat) (s : Stage) :
    ReflTransGen (StageStep F.contains force) s (healStage F.contains force s) ∧
    (∀ t, ¬ StageStep F.contains force (healStage F.contains force s) t) ∧
    (∀ σ : Nat → Stage, σ 0 = s → ∃ n, ¬ StageStep F.contains force (σ n) (σ (n + 1))) ∧
    (∀ t, ReflTransGen (StageStep F.contains force) s t →
      (∀ u, ¬ StageStep F.contains force t u) → t = healStage F.contains force s) ∧
    removals (diagnoseStage F.contains force index s) ≤ conversions s.spec ∧
    (removals (diagnoseStage F.contains force index s) = 0 ↔ healStage F.contains force s = s) := by
  refine ⟨stageSteps_healStage s, ?_, fun σ _ => no_endless_stageSteps σ, ?_, ?_,
    removals_diagnoseStage_eq_zero_iff index s⟩
  · intro t h
    exact not_step_heal s.spec t.spec h.2
  · intro t hsteps hfinal
    rw [← healStage_eq_of_stageSteps hsteps, healStage_eq_self_of_final hfinal]
  · rw [removals_diagnoseStage]
    exact Nat.le_trans (Nat.le_add_right _ _) (removals_diagnose_add_le index s.operator s.spec)

end Inquiry.Dates
