import Inquiry.Proofs.Dates.Documents
import Inquiry.Proofs.Dates.HealedDates
import Inquiry.Proofs.Dates.Unconverted

/-!
# The definitions of a healed stage

Healing keeps the names that a stage defines and heals their expressions. An expression that yields a
date yields one when it is healed, and where more is known.
-/
namespace Inquiry.Dates

variable {known known' : String → Bool} {force : Bool}

/-- Every name of the first set is in the second. -/
def Extends (known known' : String → Bool) : Prop := ∀ name, known name = true → known' name = true

mutual

theorem yieldsDate_mono (hext : Extends known known') :
    ∀ e, yieldsDate known e = true → yieldsDate known' e = true
  | .scalar _ => id
  | .fieldRef path => hext path
  | .array _ | .keyed [] | .keyed (_ :: _ :: _) => id
  | .keyed [(op, operand)] => by
    rw [yieldsDate, yieldsDate]
    split_ifs
    · exact id
    · exact id
    · exact ifNullYields_mono hext operand
    · exact condYields_mono hext operand
    · exact switchYields_mono hext operand
    · exact id

theorem ifNullYields_mono (hext : Extends known known') :
    ∀ e, ifNullYields known e = true → ifNullYields known' e = true
  | .array xs => anyYields_mono hext xs
  | .scalar _ | .fieldRef _ | .keyed _ => id

theorem condYields_mono (hext : Extends known known') :
    ∀ e, condYields known e = true → condYields known' e = true
  | .array [_, yes, no] => by
    rw [condYields, condYields, Bool.or_eq_true, Bool.or_eq_true]
    exact Or.imp (yieldsDate_mono hext yes) (yieldsDate_mono hext no)
  | .keyed es => by
    rw [condYields, condYields, Bool.or_eq_true, Bool.or_eq_true]
    exact Or.imp (keyYields_mono hext "then" es) (keyYields_mono hext "else" es)
  | .array [] | .array [_] | .array [_, _] | .array (_ :: _ :: _ :: _ :: _) => id
  | .scalar _ | .fieldRef _ => id

theorem switchYields_mono (hext : Extends known known') :
    ∀ e, switchYields known e = true → switchYields known' e = true
  | .keyed es => by
    rw [switchYields, switchYields, Bool.or_eq_true, Bool.or_eq_true]
    exact Or.imp (branchesYield_mono hext es) (keyYields_mono hext "default" es)
  | .scalar _ | .fieldRef _ | .array _ => id

theorem anyYields_mono (hext : Extends known known') :
    ∀ xs, anyYields known xs = true → anyYields known' xs = true
  | [] => id
  | x :: xs => by
    rw [anyYields, anyYields, Bool.or_eq_true, Bool.or_eq_true]
    exact Or.imp (yieldsDate_mono hext x) (anyYields_mono hext xs)

theorem keyYields_mono (hext : Extends known known') (key : String) :
    ∀ es, keyYields known key es = true → keyYields known' key es = true
  | [] => id
  | (k, e) :: es => by
    rw [keyYields, keyYields]
    split
    · exact yieldsDate_mono hext e
    · exact keyYields_mono hext key es

theorem branchesYield_mono (hext : Extends known known') :
    ∀ es, branchesYield known es = true → branchesYield known' es = true
  | [] => id
  | (k, .array bs) :: es => by
    rw [branchesYield, branchesYield]
    split
    · exact anyThenYields_mono hext bs
    · exact branchesYield_mono hext es
  | (k, .scalar _) :: es | (k, .fieldRef _) :: es | (k, .keyed _) :: es => by
    simp only [branchesYield]
    split
    · exact id
    · exact branchesYield_mono hext es

theorem anyThenYields_mono (hext : Extends known known') :
    ∀ bs, anyThenYields known bs = true → anyThenYields known' bs = true
  | [] => id
  | .keyed es :: bs => by
    rw [anyThenYields, anyThenYields, Bool.or_eq_true, Bool.or_eq_true]
    exact Or.imp (keyYields_mono hext "then" es) (anyThenYields_mono hext bs)
  | .scalar _ :: bs | .fieldRef _ :: bs | .array _ :: bs => anyThenYields_mono hext bs

end

/-- What was a date is one in a larger set, also after the conversions that this one makes needless. -/
theorem yieldsDate_heal_of_extends (hext : Extends known known') (e : Expression)
    (h : yieldsDate known e = true) : yieldsDate known' (heal known' false e) = true := by
  rw [yieldsDate_heal]
  exact yieldsDate_mono hext e h

theorem yieldsDate_heal_mono (hext : Extends known known') (force : Bool) (e : Expression)
    (h : yieldsDate known (heal known force e) = true) :
    yieldsDate known' (heal known' force e) = true := by
  have hyields := yieldsDate_heal_of_extends hext _ h
  cases force with
  | false =>
    rwa [heal_eq_of_steps (steps_mono (steps_heal e) fun f => Or.imp_left (hext f))] at hyields
  | true =>
    -- A forced tree has nothing left to remove, so the second healing keeps it.
    rw [heal_forced known known'] at hyields
    have hself : heal known' false (heal known' true e) = heal known' true e := by
      rw [heal_eq_self_iff]
      exact fun e' step => not_step_heal e e' (step.mono fun _ _ => Or.inr rfl)
    rwa [hself] at hyields

theorem call?_healedParts (es : List (String × Expression)) :
    (healedParts known force es).call? =
      (Expression.keyed es).call?.map fun c => (c.1, heal known force c.2) := by
  match es with
  | [] => rfl
  | [(key, x)] =>
    rw [healedParts_call, Expression.call?, Expression.call?]
    split <;> rfl
  | _ :: _ :: _ => rfl

theorem heal_keyed_of_no_call {es : List (String × Expression)}
    (h : (Expression.keyed es).call? = none) :
    heal known force (.keyed es) = healedParts known force es := by
  rw [heal_keyed]
  apply collapse_eq_self
  intro f hf
  obtain ⟨op, operand, hcall, -⟩ := converts_iff_call?.mp hf
  rw [call?_healedParts, h] at hcall
  cases hcall

theorem heal_ne_fieldRef_of_no_call {e : Expression} (h : e.call? = none) :
    ∀ es f, e = .keyed es → heal known force (.keyed es) ≠ .fieldRef f := by
  rintro es f rfl
  rw [heal_keyed_of_no_call h]
  exact Expression.noConfusion

theorem keepsDocuments_heal : KeepsDocuments (heal known force) where
  document es h := by
    have hcall : (Expression.keyed es).call? = none := by
      match es, h with
      | [(key, x)], h => exact Option.isNone_iff_eq_none.mp h
      | _ :: _ :: _, _ => rfl
    exact heal_keyed_of_no_call hcall
  other e h := by
    cases e with
    | keyed es =>
      rcases heal_keyed_cases known force es with hc | ⟨f, hc, -⟩
      · rw [hc, healedParts, isDocument_map, h]
      · rw [hc]
        rfl
    | array xs => rw [heal_array]; rfl
    | _ => simpa using h

/-- A stage whose spec does not give way to a field defines the same names by healed expressions. -/
theorem stageDefinitions_healStage {s : Stage}
    (h : ∀ es f, s.spec = .keyed es → heal known force (.keyed es) ≠ .fieldRef f) :
    stageDefinitions (healStage known force s) =
      (stageDefinitions s).map fun d => (d.1, heal known force d.2) := by
  obtain ⟨operator, spec⟩ := s
  unfold healStage
  dsimp only
  cases spec with
  | keyed es =>
    rw [heal_eq_healedParts known force fun f => h es f rfl, healedParts,
      keepsDocuments_heal.stageDefinitions_eq]
  | array xs =>
    rw [heal_array, stageDefinitions_of_not_keyed (by simp), stageDefinitions_of_not_keyed (by simp)]
    rfl
  | _ =>
    rw [stageDefinitions_of_not_keyed (by simp), stageDefinitions_of_not_keyed (by simp)]
    rfl

theorem flag?_heal (projected : Bool) (e : Expression) :
    flag? projected (heal known force e) = flag? projected e := by
  refine apply_heal (a := none) (fun e he => ?_) e
  unfold flag?
  split
  · cases e with
    | scalar v => exact absurd rfl (he v)
    | _ => rfl
  · rfl

theorem filterMap_heal {α : Type} {g : Expression → Option α}
    (hg : ∀ e, (∀ v, e ≠ .scalar v) → g e = none) (xs : List Expression) :
    (xs.map (heal known force)).filterMap g = xs.filterMap g := by
  rw [List.filterMap_map]
  exact List.filterMap_congr fun x _ => apply_heal hg x

theorem unsetNames_heal (e : Expression) : unsetNames (heal known force e) = unsetNames e := by
  cases e with
  | scalar v => rw [heal_scalar]
  | fieldRef f => rw [heal_fieldRef]
  | array xs =>
    rw [heal_array, unsetNames, unsetNames]
    refine filterMap_heal (fun e he => ?_) xs
    cases e with
    | scalar v => exact absurd rfl (he v)
    | _ => rfl
  | keyed es =>
    rcases heal_keyed_cases known force es with hc | ⟨f, hc, -⟩
    · rw [hc]
      rfl
    · rw [hc]
      rfl

end Inquiry.Dates
