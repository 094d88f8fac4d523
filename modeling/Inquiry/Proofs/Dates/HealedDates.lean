import Inquiry.Dates.Fields
import Inquiry.Proofs.Dates.KeyOrder
import Inquiry.Proofs.Dates.Rewriting

/-!
# Dates in a healed expression

A conversion gives way to a field only if the field is known to hold dates, and a conversion is no
choice between alternatives. So a healed expression is a date exactly when the expression was one.
-/
namespace Inquiry.Dates

open Relation (ReflTransGen)

variable {known : String → Bool} {force : Bool} {f key : String}

/-- What a function that looks at scalars only says of a healed expression. -/
theorem apply_heal {α : Type} {g : Expression → α} {a : α}
    (hg : ∀ e, (∀ v, e ≠ .scalar v) → g e = a) (e : Expression) :
    g (heal known force e) = g e := by
  by_cases h : ∃ v, e = .scalar v
  · obtain ⟨v, rfl⟩ := h
    rw [heal_scalar]
  · rw [hg e fun v hv => h ⟨v, hv⟩]
    exact hg _ fun v hv => h ⟨v, (heal_eq_scalar_iff known force).mp hv⟩

theorem isDateTarget_heal (e : Expression) :
    isDateTarget (heal known force e) = isDateTarget e := by
  refine apply_heal (a := false) (fun e he => ?_) e
  cases e with
  | scalar v => exact absurd rfl (he v)
  | _ => rfl

theorem dateTarget_heal (e : Expression) :
    ((heal known force e).get? "to").any isDateTarget = (e.get? "to").any isDateTarget := by
  rw [get?_heal_eq_map known force (by decide), Option.any_map]
  congr 1
  exact funext isDateTarget_heal

theorem Converts.yieldsDate {e : Expression} (h : Converts f e) : yieldsDate known e = true := by
  cases h with
  | toDate reads => rfl
  | toDateItem reads => rfl
  | dateFromString text reads => rfl
  | convert kind date input reads => simp [Dates.yieldsDate, producingOperators, kind, date]

theorem yieldsDate_collapse (e : Expression) :
    yieldsDate known (collapse known false e) = yieldsDate known e := by
  rcases collapse_eq_or known false e with h | ⟨f, h, hf, haccept⟩
  · rw [h]
  · have hknown : known f = true := haccept.resolve_right (by decide)
    rw [h, hf.yieldsDate, yieldsDate, hknown]

theorem Converts.keyYields {es : List (String × Expression)} (h : Converts f (.keyed es))
    (hkey : isOperatorName key = false) : keyYields known key es = false := by
  rw [keyYields_eq, h.find?_eq_none hkey]
  rfl

theorem Converts.branchesYield {es : List (String × Expression)} (h : Converts f (.keyed es)) :
    branchesYield known es = false := by
  rw [branchesYield_eq, branches, h.find?_eq_none (by decide)]
  rfl

theorem condYields_collapse (es : List (String × Expression)) :
    condYields known (collapse known force (.keyed es)) = condYields known (.keyed es) := by
  rcases collapse_eq_or known force (.keyed es) with h | ⟨f, h, hf, -⟩
  · rw [h]
  · rw [h, condYields, condYields, hf.keyYields (by decide), hf.keyYields (by decide)] <;> simp

theorem switchYields_collapse (es : List (String × Expression)) :
    switchYields known (collapse known force (.keyed es)) = switchYields known (.keyed es) := by
  rcases collapse_eq_or known force (.keyed es) with h | ⟨f, h, hf, -⟩
  · rw [h]
  · rw [h, switchYields, switchYields, hf.branchesYield, hf.keyYields (by decide)] <;> simp

theorem anyThenYields_collapse (es : List (String × Expression)) (bs : List Expression) :
    anyThenYields known (collapse known force (.keyed es) :: bs) =
      (keyYields known "then" es || anyThenYields known bs) := by
  rcases collapse_eq_or known force (.keyed es) with h | ⟨f, h, hf, -⟩
  · rw [h, anyThenYields]
  · rw [h, anyThenYields, hf.keyYields (by decide), Bool.false_or]
    simp

mutual

theorem yieldsDate_heal : ∀ e, yieldsDate known (heal known false e) = yieldsDate known e
  | .scalar v => by rw [heal_scalar]
  | .fieldRef path => by rw [heal_fieldRef]
  | .array xs => by rw [heal_array]; rfl
  | .keyed [(op, operand)] => by
    rw [heal, yieldsDate_collapse, healEntries, healEntries, yieldsDate, yieldsDate,
      dateTarget_heal, ifNullYields_heal operand, condYields_heal operand,
      switchYields_heal operand]
  | .keyed [] => by rw [heal, yieldsDate_collapse]; rfl
  | .keyed (_ :: _ :: _) => by rw [heal, yieldsDate_collapse]; rfl

theorem ifNullYields_heal : ∀ e, ifNullYields known (heal known false e) = ifNullYields known e
  | .scalar v => by rw [heal_scalar]
  | .fieldRef path => by rw [heal_fieldRef]
  | .array xs => by rw [heal, ifNullYields, ifNullYields, anyYields_healItems xs]
  | .keyed es => by
    rw [heal]
    rcases collapse_eq_or known false (.keyed (healEntries known false es)) with h | ⟨f, h, -⟩
    · rw [h]; rfl
    · rw [h]; rfl

theorem condYields_heal : ∀ e, condYields known (heal known false e) = condYields known e
  | .scalar v => by rw [heal_scalar]
  | .fieldRef path => by rw [heal_fieldRef]
  | .array [test, yes, no] => by
    rw [heal_array]
    change condYields known (.array [_, _, _]) = _
    rw [condYields, condYields, yieldsDate_heal yes, yieldsDate_heal no]
  | .array [] | .array [_] | .array [_, _] | .array (_ :: _ :: _ :: _ :: _) => by
    rw [heal_array]
    rfl
  | .keyed es => by
    rw [heal, condYields_collapse, condYields, condYields, keyYields_healEntries "then" es,
      keyYields_healEntries "else" es]

theorem switchYields_heal : ∀ e, switchYields known (heal known false e) = switchYields known e
  | .scalar v => by rw [heal_scalar]
  | .fieldRef path => by rw [heal_fieldRef]
  | .array xs => by rw [heal_array]; rfl
  | .keyed es => by
    rw [heal, switchYields_collapse, switchYields, switchYields, branchesYield_healEntries es,
      keyYields_healEntries "default" es]

theorem anyYields_healItems :
    ∀ xs, anyYields known (healItems known false xs) = anyYields known xs
  | [] => rfl
  | x :: xs => by
    rw [healItems, anyYields, anyYields, yieldsDate_heal x, anyYields_healItems xs]

theorem keyYields_healEntries (key : String) :
    ∀ es, keyYields known key (healEntries known false es) = keyYields known key es
  | [] => rfl
  | (k, e) :: es => by
    rw [healEntries, keyYields, keyYields, yieldsDate_heal e, keyYields_healEntries key es]

theorem branchesYield_healEntries :
    ∀ es, branchesYield known (healEntries known false es) = branchesYield known es
  | [] => rfl
  | (k, .scalar v) :: es => by
    rw [healEntries, heal_scalar, branchesYield, branchesYield, branchesYield_healEntries es] <;>
      simp
  | (k, .fieldRef path) :: es => by
    rw [healEntries, heal_fieldRef, branchesYield, branchesYield,
      branchesYield_healEntries es] <;> simp
  | (k, .array bs) :: es => by
    rw [healEntries, heal, branchesYield, branchesYield, anyThenYields_healItems bs,
      branchesYield_healEntries es]
  | (k, .keyed fields) :: es => by
    rw [healEntries, heal]
    rcases collapse_eq_or known false (.keyed (healEntries known false fields)) with h | ⟨f, h, -⟩
    · rw [h, branchesYield, branchesYield, branchesYield_healEntries es] <;> simp
    · rw [h, branchesYield, branchesYield, branchesYield_healEntries es] <;> simp

theorem anyThenYields_healItems :
    ∀ bs, anyThenYields known (healItems known false bs) = anyThenYields known bs
  | [] => rfl
  | .scalar v :: bs => by
    rw [healItems, heal_scalar, anyThenYields, anyThenYields, anyThenYields_healItems bs] <;> simp
  | .fieldRef path :: bs => by
    rw [healItems, heal_fieldRef, anyThenYields, anyThenYields,
      anyThenYields_healItems bs] <;> simp
  | .array xs :: bs => by
    rw [healItems, heal_array, anyThenYields, anyThenYields, anyThenYields_healItems bs] <;> simp
  | .keyed es :: bs => by
    rw [healItems, heal, anyThenYields_collapse, anyThenYields, keyYields_healEntries "then" es,
      anyThenYields_healItems bs]

end

/-- Healing does not change whether an expression is a date, and neither does any part of it: every
tree on the way to the healed one is a date exactly when the expression is. -/
theorem healing_keeps_dates (F : DateFields) (e : Expression) :
    yieldsDate F.contains (heal F.contains false e) = yieldsDate F.contains e ∧
      ∀ e', ReflTransGen (Step F.contains false) e e' →
        yieldsDate F.contains e' = yieldsDate F.contains e := by
  refine ⟨yieldsDate_heal e, fun e' steps => ?_⟩
  -- Both trees heal to the same one.
  have hheal : heal F.contains false e' = heal F.contains false e := heal_eq_of_steps steps
  rw [← yieldsDate_heal e', hheal, yieldsDate_heal e]

end Inquiry.Dates
