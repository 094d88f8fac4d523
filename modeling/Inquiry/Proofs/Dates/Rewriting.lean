import Mathlib.Data.Bool.Basic
import Mathlib.Logic.Relation
import Inquiry.Proofs.Dates.Conversion

/-!
# Healing as rewriting

`Step` removes one conversion somewhere in a tree. A step never makes a scalar, so it makes no new
target of `$convert`, and it takes away at least the conversion it removes: every sequence of steps
ends. Healing gives the same tree before and after a step, hence every sequence of steps that cannot
go on ends in the healed tree. The payload of `$literal` is a scalar, so no step goes into it.
-/
namespace Inquiry.Dates

open Expression (find?)
open Relation (ReflTransGen)

/-- One conversion that is not needed gives way to the field it reads. -/
inductive Step (known : String → Bool) (force : Bool) : Expression → Expression → Prop
  | remove {e f} (converts : Converts f e) (accept : known f = true ∨ force = true) :
      Step known force e (.fieldRef f)
  | entry {key e e'} (before after : List (String × Expression)) (step : Step known force e e') :
      Step known force (.keyed (before ++ (key, e) :: after)) (.keyed (before ++ (key, e') :: after))
  | item {e e'} (before after : List Expression) (step : Step known force e e') :
      Step known force (.array (before ++ e :: after)) (.array (before ++ e' :: after))

/-- A step strictly below the root of a stage. -/
def StageStep (known : String → Bool) (force : Bool) (s t : Stage) : Prop :=
  t.operator = s.operator ∧ Step known force s.spec t.spec

/-- Whether a node is a conversion to a date, whatever it reads. -/
def isConversion : Expression → Bool
  | .keyed [(op, operand)] =>
    op = "$toDate" || op = "$dateFromString" ||
      (op = "$convert" && (operand.get? "to").any isDateTarget)
  | _ => false

mutual

/-- The number of conversions in a tree. -/
def conversions : Expression → Nat
  | .scalar _ => 0
  | .fieldRef _ => 0
  | .keyed es => conversionsOfEntries es + (isConversion (.keyed es)).toNat
  | .array xs => conversionsOfItems xs

def conversionsOfItems : List Expression → Nat
  | [] => 0
  | e :: es => conversions e + conversionsOfItems es

def conversionsOfEntries : List (String × Expression) → Nat
  | [] => 0
  | (_, e) :: es => conversions e + conversionsOfEntries es

end

@[simp] theorem conversionsOfItems_append (xs ys : List Expression) :
    conversionsOfItems (xs ++ ys) = conversionsOfItems xs + conversionsOfItems ys := by
  induction xs with
  | nil => simp [conversionsOfItems]
  | cons x xs ih => rw [List.cons_append, conversionsOfItems, conversionsOfItems, ih, Nat.add_assoc]

@[simp] theorem conversionsOfEntries_append (xs ys : List (String × Expression)) :
    conversionsOfEntries (xs ++ ys) = conversionsOfEntries xs + conversionsOfEntries ys := by
  induction xs with
  | nil => simp [conversionsOfEntries]
  | cons x xs ih =>
    rw [List.cons_append, conversionsOfEntries, conversionsOfEntries, ih, Nat.add_assoc]

theorem Converts.isConversion {f : String} {e : Expression} (h : Converts f e) :
    isConversion e = true := by
  cases h with
  | toDate reads => rfl
  | toDateItem reads => rfl
  | dateFromString text reads => rfl
  | convert kind date input reads => simp [Dates.isConversion, kind, date]

variable {known : String → Bool} {force : Bool}

theorem Step.ne_scalar {e e' : Expression} (h : Step known force e e') (v : Value) :
    e' ≠ .scalar v := by
  cases h <;> exact fun he => Expression.noConfusion he

/-- The target of a `$convert` is a date target after a step only if it was one before. -/
theorem Step.dateTarget {e e' : Expression} (h : Step known force e e')
    (ht : (e'.get? "to").any isDateTarget = true) : (e.get? "to").any isDateTarget = true := by
  cases h with
  | remove converts accept => simp [Expression.get?] at ht
  | item before after step => simp [Expression.get?] at ht
  | @entry key x x' before after step =>
    rw [Expression.get?_keyed, Expression.find?_append, Expression.find?_cons] at ht ⊢
    cases hb : find? "to" before with
    | some t => simpa [hb] using ht
    | none =>
      rw [hb, Option.none_or] at ht
      rw [Option.none_or]
      split at ht
      · match x', ht with
        | .scalar v, _ => exact absurd rfl (step.ne_scalar v)
      · rename_i hkey
        rwa [if_neg hkey]

theorem Step.isConversion {e e' : Expression} (h : Step known force e e') (key : String)
    (before after : List (String × Expression))
    (hc : isConversion (.keyed (before ++ (key, e') :: after)) = true) :
    isConversion (.keyed (before ++ (key, e) :: after)) = true := by
  have hsingle : before = [] ∧ after = [] := by
    match before, after, hc with
    | [], [], _ => exact ⟨rfl, rfl⟩
    | [_], [], hc | [], _ :: _, hc | [_], _ :: _, hc => cases hc
    | _ :: _ :: _, _, hc => cases hc
  obtain ⟨rfl, rfl⟩ := hsingle
  simp only [List.nil_append, Dates.isConversion, Bool.or_eq_true, Bool.and_eq_true] at hc ⊢
  rcases hc with hc | ⟨hop, ht⟩
  · exact Or.inl hc
  · exact Or.inr ⟨hop, h.dateTarget ht⟩

/-- A step takes away the conversion it removes and adds none. -/
theorem Step.conversions_lt {e e' : Expression} (h : Step known force e e') :
    conversions e' < conversions e := by
  induction h with
  | remove converts accept =>
    obtain ⟨op, operand, rfl, -⟩ := converts.operator
    rw [conversions, conversions, converts.isConversion]
    exact Nat.succ_pos _
  | @entry key _ _ before after step ih =>
    have hnode := Bool.toNat_le_toNat (Bool.le_iff_imp.mpr (step.isConversion key before after))
    simp only [conversions, conversionsOfEntries_append, conversionsOfEntries]
    omega
  | item before after step ih =>
    simp only [conversions, conversionsOfItems_append, conversionsOfItems]
    omega

theorem Step.heal_eq {e e' : Expression} (h : Step known force e e') :
    heal known force e' = heal known force e := by
  induction h with
  | remove converts accept => rw [heal_fieldRef, converts.heal_eq known force accept]
  | entry before after step ih =>
    simp only [heal_keyed, healedParts, List.map_append, List.map_cons, ih]
  | item before after step ih =>
    simp only [heal_array, List.map_append, List.map_cons, ih]

theorem heal_eq_of_steps {e e' : Expression} (h : ReflTransGen (Step known force) e e') :
    heal known force e' = heal known force e := by
  induction h with
  | refl => rfl
  | tail _ step ih => rw [step.heal_eq, ih]

theorem conversions_le_of_steps {e e' : Expression} (h : ReflTransGen (Step known force) e e') :
    conversions e' ≤ conversions e := by
  induction h with
  | refl => exact Nat.le_refl _
  | tail _ step ih => exact Nat.le_trans (Nat.le_of_lt step.conversions_lt) ih

/-- The parts of a node may be changed one after the other, from the left. -/
theorem steps_parts {α : Type} (node : List α → Expression) (g : α → α) (before xs : List α)
    (h : ∀ before x after, x ∈ xs → ReflTransGen (Step known force)
      (node (before ++ x :: after)) (node (before ++ g x :: after))) :
    ReflTransGen (Step known force) (node (before ++ xs)) (node (before ++ xs.map g)) := by
  induction xs generalizing before with
  | nil => exact .refl
  | cons x xs ih =>
    have hx := h before x xs List.mem_cons_self
    have hxs := ih (before ++ [g x]) fun b y after hy => h b y after (List.mem_cons_of_mem x hy)
    rw [List.append_assoc, List.append_assoc] at hxs
    exact hx.trans hxs

theorem steps_item (before after : List Expression) {x x' : Expression}
    (h : ReflTransGen (Step known force) x x') :
    ReflTransGen (Step known force) (.array (before ++ x :: after))
      (.array (before ++ x' :: after)) :=
  ReflTransGen.lift (p := Step known force) (fun y => Expression.array (before ++ y :: after))
    (fun _ _ step => .item before after step) _ _ h

theorem steps_entry (key : String) (before after : List (String × Expression)) {x x' : Expression}
    (h : ReflTransGen (Step known force) x x') :
    ReflTransGen (Step known force) (.keyed (before ++ (key, x) :: after))
      (.keyed (before ++ (key, x') :: after)) :=
  ReflTransGen.lift (p := Step known force)
    (fun y => Expression.keyed (before ++ (key, y) :: after))
    (fun _ _ step => .entry before after step) _ _ h

theorem steps_heal (e : Expression) :
    ReflTransGen (Step known force) e (heal known force e) := by
  induction e with
  | scalar v => rw [heal_scalar]
  | fieldRef path => rw [heal_fieldRef]
  | array xs ih =>
    rw [heal_array]
    exact steps_parts .array _ [] xs fun before x after hx => steps_item before after (ih x hx)
  | keyed es ih =>
    have hparts : ReflTransGen (Step known force) (.keyed es) (healedParts known force es) :=
      steps_parts .keyed _ [] es fun before d after hd => steps_entry d.1 before after (ih d hd)
    rw [heal_keyed]
    rcases collapse_eq_or known force (healedParts known force es) with h | ⟨f, h, hf, haccept⟩
    · rwa [h]
    · rw [h]
      exact hparts.tail (.remove hf haccept)

/-- A second healing changes nothing. -/
theorem heal_heal (e : Expression) :
    heal known force (heal known force e) = heal known force e :=
  heal_eq_of_steps (steps_heal e)

/-- The healed tree has no conversion left to remove: a step from it would lead to a tree that heals
back to it, with fewer conversions than it has. -/
theorem not_step_heal (e e' : Expression) : ¬ Step known force (heal known force e) e' := by
  intro h
  have hheal : heal known force e' = heal known force e := by rw [h.heal_eq, heal_heal]
  have hle : conversions (heal known force e') ≤ conversions e' :=
    conversions_le_of_steps (steps_heal e')
  rw [hheal] at hle
  exact absurd h.conversions_lt (by omega)

/-- A tree is healed exactly when no step applies to it. -/
theorem heal_eq_self_iff {e : Expression} :
    heal known force e = e ↔ ∀ e', ¬ Step known force e e' := by
  constructor
  · intro h e'
    rw [← h]
    exact not_step_heal e e'
  · intro h
    rcases (steps_heal e).cases_head with he | ⟨e', step, -⟩
    · exact he.symm
    · exact absurd step (h e')

end Inquiry.Dates
