import Inquiry.Proofs.Dates.Rewriting

/-!
# Names that no conversion reads

A removal puts a field where a conversion of it was, so it makes no conversion of another field. What a
tree heals to is therefore decided by the fields that its own conversions read.
-/
namespace Inquiry.Dates

open Expression (find? child?_keyed_eq_some_iff part?_cons)
open Relation (ReflTransGen)

/-- No conversion in the tree reads the field. -/
def Unconverted (name : String) (e : Expression) : Prop :=
  ∀ address c, e.part? address = some c → ¬ Converts name c

variable {known known' : String → Bool} {force force' : Bool} {name : String}

theorem Unconverted.root {e : Expression} (h : Unconverted name e) : ¬ Converts name e :=
  h [] e rfl

theorem Unconverted.child {e x : Expression} {i : Nat} (h : Unconverted name e)
    (hx : e.child? i = some x) : Unconverted name x := by
  intro address c hc
  apply h (i :: address) c
  rw [part?_cons, hx]
  exact hc

theorem Unconverted.entry {es : List (String × Expression)} {d : String × Expression}
    (h : Unconverted name (.keyed es)) (hd : d ∈ es) : Unconverted name d.2 := by
  obtain ⟨i, hi⟩ := List.mem_iff_getElem?.mp hd
  exact h.child (child?_keyed_eq_some_iff.mpr ⟨d.1, hi⟩)

theorem Unconverted.item {xs : List Expression} {x : Expression}
    (h : Unconverted name (.array xs)) (hx : x ∈ xs) : Unconverted name x := by
  obtain ⟨i, hi⟩ := List.mem_iff_getElem?.mp hx
  exact h.child hi

theorem unconverted_keyed_iff {es : List (String × Expression)} :
    Unconverted name (.keyed es) ↔
      ¬ Converts name (.keyed es) ∧ ∀ d ∈ es, Unconverted name d.2 := by
  constructor
  · intro h
    exact ⟨h.root, fun d hd => h.entry hd⟩
  · rintro ⟨hroot, hes⟩ address c hc
    cases address with
    | nil =>
      cases hc
      exact hroot
    | cons i address =>
      rw [part?_cons] at hc
      obtain ⟨x, hx, hc⟩ := Option.bind_eq_some_iff.mp hc
      obtain ⟨key, hd⟩ := child?_keyed_eq_some_iff.mp hx
      exact hes _ (List.mem_of_getElem? hd) address c hc

theorem unconverted_array_iff {xs : List Expression} :
    Unconverted name (.array xs) ↔ ∀ x ∈ xs, Unconverted name x := by
  constructor
  · intro h x hx
    exact h.item hx
  · intro hxs address c hc
    cases address with
    | nil =>
      cases hc
      exact fun h => nomatch h
    | cons i address =>
      rw [part?_cons] at hc
      obtain ⟨x, hx, hc⟩ := Option.bind_eq_some_iff.mp hc
      exact hxs x (List.mem_of_getElem? hx) address c hc

theorem unconverted_fieldRef (path : String) : Unconverted name (.fieldRef path) := by
  intro address c hc
  cases address with
  | nil =>
    cases hc
    exact fun h => nomatch h
  | cons i address => cases hc

theorem Step.converts {e : Expression} {f : String} (h : Step known force e (.fieldRef f)) :
    Converts f e := by
  cases h with
  | remove converts accept => exact converts

/-- What stands under a key after a step stood there before it, or a step led to it. -/
theorem Step.argument {x : Expression} {args : List (String × Expression)} {key : String}
    {r : Expression} (h : Step known force x (.keyed args)) (hr : find? key args = some r) :
    ∃ args', x = .keyed args' ∧ ∃ y, find? key args' = some y ∧ (y = r ∨ Step known force y r) := by
  cases h with
  | @entry k y y' before after step =>
    refine ⟨_, rfl, ?_⟩
    rw [Expression.find?_append, Expression.find?_cons] at hr ⊢
    cases hbefore : Expression.find? key before with
    | some z =>
      rw [hbefore] at hr
      exact ⟨r, hr, Or.inl rfl⟩
    | none =>
      rw [hbefore, Option.none_or] at hr
      rw [Option.none_or]
      dsimp only at hr ⊢
      split at hr
      · rename_i hk
        cases hr
        exact ⟨y, if_pos hk, Or.inr step⟩
      · rename_i hk
        exact ⟨r, by rwa [if_neg hk], Or.inl rfl⟩

theorem Step.call {x y : Expression} {key : String}
    (h : Step known force x (.keyed [(key, y)])) :
    ∃ z, x = .keyed [(key, z)] ∧ Step known force z y := by
  generalize hes : [(key, y)] = es at h
  cases h with
  | @entry k z z' before after step =>
    cases before with
    | nil =>
      cases hes
      exact ⟨z, rfl, step⟩
    | cons d before => simp at hes

theorem Step.single {x y : Expression} (h : Step known force x (.array [y])) :
    ∃ z, x = .array [z] ∧ Step known force z y := by
  generalize hxs : [y] = xs at h
  cases h with
  | @item z z' before after step =>
    cases before with
    | nil =>
      cases hxs
      exact ⟨z, rfl, step⟩
    | cons x before => simp at hxs

theorem Step.not_reads {x y : Expression} (h : Step known force x y) (hx : Unconverted name x) :
    ¬ Reads name y := by
  intro hy
  cases hy with
  | field => exact hx.root h.converts
  | text =>
    obtain ⟨z, rfl, step⟩ := h.call
    exact (hx.entry List.mem_cons_self).root step.converts
  | textOfItem =>
    obtain ⟨z, rfl, step⟩ := h.call
    obtain ⟨w, rfl, inner⟩ := step.single
    exact ((hx.entry List.mem_cons_self).item List.mem_cons_self).root inner.converts

/-- The argument that a conversion reads its field from was there before the step. -/
theorem Step.argument_reads {x r : Expression} {args : List (String × Expression)} {key : String}
    (h : Step known force x (.keyed args)) (hx : Unconverted name x)
    (hr : find? key args = some r) (reads : Reads name r) :
    ∃ args', x = .keyed args' ∧ find? key args' = some r := by
  obtain ⟨args', rfl, y, hy, rfl | step⟩ := h.argument hr
  · exact ⟨args', rfl, hy⟩
  · exact absurd reads (step.not_reads (hx.entry (Expression.mem_of_find? hy)))

/-- A step inside a node does not make it a conversion. -/
theorem Step.not_converts {op : String} {x x' : Expression} (h : Step known force x x')
    (hx : Unconverted name (.keyed [(op, x)])) : ¬ Converts name (.keyed [(op, x')]) := by
  have hinside : Unconverted name x := hx.entry List.mem_cons_self
  intro hc
  cases hc with
  | toDate reads => exact h.not_reads hinside reads
  | toDateItem reads =>
    obtain ⟨y, rfl, step⟩ := h.single
    exact step.not_reads (hinside.item List.mem_cons_self) reads
  | dateFromString text reads =>
    obtain ⟨args, rfl, htext⟩ := h.argument_reads hinside text reads
    exact hx.root (.dateFromString htext reads)
  | @convert _ target _ kind date input reads =>
    obtain ⟨args, rfl, hinput⟩ := h.argument_reads hinside input reads
    obtain ⟨_, heq, y, hkind, hy⟩ := h.argument kind
    cases heq
    -- No step leads to the target, which is a scalar.
    have htarget : y = target := by
      rcases hy with rfl | step
      · rfl
      · match target, date, step with
        | .scalar v, _, step => exact absurd rfl (step.ne_scalar v)
    rw [htarget] at hkind
    exact hx.root (.convert hkind date hinput reads)

/-- A removal makes no conversion of a field that was not converted. -/
theorem Step.unconverted {e e' : Expression} (h : Step known force e e')
    (he : Unconverted name e) : Unconverted name e' := by
  induction h with
  | remove converts accept => exact unconverted_fieldRef _
  | @entry key x x' before after step ih =>
    rw [unconverted_keyed_iff]
    constructor
    · intro hc
      obtain ⟨op, operand, hes, -⟩ := hc.operator
      obtain ⟨rfl, rfl⟩ : before = [] ∧ after = [] := by
        cases before with
        | nil => exact ⟨rfl, (List.cons.inj (Expression.keyed.inj hes)).2⟩
        | cons d before => simp at hes
      exact step.not_converts he hc
    · intro d hd
      rw [List.mem_append, List.mem_cons] at hd
      rcases hd with hd | rfl | hd
      · exact he.entry (List.mem_append_left _ hd)
      · exact ih (he.entry (d := (key, x)) (List.mem_append_right _ List.mem_cons_self))
      · exact he.entry (List.mem_append_right _ (List.mem_cons_of_mem _ hd))
  | @item x x' before after step ih =>
    rw [unconverted_array_iff]
    intro y hy
    rw [List.mem_append, List.mem_cons] at hy
    rcases hy with hy | rfl | hy
    · exact he.item (List.mem_append_left _ hy)
    · exact ih (he.item (List.mem_append_right _ List.mem_cons_self))
    · exact he.item (List.mem_append_right _ (List.mem_cons_of_mem _ hy))

/-- Two sets say the same of every field that a conversion in the tree reads. -/
def ConvertsAlike (known known' : String → Bool) (e : Expression) : Prop :=
  ∀ name, known name ≠ known' name → Unconverted name e

theorem ConvertsAlike.symm {e : Expression} (h : ConvertsAlike known known' e) :
    ConvertsAlike known' known e :=
  fun name hname => h name hname.symm

theorem ConvertsAlike.step {e e' : Expression} (h : ConvertsAlike known known' e)
    (step : Step known force e e') : ConvertsAlike known known' e' :=
  fun name hname => step.unconverted (h name hname)

theorem Step.of_convertsAlike {e e' : Expression} (h : Step known force e e')
    (he : ConvertsAlike known known' e) : Step known' force e e' := by
  induction h with
  | @remove e f converts accept =>
    have hf : known f = known' f := by
      by_contra hne
      exact (he f hne).root converts
    refine .remove converts ?_
    rwa [← hf]
  | @entry key x x' before after step ih =>
    refine .entry before after (ih fun name hname => ?_)
    exact (he name hname).entry (d := (key, x)) (List.mem_append_right _ List.mem_cons_self)
  | item before after step ih =>
    refine .item before after (ih fun name hname => ?_)
    exact (he name hname).item (List.mem_append_right _ List.mem_cons_self)

/-- A healed tree that allows no further step against another set is what the tree heals to against
that one. -/
theorem heal_eq_heal {e : Expression}
    (hsteps : ReflTransGen (Step known' force') e (heal known force e))
    (hlast : ∀ e', Step known' force' (heal known force e) e' →
      Step known force (heal known force e) e') :
    heal known force e = heal known' force' e := by
  have hself : heal known' force' (heal known force e) = heal known force e := by
    rw [heal_eq_self_iff]
    exact fun e' step => not_step_heal e e' (hlast e' step)
  rw [← hself, heal_eq_of_steps hsteps]

/-- A tree heals alike against two sets that agree on it. -/
theorem ConvertsAlike.heal_eq {e : Expression} (he : ConvertsAlike known known' e) :
    heal known force e = heal known' force e := by
  have h : ReflTransGen (Step known' force) e (heal known force e) ∧
      ConvertsAlike known known' (heal known force e) := by
    have hsteps : ReflTransGen (Step known force) e (heal known force e) := steps_heal e
    generalize heal known force e = healed at hsteps
    induction hsteps with
    | refl => exact ⟨.refl, he⟩
    | tail _ step ih => exact ⟨ih.1.tail (step.of_convertsAlike ih.2), ih.2.step step⟩
  exact heal_eq_heal h.1 fun e' step => step.of_convertsAlike h.2.symm

/-- Whether a field holds dates has no influence on what the expression heals to. -/
def HealsRegardless (force : Bool) (e : Expression) (name : String) : Prop :=
  ∀ known known' : String → Bool, (∀ f, f ≠ name → known f = known' f) →
    heal known force e = heal known' force e

theorem healsRegardless_of_unconverted (force : Bool) {e : Expression} (he : Unconverted name e) :
    HealsRegardless force e name := by
  intro known known' hknown
  refine ConvertsAlike.heal_eq fun f hf => ?_
  by_cases hname : f = name
  · rwa [hname]
  · exact absurd (hknown f hname) hf

/-- A step against one set is one against every set that takes more. -/
theorem Step.mono {e e' : Expression} (h : Step known force e e')
    (haccept : ∀ f, known f = true ∨ force = true → known' f = true ∨ force' = true) :
    Step known' force' e e' := by
  induction h with
  | remove converts accept => exact .remove converts (haccept _ accept)
  | entry before after step ih => exact .entry before after ih
  | item before after step ih => exact .item before after ih

theorem steps_mono {e e' : Expression} (h : ReflTransGen (Step known force) e e')
    (haccept : ∀ f, known f = true ∨ force = true → known' f = true ∨ force' = true) :
    ReflTransGen (Step known' force') e e' :=
  ReflTransGen.mono (fun _ _ step => Step.mono step haccept) _ _ h

/-- Where conversions are forced out, no field needs to be known. -/
theorem heal_forced (known known' : String → Bool) (e : Expression) :
    heal known true e = heal known' true e :=
  heal_eq_heal (steps_mono (steps_heal e) fun _ _ => Or.inr rfl)
    fun _ step => step.mono fun _ _ => Or.inr rfl

theorem healsRegardless_forced (e : Expression) (name : String) : HealsRegardless true e name :=
  fun known known' _ => heal_forced known known' e

end Inquiry.Dates
