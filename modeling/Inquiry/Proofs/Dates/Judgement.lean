import Inquiry.Proofs.Dates.FieldSets
import Inquiry.Proofs.Dates.Rewriting
import Inquiry.Proofs.Dates.Run

/-!
# The definitions of one stage

A stage settles the names that it defines one after the other, in the order of its spec, and each is
judged by the set that those before it left. Definitions that do not read the names of one another are
judged by the set before the stage, and then the order of the spec does not count.
-/
namespace Inquiry.Dates

open DateFields (Alike)

/-- The flag that a definition is. Only a projection has flags. -/
def flag? (projected : Bool) (e : Expression) : Option Bool :=
  if projected then projectionFlag? e else none

/-- What becomes of the name that is defined; a flag that keeps it is no verdict. -/
def verdict (projected : Bool) (known : String → Bool) (e : Expression) : Option Bool :=
  match flag? projected e with
  | some true => none
  | some false => some false
  | none => some (yieldsDate known e)

theorem verdict_of_no_flag {projected : Bool} {known : String → Bool} {e : Expression}
    (h : flag? projected e = none) : verdict projected known e = some (yieldsDate known e) := by
  rw [verdict, h]

/-- One definition of a stage. -/
def judge (projected : Bool) (source : String) (f : DateFields) (d : String × Expression) :
    DateFields :=
  f.settle d.1 source (verdict projected f.contains d.2)

theorem define_eq_judge (source : String) : define source = judge false source := by
  funext f d
  rw [define, judge, verdict_of_no_flag rfl]
  cases yieldsDate f.contains d.2 <;> rfl

theorem project_eq_judge (source : String) : project source = judge true source := by
  funext f d
  have hflag : flag? true d.2 = projectionFlag? d.2 := rfl
  rw [project, judge, verdict, hflag, define_eq_judge]
  cases projectionFlag? d.2 with
  | none => rfl
  | some flag => cases flag <;> rfl

/-- The definitions of a stage, in the order of its spec. -/
def stageDefinitions (s : Stage) : List (String × Expression) :=
  if s.operator = "$addFields" ∨ s.operator = "$set" ∨ s.operator = "$project" then
    match s.spec with
    | .keyed es => definitions "" es
    | _ => []
  else if s.operator = "$group" then
    match s.spec with
    | .keyed es => groupDefinitions es
    | _ => []
  else if s.operator = "$replaceRoot" then
    match s.spec.get? "newRoot" with
    | some root => rootDefinitions root
    | none => []
  else if s.operator = "$replaceWith" then rootDefinitions s.spec
  else []

/-- Whether the stage is a projection, where flags are no definitions. -/
def projects (s : Stage) : Bool := s.operator = "$project"

/-- A stage that drops no names settles what it defines. -/
theorem propagate_eq_foldl {s : Stage} (h : s.operator ≠ "$unset") (index : Nat) (f : DateFields) :
    propagate index s f =
      (stageDefinitions s).foldl (judge (projects s) (sourceText index s.operator)) f := by
  obtain ⟨operator, spec⟩ := s
  dsimp only at h
  by_cases hproject : operator = "$project"
  · subst hproject
    cases spec with
    | keyed es => exact congrArg (fun step => (definitions "" es).foldl step f) (project_eq_judge _)
    | _ => rfl
  have hprojects : projects ⟨operator, spec⟩ = false := decide_eq_false hproject
  rw [hprojects, ← define_eq_judge]
  unfold propagate stageDefinitions
  simp only [hproject, or_false, if_false, if_neg h]
  split
  · cases spec <;> rfl
  · split
    · cases spec <;> rfl
    · split
      · cases spec.get? "newRoot" <;> rfl
      · split <;> rfl

variable {projected : Bool} {source : String} {f g : DateFields} {c d : String × Expression}

theorem contains_judge (h : flag? projected d.2 = none) :
    (judge projected source f d).contains d.1 = yieldsDate f.contains d.2 := by
  rw [judge, verdict_of_no_flag h, DateFields.contains_settle]

theorem contains_judge_of_ne {name : String} (h : name ≠ d.1) :
    (judge projected source f d).contains name = f.contains name :=
  DateFields.contains_settle_of_ne h

theorem contains_foldl_judge_of_not_mem {name : String} {ds : List (String × Expression)}
    (h : ∀ d ∈ ds, name ≠ d.1) :
    (ds.foldl (judge projected source) f).contains name = f.contains name := by
  induction ds generalizing f with
  | nil => rfl
  | cons d ds ih =>
    obtain ⟨hd, hds⟩ := List.forall_mem_cons.mp h
    rw [List.foldl_cons, ih hds, contains_judge_of_ne hd]

/-- A definition is judged by the set that those before it left. -/
theorem contains_foldl_judge {as bs : List (String × Expression)}
    (hflag : flag? projected d.2 = none) (hbs : ∀ b ∈ bs, d.1 ≠ b.1) :
    ((as ++ d :: bs).foldl (judge projected source) f).contains d.1 =
      yieldsDate (as.foldl (judge projected source) f).contains d.2 := by
  rw [List.foldl_append, List.foldl_cons, contains_foldl_judge_of_not_mem hbs, contains_judge hflag]

theorem alike_judge (h : f.Alike g) :
    (judge projected source f d).Alike (judge projected source g d) := by
  rw [judge, judge, h.contains]
  exact h.settle

theorem alike_foldl_judge (h : f.Alike g) (ds : List (String × Expression)) :
    (ds.foldl (judge projected source) f).Alike (ds.foldl (judge projected source) g) := by
  induction ds generalizing f g with
  | nil => exact h
  | cons d ds ih => exact ih (alike_judge h)

theorem propagate_of_unset {s : Stage} (h : s.operator = "$unset") (index : Nat)
    (f : DateFields) :
    propagate index s f = (unsetNames s.spec).foldl DateFields.untrack f := by
  unfold propagate
  rw [h]
  rfl

/-- A relation between sets that ask alike, and that settling one name keeps, is kept by a stage. -/
theorem propagate_related {related : DateFields → DateFields → Prop} {i j : Nat} {s : Stage}
    (contains : ∀ f g, related f g → f.contains = g.contains)
    (settle : ∀ f g name v, related f g → related (f.settle name (sourceText i s.operator) v)
      (g.settle name (sourceText j s.operator) v)) (h : related f g) :
    related (propagate i s f) (propagate j s g) := by
  by_cases hunset : s.operator = "$unset"
  · rw [propagate_of_unset hunset, propagate_of_unset hunset]
    generalize unsetNames s.spec = names
    induction names generalizing f g with
    | nil => exact h
    | cons name names ih => exact ih (settle f g name (some false) h)
  · rw [propagate_eq_foldl hunset, propagate_eq_foldl hunset]
    generalize stageDefinitions s = ds
    induction ds generalizing f g with
    | nil => exact h
    | cons d ds ih =>
      refine ih ?_
      rw [judge, judge, contains f g h]
      exact settle f g d.1 _ h

theorem alike_propagate (h : f.Alike g) (index : Nat) (s : Stage) :
    (propagate index s f).Alike (propagate index s g) :=
  propagate_related (fun _ _ h => h.contains) (fun _ _ _ _ h => h.settle) h

/-- Whether a field holds dates has no influence on whether the expression yields one. -/
def Ignores (e : Expression) (name : String) : Prop :=
  ∀ known known' : String → Bool, (∀ m, m ≠ name → known m = known' m) →
    yieldsDate known e = yieldsDate known' e

/-- Definitions of different names, none of which reads the name of another one. -/
structure Apart (ds : List (String × Expression)) : Prop where
  names : (ds.map (·.1)).Nodup
  ignores : ∀ d ∈ ds, ∀ c ∈ ds, c.1 ≠ d.1 → Ignores d.2 c.1

theorem verdict_judge (projected : Bool) (source : String) (f : DateFields)
    (h : Ignores d.2 c.1) :
    verdict projected (judge projected source f c).contains d.2 =
      verdict projected f.contains d.2 := by
  unfold verdict
  rw [h _ f.contains fun m hm => contains_judge_of_ne hm]

theorem yieldsDate_foldl_judge {e : Expression} {ds : List (String × Expression)}
    (h : ∀ c ∈ ds, Ignores e c.1) :
    yieldsDate (ds.foldl (judge projected source) f).contains e = yieldsDate f.contains e := by
  induction ds generalizing f with
  | nil => rfl
  | cons c ds ih =>
    obtain ⟨hc, hds⟩ := List.forall_mem_cons.mp h
    rw [List.foldl_cons, ih hds, hc _ f.contains fun m hm => contains_judge_of_ne hm]

/-- Definitions apart from one another are all judged by the set before the first of them. -/
theorem Apart.contains_foldl {ds : List (String × Expression)} (h : Apart ds) (hd : d ∈ ds)
    (hflag : flag? projected d.2 = none) :
    (ds.foldl (judge projected source) f).contains d.1 = yieldsDate f.contains d.2 := by
  obtain ⟨as, bs, rfl⟩ := List.append_of_mem hd
  have hnames := h.names
  rw [List.map_append, List.map_cons, List.nodup_middle, List.nodup_cons, List.mem_append] at hnames
  obtain ⟨hnotin, -⟩ := hnames
  have hother (c : String × Expression) (hc : c ∈ as ++ bs) : c.1 ≠ d.1 := by
    intro heq
    rcases List.mem_append.mp hc with hc | hc
    · exact hnotin (Or.inl (heq ▸ List.mem_map_of_mem hc))
    · exact hnotin (Or.inr (heq ▸ List.mem_map_of_mem hc))
  rw [contains_foldl_judge hflag fun b hb => (hother b (List.mem_append_right _ hb)).symm]
  refine yieldsDate_foldl_judge fun c hc => h.ignores d hd c ?_ (hother c (List.mem_append_left _ hc))
  exact List.mem_append_left _ hc

theorem Apart.perm {ds ds' : List (String × Expression)} (h : Apart ds) (hperm : ds.Perm ds') :
    Apart ds' := by
  refine ⟨(hperm.map _).nodup_iff.mp h.names, fun d hd c hc => ?_⟩
  exact h.ignores d (hperm.mem_iff.mpr hd) c (hperm.mem_iff.mpr hc)

theorem Apart.tail {ds : List (String × Expression)} (h : Apart (d :: ds)) : Apart ds := by
  obtain ⟨-, hnames⟩ := List.nodup_cons.mp h.names
  exact ⟨hnames, fun d hd c hc => h.ignores d (List.mem_cons_of_mem _ hd) c
    (List.mem_cons_of_mem _ hc)⟩

/-- Two definitions apart from one another settle their names in either order. -/
theorem judge_judge (projected : Bool) (source : String) (f : DateFields) (hne : d.1 ≠ c.1)
    (hd : Ignores d.2 c.1) (hc : Ignores c.2 d.1) :
    (judge projected source (judge projected source f d) c).Alike
      (judge projected source (judge projected source f c) d) := by
  have hd' := verdict_judge projected source f hd
  have hc' := verdict_judge projected source f hc
  unfold judge at hd' hc' ⊢
  rw [hd', hc']
  exact DateFields.settle_settle hne

/-- The order of definitions apart from one another does not count. -/
theorem Apart.foldl_perm {ds ds' : List (String × Expression)} (h : Apart ds)
    (hperm : ds.Perm ds') (hfg : f.Alike g) :
    (ds.foldl (judge projected source) f).Alike (ds'.foldl (judge projected source) g) := by
  induction hperm generalizing f g with
  | nil => exact hfg
  | cons d _ ih => exact ih h.tail (alike_judge hfg)
  | swap d c ds =>
    have hne : c.1 ≠ d.1 := by
      intro heq
      have hnames := h.names
      rw [List.map_cons, List.map_cons, List.nodup_cons, heq] at hnames
      exact hnames.1 List.mem_cons_self
    have hswap := judge_judge projected source f hne
      (h.ignores c List.mem_cons_self d (by simp) hne.symm)
      (h.ignores d (by simp) c List.mem_cons_self hne)
    exact alike_foldl_judge (hswap.trans (alike_judge (alike_judge hfg))) ds
  | trans hfirst _ ih ih' => exact (ih h hfg).trans (ih' (h.perm hfirst) (DateFields.Alike.refl g))

end Inquiry.Dates
