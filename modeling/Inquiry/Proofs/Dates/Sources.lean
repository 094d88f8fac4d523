import Inquiry.Proofs.Dates.Judgement

/-!
# Where tracked names come from

A set is `Sourced` when exactly the tracked names that the schema does not know have a source.
Settling a name keeps that, so every stage and every run does. What a run leaves as the source of a
name is the stage that defined it as a date, and no stage after that one dropped it.
-/
namespace Inquiry

namespace DateFields

/-- Each tracked name that the schema does not know has one source, and no other name has any. -/
structure Sourced (schema : List String) (f : DateFields) : Prop where
  schema_eq : f.schema = schema
  single : (f.introduced.map (·.1)).Nodup
  names : ∀ name, name ∈ f.introduced.map (·.1) ↔ name ∈ f.tracked ∧ name ∉ schema

variable {schema : List String} {f : DateFields} {name n source src : String} {v : Option Bool}

theorem Sourced.seed (snapshot : Option Schema) :
    Sourced (DateFields.seed snapshot).schema (DateFields.seed snapshot) := by
  cases snapshot with
  | none => exact ⟨rfl, List.nodup_nil, by simp [DateFields.seed, empty]⟩
  | some s =>
    refine ⟨rfl, List.nodup_nil, fun name => ?_⟩
    constructor
    · intro h
      cases h
    · rintro ⟨htracked, hschema⟩
      obtain ⟨d, hd, rfl⟩ := List.mem_map.mp htracked
      exact absurd (List.mem_map_of_mem (List.mem_filter.mp hd).1) hschema

theorem Sourced.tracked (h : Sourced schema f) (hin : (name, src) ∈ f.introduced) :
    name ∈ f.tracked :=
  ((h.names name).mp (List.mem_map_of_mem hin)).1

theorem map_filter_names (n : String) (sources : List (String × String)) :
    (sources.filter (·.1 ≠ n)).map (·.1) = (sources.map (·.1)).filter (· ≠ n) := by
  rw [List.filter_map]
  rfl

theorem Sourced.track (h : Sourced schema f) (n source : String) :
    Sourced schema (f.track n source) := by
  unfold DateFields.track
  rw [contains_eq_decide, List.contains_eq_mem, h.schema_eq]
  by_cases htracked : n ∈ f.tracked
  · rwa [if_pos (decide_eq_true htracked)]
  · rw [if_neg (by simpa using htracked)]
    by_cases hknown : n ∈ schema
    · refine ⟨rfl, ?_, fun m => ?_⟩
      · simp only [hknown, decide_true, if_true]
        exact h.single
      · simp only [hknown, decide_true, if_true, h.names, List.mem_append, List.mem_singleton]
        constructor
        · rintro ⟨hm, hout⟩
          exact ⟨Or.inl hm, hout⟩
        · rintro ⟨hm | rfl, hout⟩
          · exact ⟨hm, hout⟩
          · exact absurd hknown hout
    · have hnew : n ∉ f.introduced.map (·.1) := fun hin => htracked ((h.names n).mp hin).1
      simp only [hknown, decide_false, Bool.false_eq_true, if_false]
      refine ⟨rfl, ?_, fun m => ?_⟩
      · rw [List.map_append]
        exact List.nodup_append'.mpr ⟨h.single, List.nodup_singleton n, by simpa using hnew⟩
      · rw [List.map_append, List.mem_append, h.names]
        constructor
        · rintro (⟨hm, hout⟩ | hm)
          · exact ⟨List.mem_append_left _ hm, hout⟩
          · obtain rfl := List.mem_singleton.mp hm
            exact ⟨List.mem_append_right _ List.mem_cons_self, hknown⟩
        · rintro ⟨hm, hout⟩
          exact (List.mem_append.mp hm).imp (fun hm => ⟨hm, hout⟩) id

theorem Sourced.untrack (h : Sourced schema f) (n : String) : Sourced schema (f.untrack n) := by
  unfold DateFields.untrack
  split
  · refine ⟨h.schema_eq, ?_, fun m => ?_⟩
    · rw [map_filter_names]
      exact h.single.filter _
    · rw [map_filter_names, List.mem_filter, List.mem_filter, h.names]
      tauto
  · exact h

theorem Sourced.settle (h : Sourced schema f) (n source : String) (v : Option Bool) :
    Sourced schema (f.settle n source v) := by
  rcases v with - | - | -
  · exact h
  · exact h.untrack n
  · exact h.track n source

/-- A source is there after a name is settled because the name was tracked just then, or because it
was there and its name was not dropped. -/
theorem Sourced.mem_settle (h : Sourced schema f)
    (hin : (name, src) ∈ (f.settle n source v).introduced) :
    (src = source ∧ (n, v) = (name, some true)) ∨
      ((name, src) ∈ f.introduced ∧ (n, v) ≠ (name, some false)) := by
  rw [introduced_settle] at hin
  rcases v with - | - | -
  · exact Or.inr ⟨hin, by simp⟩
  · rw [settledSources] at hin
    split at hin
    · obtain ⟨hold, hne⟩ := List.mem_filter.mp hin
      exact Or.inr ⟨hold, fun heq => (of_decide_eq_true hne) (Prod.mk.inj heq).1.symm⟩
    · rename_i hout
      refine Or.inr ⟨hin, fun heq => hout ?_⟩
      rw [(Prod.mk.inj heq).1, contains_eq_decide]
      exact decide_eq_true (h.tracked hin)
  · rw [settledSources] at hin
    split at hin
    · exact Or.inr ⟨hin, by simp⟩
    · rcases List.mem_append.mp hin with hold | hnew
      · exact Or.inr ⟨hold, by simp⟩
      · obtain ⟨rfl, rfl⟩ := Prod.mk.inj (List.mem_singleton.mp hnew)
        exact Or.inl ⟨rfl, rfl⟩

/-- Verdicts on names, one after the other. -/
def settleAll (source : String) (f : DateFields) (vs : List (String × Option Bool)) : DateFields :=
  vs.foldl (fun f v => f.settle v.1 source v.2) f

theorem Sourced.settleAll (h : Sourced schema f) (source : String)
    (vs : List (String × Option Bool)) : Sourced schema (f.settleAll source vs) := by
  induction vs generalizing f with
  | nil => exact h
  | cons v vs ih => exact ih (h.settle v.1 source v.2)

theorem Sourced.mem_settleAll {vs : List (String × Option Bool)} (h : Sourced schema f)
    (hin : (name, src) ∈ (f.settleAll source vs).introduced) :
    (src = source ∧ (name, some true) ∈ vs) ∨
      ((name, src) ∈ f.introduced ∧ (name, some false) ∉ vs) := by
  induction vs generalizing f with
  | nil => exact Or.inr ⟨hin, List.not_mem_nil⟩
  | cons v vs ih =>
    rcases ih (h.settle v.1 source v.2) hin with ⟨hsrc, hmem⟩ | ⟨hthere, hkept⟩
    · exact Or.inl ⟨hsrc, List.mem_cons_of_mem v hmem⟩
    · rcases h.mem_settle hthere with ⟨hsrc, hv⟩ | ⟨hold, hv⟩
      · exact Or.inl ⟨hsrc, List.mem_cons.mpr (Or.inl hv.symm)⟩
      · refine Or.inr ⟨hold, fun hmem => ?_⟩
        rcases List.mem_cons.mp hmem with heq | hmem
        · exact hv heq.symm
        · exact hkept hmem

end DateFields

namespace Dates

open DateFields (Sourced settleAll)

/-- What becomes of the names that are defined, each judged by the set that those before it left. -/
def verdicts (projected : Bool) (source : String) (f : DateFields) :
    List (String × Expression) → List (String × Option Bool)
  | [] => []
  | d :: ds =>
    (d.1, verdict projected f.contains d.2) ::
      verdicts projected source (judge projected source f d) ds

/-- The names that a stage settles, in the order in which it does. -/
def stageVerdicts (index : Nat) (s : Stage) (f : DateFields) : List (String × Option Bool) :=
  if s.operator = "$unset" then (unsetNames s.spec).map (·, some false)
  else verdicts (projects s) (sourceText index s.operator) f (stageDefinitions s)

theorem foldl_judge_eq_settleAll (projected : Bool) (source : String)
    (ds : List (String × Expression)) (f : DateFields) :
    ds.foldl (judge projected source) f =
      f.settleAll source (verdicts projected source f ds) := by
  induction ds generalizing f with
  | nil => rfl
  | cons d ds ih => exact ih (judge projected source f d)

theorem propagate_eq_settleAll (index : Nat) (s : Stage) (f : DateFields) :
    propagate index s f =
      f.settleAll (sourceText index s.operator) (stageVerdicts index s f) := by
  unfold stageVerdicts
  by_cases hunset : s.operator = "$unset"
  · rw [if_pos hunset, propagate_of_unset hunset, settleAll, List.foldl_map]
    rfl
  · rw [if_neg hunset, propagate_eq_foldl hunset, foldl_judge_eq_settleAll]

/-- The stage defines the name by an expression that yields a date, judged by the set that `f` has
become through the definitions before it. -/
def Introduces (index : Nat) (s : Stage) (f : DateFields) (name : String) : Prop :=
  ∃ before e after, stageDefinitions s = before ++ (name, e) :: after ∧
    yieldsDate (before.foldl (judge (projects s) (sourceText index s.operator)) f).contains e = true

/-- The stage takes the name out of the set, if it is there. -/
def Drops (index : Nat) (s : Stage) (f : DateFields) (name : String) : Prop :=
  (name, some false) ∈ stageVerdicts index s f

variable {schema : List String} {f : DateFields} {name source src : String} {projected : Bool}

theorem yieldsDate_of_verdict {known : String → Bool} {e : Expression}
    (h : verdict projected known e = some true) : yieldsDate known e = true := by
  unfold verdict at h
  split at h
  · cases h
  · cases h
  · exact Option.some.inj h

theorem exists_definition_of_verdict {ds : List (String × Expression)}
    (h : (name, some true) ∈ verdicts projected source f ds) :
    ∃ before e after, ds = before ++ (name, e) :: after ∧
      yieldsDate (before.foldl (judge projected source) f).contains e = true := by
  induction ds generalizing f with
  | nil => cases h
  | cons d ds ih =>
    rcases List.mem_cons.mp h with hd | hds
    · obtain ⟨rfl, hverdict⟩ := Prod.mk.inj hd
      exact ⟨[], d.2, ds, rfl, yieldsDate_of_verdict hverdict.symm⟩
    · obtain ⟨before, e, after, rfl, hyields⟩ := ih hds
      exact ⟨d :: before, e, after, rfl, hyields⟩

theorem introduces_of_verdict {index : Nat} {s : Stage}
    (h : (name, some true) ∈ stageVerdicts index s f) : Introduces index s f name := by
  unfold stageVerdicts at h
  split at h
  · obtain ⟨n, -, hn⟩ := List.mem_map.mp h
    cases hn
  · exact exists_definition_of_verdict h

theorem sourced_propagate (h : Sourced schema f) (index : Nat) (s : Stage) :
    Sourced schema (propagate index s f) := by
  rw [propagate_eq_settleAll]
  exact h.settleAll _ _

/-- A source after a stage is this stage, which defined the name as a date, or is an older one, and
then the stage did not drop the name. -/
theorem mem_introduced_propagate (h : Sourced schema f) {index : Nat} {s : Stage}
    (hin : (name, src) ∈ (propagate index s f).introduced) :
    (src = sourceText index s.operator ∧ Introduces index s f name) ∨
      ((name, src) ∈ f.introduced ∧ ¬ Drops index s f name) := by
  rw [propagate_eq_settleAll] at hin
  exact (h.mem_settleAll hin).imp_left fun ⟨hsrc, hmem⟩ => ⟨hsrc, introduces_of_verdict hmem⟩

variable {force : Bool} {index : Nat} {p before : Progress} {s : Stage}

/-- The run comes to the stage `s`, `i` places on, with the progress `before`. -/
structure Reaches (force : Bool) (index : Nat) (p : Progress) (vs : List Value) (i : Nat)
    (before : Progress) (s : Stage) : Prop where
  stage : ∃ v, vs[i]? = some v ∧ Stage.ofValue ((index + i : Nat) : Int) v = .ok s
  run : ∃ out, healStages force index p (vs.take i) = (before, .ok out)

theorem reaches_zero_iff {v : Value} {vs : List Value} :
    Reaches force index p (v :: vs) 0 before s ↔ Stage.ofValue index v = .ok s ∧ before = p := by
  constructor
  · rintro ⟨⟨w, hw, hs⟩, out, hrun⟩
    cases hw
    exact ⟨hs, (healStages_nil_ok_iff.mp hrun).1⟩
  · rintro ⟨hs, rfl⟩
    exact ⟨⟨v, rfl, hs⟩, [], rfl⟩

theorem reaches_succ_iff {v : Value} {vs : List Value} {i : Nat} :
    Reaches force index p (v :: vs) (i + 1) before s ↔
      ∃ t, Stage.ofValue index v = .ok t ∧
        Reaches force (index + 1) (p.step force index t).1 vs i before s := by
  have hindex : index + (i + 1) = index + 1 + i := by omega
  constructor
  · rintro ⟨⟨w, hw, hs⟩, out, hrun⟩
    obtain ⟨t, rest, ht, hrest, -⟩ := healStages_cons_ok_iff.mp hrun
    exact ⟨t, ht, ⟨w, hw, by rwa [hindex] at hs⟩, rest, hrest⟩
  · rintro ⟨t, ht, ⟨w, hw, hs⟩, rest, hrest⟩
    exact ⟨⟨w, hw, by rwa [hindex]⟩, _, healStages_cons_ok_iff.mpr ⟨t, rest, ht, hrest, rfl⟩⟩

theorem sourced_healStages (h : Sourced schema p.fields) (vs : List Value) :
    Sourced schema (healStages force index p vs).1.fields := by
  induction vs generalizing index p with
  | nil => exact h
  | cons v vs ih =>
    cases hs : Stage.ofValue index v with
    | error m => rwa [healStages_cons_of_error hs]
    | ok s =>
      rw [healStages_cons_of_ok hs]
      exact ih (sourced_propagate h index _)

/-- No stage from the number `first` on that the run comes to drops the name. -/
def KeptFrom (force : Bool) (index : Nat) (p : Progress) (vs : List Value) (name : String)
    (first : Nat) : Prop :=
  ∀ k before s, first ≤ k → Reaches force index p vs k before s →
    ¬ Drops (index + k) (healStage before.fields.contains force s) before.fields name

/-- The stage with the number `i` defines the name as a date where the run comes to it. -/
structure IntroducedAt (force : Bool) (index : Nat) (p : Progress) (vs : List Value)
    (name src : String) (i : Nat) : Prop where
  stage : ∃ before s, Reaches force index p vs i before s ∧
    src = sourceText (index + i) s.operator ∧
    Introduces (index + i) (healStage before.fields.contains force s) before.fields name
  kept : KeptFrom force index p vs name (i + 1)

section Cons

variable {v : Value} {vs : List Value} {t : Stage} (ht : Stage.ofValue index v = .ok t)
include ht

theorem KeptFrom.cons {first : Nat}
    (h : KeptFrom force (index + 1) (p.step force index t).1 vs name first) :
    KeptFrom force index p (v :: vs) name (first + 1) := by
  intro k before s hk hreaches
  obtain ⟨k, rfl⟩ := Nat.exists_eq_succ_of_ne_zero (by omega : k ≠ 0)
  obtain ⟨t', ht', hrest⟩ := reaches_succ_iff.mp hreaches
  obtain rfl : t = t' := Except.ok.inj (ht.symm.trans ht')
  have hindex : index + (k + 1) = index + 1 + k := by omega
  rw [Nat.succ_eq_add_one, hindex]
  exact h k before s (by omega) hrest

/-- A name is kept from the first stage on if that one keeps it too. -/
theorem KeptFrom.head (h : KeptFrom force index p (v :: vs) name 1)
    (hhead : ¬ Drops index (healStage p.fields.contains force t) p.fields name) :
    KeptFrom force index p (v :: vs) name 0 := by
  intro k before s _ hreaches
  cases k with
  | zero =>
    obtain ⟨hs, rfl⟩ := reaches_zero_iff.mp hreaches
    obtain rfl : t = s := Except.ok.inj (ht.symm.trans hs)
    exact hhead
  | succ k => exact h (k + 1) before s (by omega) hreaches

theorem IntroducedAt.cons {i : Nat}
    (h : IntroducedAt force (index + 1) (p.step force index t).1 vs name src i) :
    IntroducedAt force index p (v :: vs) name src (i + 1) := by
  obtain ⟨before, s, hreaches, hsrc, hdefines⟩ := h.stage
  have hindex : index + (i + 1) = index + 1 + i := by omega
  refine ⟨⟨before, s, reaches_succ_iff.mpr ⟨t, ht, hreaches⟩, ?_, ?_⟩, h.kept.cons ht⟩
  · rwa [hindex]
  · rwa [hindex]

end Cons

/-- A source after a run is an older one, and then no stage dropped its name, or it is a stage of
the run that defined the name as a date, and then no later one dropped it. -/
theorem mem_introduced_healStages {vs : List Value} (h : Sourced schema p.fields)
    (hin : (name, src) ∈ (healStages force index p vs).1.fields.introduced) :
    ((name, src) ∈ p.fields.introduced ∧ KeptFrom force index p vs name 0) ∨
      ∃ i, IntroducedAt force index p vs name src i := by
  induction vs generalizing index p with
  | nil =>
    refine Or.inl ⟨hin, fun k before s _ hreaches => ?_⟩
    obtain ⟨v, hv, -⟩ := hreaches.stage
    cases hv
  | cons v vs ih =>
    cases ht : Stage.ofValue index v with
    | error m =>
      rw [healStages_cons_of_error ht] at hin
      refine Or.inl ⟨hin, fun k before s _ hreaches => ?_⟩
      cases k with
      | zero =>
        obtain ⟨hs, -⟩ := reaches_zero_iff.mp hreaches
        rw [ht] at hs
        cases hs
      | succ k =>
        obtain ⟨t, hs, -⟩ := reaches_succ_iff.mp hreaches
        rw [ht] at hs
        cases hs
    | ok t =>
      rw [healStages_cons_of_ok ht] at hin
      rcases ih (sourced_propagate h index _) hin with ⟨hold, hkept⟩ | ⟨i, hi⟩
      · rcases mem_introduced_propagate h hold with ⟨hsrc, hdefines⟩ | ⟨hold, hhead⟩
        · refine Or.inr ⟨0, ⟨p, t, reaches_zero_iff.mpr ⟨ht, rfl⟩, hsrc, hdefines⟩, ?_⟩
          exact hkept.cons ht
        · exact Or.inl ⟨hold, (hkept.cons ht).head ht hhead⟩
      · exact Or.inr ⟨i + 1, hi.cons ht⟩

end Dates

end Inquiry
