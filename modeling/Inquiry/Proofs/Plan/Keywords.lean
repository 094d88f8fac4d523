import Inquiry.Proofs.Dates.Untouched
import Inquiry.Proofs.Plan.Shaped

/-!
# Healing leaves plans by keywords alone

A plan by keywords takes a date part only of a date of its collection, which the set of date fields
is seeded with, and converts nothing. Field names may be anything, so a name can repeat a key of a
stage or look like an operator; but a document with `_id` and a measure has two keys, and no
operator call has two.
-/
namespace Inquiry.Keywords

open Dates

variable {known : String → Bool} {question : String} {s : Schema}

theorem insertEntry_doc {es : List (Value × Value)} {fs : List (String × Value)}
    (h : Value.dict es = .doc fs) (key : String) (v : Value) :
    ∃ gs, Value.dict (Value.insertEntry (.str key) v es) = .doc gs ∧ gs ⊆ (key, v) :: fs ∧
      key :: fs.map Prod.fst ⊆ gs.map Prod.fst := by
  obtain rfl := Value.dict.inj h
  clear h
  induction fs with
  | nil => exact ⟨[(key, v)], rfl, List.Subset.refl _, List.Subset.refl _⟩
  | cons f fs ih =>
    obtain ⟨k, w⟩ := f
    have hsame : Value.same (.str k) (.str key) = (k == key) := rfl
    rw [List.map_cons, Value.insertEntry, hsame]
    split
    · rename_i hkey
      obtain rfl := beq_iff_eq.mp hkey
      refine ⟨(k, v) :: fs, rfl, ?_, ?_⟩
      · exact List.cons_subset_cons _ (List.subset_cons_self _ _)
      · exact List.cons_subset.mpr ⟨List.mem_cons_self, List.Subset.refl _⟩
    · obtain ⟨gs, hgs, hsub, hkeys⟩ := ih
      obtain ⟨hkey, hkeys⟩ := List.cons_subset.mp hkeys
      refine ⟨(k, w) :: gs, ?_, ?_, ?_⟩
      · rw [Value.dict.inj hgs]
        rfl
      · refine List.cons_subset.mpr ⟨by simp, fun g hg => ?_⟩
        rcases List.mem_cons.mp (hsub hg) with rfl | hfs
        · exact List.mem_cons_self
        · exact List.mem_cons_of_mem _ (List.mem_cons_of_mem _ hfs)
      · refine List.cons_subset.mpr ⟨List.mem_cons_of_mem _ hkey, ?_⟩
        exact List.cons_subset_cons _ hkeys

/-- A mapping is a document of some of its entries, among them one for each key. -/
theorem exists_fields (entries : List (String × Value)) :
    ∃ fs, fields entries = .doc fs ∧ fs ⊆ entries ∧
      entries.map Prod.fst ⊆ fs.map Prod.fst := by
  -- Inserted after the fields that are there, the entries come from both and so do the keys.
  suffices h : ∀ es fs, Value.dict es = .doc fs → ∃ gs,
      Value.dict ((entries.map fun e => (.str e.1, e.2)).foldl
        (fun es p => Value.insertEntry p.1 p.2 es) es) = .doc gs ∧ gs ⊆ fs ++ entries ∧
        (fs ++ entries).map Prod.fst ⊆ gs.map Prod.fst by
    exact h [] [] rfl
  induction entries with
  | nil => exact fun es fs h => ⟨fs, h, by simp, by simp⟩
  | cons e entries ih =>
    intro es fs h
    obtain ⟨gs, hgs, hsub, hkeys⟩ := insertEntry_doc h e.1 e.2
    obtain ⟨hs, hhs, hsub', hkeys'⟩ := ih _ gs hgs
    refine ⟨hs, hhs, ?_, ?_⟩
    · intro d hd
      rcases List.mem_append.mp (hsub' hd) with hg | he
      · rcases List.mem_cons.mp (hsub hg) with rfl | hf
        · exact List.mem_append_right _ List.mem_cons_self
        · exact List.mem_append_left _ hf
      · exact List.mem_append_right _ (List.mem_cons_of_mem _ he)
    · rw [List.map_append] at hkeys' ⊢
      obtain ⟨hgs', hentries⟩ := List.append_subset.mp hkeys'
      obtain ⟨he, hfs⟩ := List.cons_subset.mp hkeys
      have hfs' := List.Subset.trans hfs hgs'
      exact List.append_subset.mpr ⟨hfs', List.cons_subset.mpr ⟨hgs' he, hentries⟩⟩

/-- A mapping with two keys is untouched if its values are. -/
theorem untouched_fields {entries : List (String × Value)} {key key' : String} (hne : key ≠ key')
    (hkey : key ∈ entries.map Prod.fst) (hkey' : key' ∈ entries.map Prod.fst)
    (h : ∀ e ∈ entries, Untouched known e.2) : Untouched known (fields entries) := by
  obtain ⟨fs, hfs, hsub, hkeys⟩ := exists_fields entries
  rw [hfs]
  refine untouched_doc ?_ fun f hf _ => h f (hsub hf)
  rintro op v rfl
  have hop : key = op := List.mem_singleton.mp (hkeys hkey)
  have hop' : key' = op := List.mem_singleton.mp (hkeys hkey')
  exact absurd (hop.trans hop'.symm) hne

/-- The name of a measure is neither an operator nor the key of the groups, whatever the fields are
called. -/
theorem pickMeasure_name (question : String) (s : Schema) :
    isOperatorName (pickMeasure question s).name = false ∧
      "_id" ≠ (pickMeasure question s).name := by
  rcases pickMeasure_cases question s with ⟨f, -, hm⟩ | hm
  · have hname : ∃ rest, (compound "total" f).toList = 't' :: rest := by
      rw [compound, String.toList_append]
      exact ⟨_, rfl⟩
    obtain ⟨rest, hrest⟩ := hname
    rw [hm]
    constructor
    · rw [isOperatorName, hrest]
      simp
    · rintro (heq : "_id" = compound "total" f)
      rw [← heq] at hrest
      cases hrest
  · rw [hm]
    decide

/-- The first entry with a property of its key is the first one with that key. -/
theorem lookup_of_find? {β : Type} {q : String → Bool} {l : List (String × β)} {e : String × β}
    (h : l.find? (fun e => q e.1) = some e) : l.lookup e.1 = some e.2 := by
  induction l with
  | nil => cases h
  | cons d l ih =>
    rw [List.find?_cons] at h
    split at h
    · cases h
      exact List.lookup_cons_self
    · rename_i hd
      have hne : e.1 ≠ d.1 := by
        intro heq
        have he := List.find?_some h
        rw [heq, hd] at he
        cases he
      rw [List.lookup_cons, beq_eq_false_iff_ne.mpr hne]
      exact ih h

theorem lookup_pickCollection (question : String) (first : String × Schema) (rest : Schemas) :
    (first :: rest).lookup (pickCollection question first rest).1 =
      some (pickCollection question first rest).2 := by
  unfold pickCollection
  cases h : (first :: rest).find? fun s => namesCollection question s.1 with
  | none => exact List.lookup_cons_self
  | some e => exact lookup_of_find? h

theorem untouched_int (n : Int) : Untouched known (.int n) :=
  untouched_leaf rfl fun _ h => nomatch h

/-- A document with one key that names no operator. -/
theorem untouched_order {name : String} (h : isOperatorName name = false) (n : Int) :
    Untouched known (.doc [(name, .int n)]) := by
  have hall : ∀ op ∈ conversionOperators ++ partOperators, isOperatorName op = true := by decide
  have hname : name ∉ conversionOperators ++ partOperators := by
    intro hop
    rw [hall name hop] at h
    cases h
  rw [List.mem_append, not_or] at hname
  refine untouched_doc ?_ (by simpa using fun _ => untouched_int n)
  rintro op v hop
  cases hop
  exact hname

theorem untouched_sum {v : Value} (h : Untouched known v) :
    Untouched known (.doc [("$sum", v)]) := by
  refine untouched_doc ?_ (by simpa using h)
  rintro op w hop
  cases hop
  decide

theorem untouched_accumulator (question : String) (s : Schema) :
    Untouched known (pickMeasure question s).accumulator := by
  rcases pickMeasure_cases question s with ⟨f, -, hm⟩ | hm
  · rw [hm]
    exact untouched_sum (untouched_str _)
  · rw [hm]
    exact untouched_sum (untouched_int 1)

theorem untouched_source {c : Category} (h : pickCategory question s = some c) :
    Untouched (DateFields.seed (some s)).contains c.source := by
  rcases pickCategory_cases h with ⟨date, hdate, rfl⟩ | ⟨f, -, rfl⟩
  · refine untouched_part (by decide) fun path hpath => ?_
    have hsign : "$" ++ path = "$" ++ date := Expression.sign_append_fieldPath? hpath
    rw [(String.append_right_inj "$").mp hsign]
    exact List.contains_iff_mem.mpr hdate
  · exact untouched_str _

theorem untouched_groupStage {source : Value} (question : String) (h : Untouched known source) :
    UntouchedStage known (groupStage source (pickMeasure question s)) := by
  obtain ⟨-, hid⟩ := pickMeasure_name question s
  refine untouchedStage_doc (by decide) (by decide) (by decide) ?_
  refine untouched_fields hid (by simp) (by simp) ?_
  simpa using ⟨h, untouched_accumulator question s⟩

theorem untouched_projectStage {entries : List (String × Value)} (question : String) (s : Schema)
    (hid : "_id" ∈ entries.map Prod.fst)
    (hname : (pickMeasure question s).name ∈ entries.map Prod.fst)
    (h : ∀ e ∈ entries, Untouched known e.2) :
    UntouchedStage known (.doc [("$project", fields entries)]) := by
  obtain ⟨-, hne⟩ := pickMeasure_name question s
  refine untouchedStage_doc (by decide) (by decide) (by decide) ?_
  exact untouched_fields hne hid hname h

theorem untouched_sortStage {c : Category} (h : pickCategory question s = some c) :
    UntouchedStage known (.doc [("$sort", if c.byMonth then .doc [(c.name, .int 1)]
      else .doc [((pickMeasure question s).name, .int (-1))])]) := by
  obtain ⟨hname, -⟩ := pickMeasure_name question s
  refine untouchedStage_doc (by decide) (by decide) (by decide) ?_
  rcases pickCategory_cases h with ⟨date, -, rfl⟩ | ⟨f, -, rfl⟩
  · have hmonth : isOperatorName "month" = false := by decide
    exact untouched_order hmonth 1
  · exact untouched_order hname (-1)

theorem untouched_limitStage : UntouchedStage known (.doc [("$limit", .int groupLimit)]) :=
  untouchedStage_doc (by decide) (by decide) (by decide) (untouched_int _)

/-- Groups come first, and what comes after them is untouched whatever is known. -/
theorem exists_stages (primary question : String) (s : Schema) :
    ∃ group later,
      (planFor primary (pickCategory question s) (pickMeasure question s)).pipeline =
        group :: later ∧
      UntouchedStage (DateFields.seed (some s)).contains group ∧
      ∀ v ∈ later, ∀ known, UntouchedStage known v := by
  cases hc : pickCategory question s with
  | none =>
    have hsource : Untouched (DateFields.seed (some s)).contains .null :=
      untouched_leaf rfl fun _ h => nomatch h
    refine ⟨_, _, rfl, untouched_groupStage question hsource, ?_⟩
    refine List.forall_mem_singleton.mpr fun known => ?_
    refine untouched_projectStage question s (by simp) (by simp) ?_
    simpa using ⟨untouched_int 0, untouched_int 1⟩
  | some c =>
    refine ⟨_, _, rfl, untouched_groupStage question (untouched_source hc), ?_⟩
    refine List.forall_mem_cons.mpr ⟨fun known => ?_, List.forall_mem_cons.mpr
      ⟨fun known => untouched_sortStage hc, List.forall_mem_singleton.mpr fun known =>
        untouched_limitStage⟩⟩
    refine untouched_projectStage question s (by simp) (by simp) ?_
    simpa using ⟨untouched_int 0, untouched_str _, untouched_int 1⟩

/-- Healing the pipeline of a plan by keywords, from the date fields of the plan's collection and
with any collections forced, succeeds with the same pipeline and no diagnostic. -/
theorem healPipeline_plan (query : String) (first : String × Schema) (rest : Schemas)
    (forced : List String) :
    ∃ schema p', (first :: rest).lookup (plan query first rest).primary = some schema ∧
      healPipeline forced (.start (.seed (some schema))) (plan query first rest).primary
        (.list (plan query first rest).pipeline) = (p', .ok (plan query first rest).pipeline) ∧
      p'.diagnostics = [] := by
  unfold plan
  generalize Text.trim (Text.lower query) = question
  have hlookup := lookup_pickCollection question first rest
  dsimp only
  generalize pickCollection question first rest = picked at hlookup ⊢
  obtain ⟨primary, schema⟩ := picked
  obtain ⟨group, later, hpipeline, hgroup, hlater⟩ := exists_stages primary question schema
  -- Only the groups are judged by the seeded set; the set that they leave does not matter.
  let seeded : Progress := .start (.seed (some schema))
  obtain ⟨q, hq, hcons⟩ := @healStages_cons_of_untouched (forced.contains primary) 0 seeded group
    hgroup later
  obtain ⟨p', hrun, hp'⟩ := healStages_of_untouched hlater (forced.contains primary) 1 q
  refine ⟨schema, p', hlookup, ?_, hp'.trans hq⟩
  refine healPipeline_ok_iff.mpr ⟨_, rfl, ?_⟩
  dsimp only
  rw [hpipeline]
  refine hcons.trans ?_
  rw [hrun]
  rfl

end Inquiry.Keywords
