import Inquiry.Dates.Fields
import Mathlib.Data.List.Sort
import Mathlib.Data.String.Basic

/-!
# Sets of date fields

Nothing that asks a set for a name sees in which order its names came in, so two sets are `Alike` when
they differ in that order only. Settling different names one after the other gives alike sets in
either order.
-/
namespace Inquiry.DateFields

/-- Two sets of the same names from the same sources. -/
structure Alike (f g : DateFields) : Prop where
  tracked : f.tracked.Perm g.tracked
  schema : f.schema = g.schema
  introduced : f.introduced.Perm g.introduced

variable {f g h : DateFields} {n m source other : String} {v w : Option Bool}

theorem Alike.refl (f : DateFields) : Alike f f := ⟨List.Perm.refl _, rfl, List.Perm.refl _⟩

theorem Alike.trans (hfg : Alike f g) (hgh : Alike g h) : Alike f h :=
  ⟨hfg.tracked.trans hgh.tracked, hfg.schema.trans hgh.schema, hfg.introduced.trans hgh.introduced⟩

theorem Alike.contains (hfg : Alike f g) : f.contains = g.contains :=
  funext fun _ => hfg.tracked.contains_eq

theorem Alike.names (hfg : Alike f g) : f.names = g.names := by
  have hperm : f.names.Perm g.names :=
    (List.mergeSort_perm _ _).trans (hfg.tracked.trans (List.mergeSort_perm _ _).symm)
  exact hperm.eq_of_pairwise' (List.pairwise_mergeSort' (· ≤ ·) f.tracked)
    (List.pairwise_mergeSort' (· ≤ ·) g.tracked)

/-- A verdict on a name puts it into the set, takes it out, or leaves it. -/
def settle (f : DateFields) (name source : String) : Option Bool → DateFields
  | none => f
  | some true => f.track name source
  | some false => f.untrack name

theorem contains_eq_decide (f : DateFields) (n : String) :
    f.contains n = decide (n ∈ f.tracked) := by
  rw [contains, List.contains_eq_mem]

theorem tracked_track : (f.track n source).tracked =
    if n ∈ f.tracked then f.tracked else f.tracked ++ [n] := by
  unfold track
  rw [contains_eq_decide]
  by_cases hn : n ∈ f.tracked <;> simp [hn]

theorem tracked_untrack : (f.untrack n).tracked = f.tracked.filter (· ≠ n) := by
  unfold untrack
  rw [contains_eq_decide]
  by_cases hn : n ∈ f.tracked
  · simp [hn]
  · have hkept : f.tracked.filter (· ≠ n) = f.tracked :=
      List.filter_eq_self.mpr fun m hm => decide_eq_true fun heq => hn (heq ▸ hm)
    simp only [hn, decide_false, Bool.false_eq_true, if_false, hkept]

/-- A name that is settled is in the set just if the verdict says so. -/
theorem contains_settle (b : Bool) : (f.settle n source (some b)).contains n = b := by
  rw [contains_eq_decide]
  cases b with
  | true =>
    rw [settle, tracked_track]
    by_cases hn : n ∈ f.tracked <;> simp [hn]
  | false =>
    rw [settle, tracked_untrack]
    simp

theorem contains_settle_of_ne (hne : m ≠ n) : (f.settle n source v).contains m = f.contains m := by
  rw [contains_eq_decide, contains_eq_decide]
  rcases v with - | - | -
  · rfl
  · rw [settle, tracked_untrack]
    simp [hne]
  · rw [settle, tracked_track]
    by_cases hn : n ∈ f.tracked <;> simp [hn, hne]

theorem schema_settle : (f.settle n source v).schema = f.schema := by
  rcases v with - | - | -
  · rfl
  · rw [settle, untrack]
    split <;> rfl
  · rw [settle, track]
    split <;> rfl

/-- What a verdict makes of the names. -/
def settledNames (n : String) (names : List String) : Option Bool → List String
  | none => names
  | some true => if n ∈ names then names else names ++ [n]
  | some false => names.filter (· ≠ n)

theorem tracked_settle : (f.settle n source v).tracked = settledNames n f.tracked v := by
  rcases v with - | - | -
  · rfl
  · exact tracked_untrack
  · exact tracked_track

/-- What a verdict makes of the sources; `there` tells whether the name was in the set, `known`
whether the schema has it. -/
def settledSources (n source : String) (there known : Bool) (sources : List (String × String)) :
    Option Bool → List (String × String)
  | none => sources
  | some true => if there || known then sources else sources ++ [(n, source)]
  | some false => if there then sources.filter (·.1 ≠ n) else sources

theorem introduced_settle : (f.settle n source v).introduced =
    settledSources n source (f.contains n) (f.schema.contains n) f.introduced v := by
  rcases v with - | - | -
  · rfl
  · rw [settle, untrack, settledSources]
    split <;> rfl
  · rw [settle, track, settledSources]
    cases f.contains n <;> rfl

theorem Alike.settle (hfg : Alike f g) : (f.settle n source v).Alike (g.settle n source v) := by
  refine ⟨?_, ?_, ?_⟩
  · rw [tracked_settle, tracked_settle]
    rcases v with - | - | -
    · exact hfg.tracked
    · exact hfg.tracked.filter _
    · rw [settledNames, settledNames]
      by_cases hn : n ∈ f.tracked
      · rw [if_pos hn, if_pos (hfg.tracked.mem_iff.mp hn)]
        exact hfg.tracked
      · rw [if_neg hn, if_neg fun hg => hn (hfg.tracked.mem_iff.mpr hg)]
        exact hfg.tracked.append_right [n]
  · rw [schema_settle, schema_settle, hfg.schema]
  · rw [introduced_settle, introduced_settle, hfg.contains, hfg.schema]
    rcases v with - | - | -
    · exact hfg.introduced
    · rw [settledSources, settledSources]
      split
      · exact hfg.introduced.filter _
      · exact hfg.introduced
    · rw [settledSources, settledSources]
      split
      · exact hfg.introduced
      · exact hfg.introduced.append_right _

theorem settledNames_filter (hne : m ≠ n) (names : List String) :
    settledNames m (names.filter (· ≠ n)) (some true) =
      (settledNames m names (some true)).filter (· ≠ n) := by
  rw [settledNames, settledNames]
  by_cases hm : m ∈ names
  · have hkept : m ∈ names.filter (· ≠ n) := List.mem_filter.mpr ⟨hm, decide_eq_true hne⟩
    rw [if_pos hm, if_pos hkept]
  · have hkept : m ∉ names.filter (· ≠ n) := fun hin => hm (List.mem_filter.mp hin).1
    rw [if_neg hm, if_neg hkept, List.filter_append, List.filter_cons_of_pos (by simpa using hne),
      List.filter_nil]

theorem settledNames_comm (hne : n ≠ m) (names : List String) :
    (settledNames m (settledNames n names v) w).Perm
      (settledNames n (settledNames m names w) v) := by
  rcases v with - | - | - <;> rcases w with - | - | -
  case some.false.some.false =>
    rw [settledNames, settledNames, settledNames, settledNames, List.filter_comm]
  case some.false.some.true => exact List.Perm.of_eq (settledNames_filter hne.symm names)
  case some.true.some.false => exact List.Perm.of_eq (settledNames_filter hne names).symm
  case some.true.some.true =>
    by_cases hn : n ∈ names <;> by_cases hm : m ∈ names <;>
      simp only [settledNames, hn, hm, hne, hne.symm, if_true, if_false, List.mem_append,
        List.mem_singleton, or_false, List.append_assoc, List.Perm.refl]
    exact List.perm_append_comm.append_left names
  all_goals exact List.Perm.refl _

variable {inN knownN inM knownM : Bool}

theorem settledSources_filter (hne : m ≠ n) (sources : List (String × String)) :
    settledSources m other inM knownM (sources.filter (·.1 ≠ n)) (some true) =
      (settledSources m other inM knownM sources (some true)).filter (·.1 ≠ n) := by
  rw [settledSources, settledSources]
  split
  · rfl
  · rw [List.filter_append, List.filter_cons_of_pos (by simpa using hne), List.filter_nil]

theorem settledSources_comm (hne : n ≠ m) (sources : List (String × String)) :
    (settledSources m other inM knownM (settledSources n source inN knownN sources v) w).Perm
      (settledSources n source inN knownN (settledSources m other inM knownM sources w) v) := by
  rcases v with - | - | - <;> rcases w with - | - | -
  case some.false.some.false =>
    simp only [settledSources]
    cases inN <;> cases inM <;> simp only [Bool.false_eq_true, if_true, if_false, List.Perm.refl]
    rw [List.filter_comm]
  case some.false.some.true =>
    cases inN with
    | false => exact List.Perm.refl _
    | true => exact List.Perm.of_eq (settledSources_filter hne.symm sources)
  case some.true.some.false =>
    cases inM with
    | false => exact List.Perm.refl _
    | true => exact List.Perm.of_eq (settledSources_filter hne sources).symm
  case some.true.some.true =>
    simp only [settledSources]
    cases inN || knownN <;> cases inM || knownM <;>
      simp only [Bool.false_eq_true, if_true, if_false, List.append_assoc, List.Perm.refl]
    exact List.perm_append_comm.append_left sources
  all_goals exact List.Perm.refl _

theorem settle_settle (hne : n ≠ m) :
    ((f.settle n source v).settle m other w).Alike ((f.settle m other w).settle n source v) := by
  refine ⟨?_, ?_, ?_⟩
  · simp only [tracked_settle]
    exact settledNames_comm hne f.tracked
  · simp only [schema_settle]
  · simp only [introduced_settle, schema_settle, contains_settle_of_ne hne,
      contains_settle_of_ne hne.symm]
    exact settledSources_comm hne f.introduced

end Inquiry.DateFields
