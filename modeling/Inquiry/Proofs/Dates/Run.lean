import Inquiry.Dates.Pipeline

/-!
# Runs over a pipeline

What a successful run says about its stages: each one was read, and stands healed in the output
against the date fields that the stages before it left.
-/
namespace Inquiry.Dates

variable {force : Bool} {index : Nat} {p p' : Progress}

theorem healStages_nil_ok_iff {out : List Value} :
    healStages force index p [] = (p', .ok out) ↔ p' = p ∧ out = [] := by
  constructor
  · intro h
    cases h
    exact ⟨rfl, rfl⟩
  · rintro ⟨rfl, rfl⟩
    rfl

theorem healStages_cons_of_error {v : Value} {m : Malformed}
    (h : Stage.ofValue index v = .error m) (vs : List Value) :
    healStages force index p (v :: vs) = (p, .error m) := by
  rw [healStages, h]

theorem healStages_cons_of_ok {v : Value} {s : Stage} (h : Stage.ofValue index v = .ok s)
    (vs : List Value) :
    healStages force index p (v :: vs) =
      ((healStages force (index + 1) (p.step force index s).1 vs).1,
        (healStages force (index + 1) (p.step force index s).1 vs).2.map
          ((healStage p.fields.contains force s).toValue :: ·)) := by
  rw [healStages, h]
  rfl

theorem healStages_cons_ok_iff {v : Value} {vs out : List Value} :
    healStages force index p (v :: vs) = (p', .ok out) ↔
      ∃ s rest, Stage.ofValue index v = .ok s ∧
        healStages force (index + 1) (p.step force index s).1 vs = (p', .ok rest) ∧
        out = (healStage p.fields.contains force s).toValue :: rest := by
  constructor
  · intro h
    cases hs : Stage.ofValue index v with
    | error m =>
      rw [healStages_cons_of_error hs] at h
      cases h
    | ok s =>
      rw [healStages_cons_of_ok hs] at h
      obtain ⟨hp, hout⟩ := Prod.mk.inj h
      cases hrest : (healStages force (index + 1) (p.step force index s).1 vs).2 with
      | error m =>
        rw [hrest] at hout
        cases hout
      | ok rest =>
        rw [hrest] at hout
        exact ⟨s, rest, rfl, Prod.ext hp hrest, (Except.ok.inj hout).symm⟩
  · rintro ⟨s, rest, hs, hrun, rfl⟩
    rw [healStages_cons_of_ok hs, hrun]
    rfl

theorem healPipeline_ok_iff {forced : List String} {collection : String} {pipeline : Value}
    {out : List Value} :
    healPipeline forced p collection pipeline = (p', .ok out) ↔
      ∃ vs, pipeline = .list vs ∧
        healStages (forced.contains collection) 0 p vs = (p', .ok out) := by
  constructor
  · intro h
    unfold healPipeline at h
    split at h
    · exact ⟨_, rfl, h⟩
    · cases h
  · rintro ⟨vs, rfl, h⟩
    exact h

/-- Every stage of a successful run is healed against the date fields that the run over the stages
before it ends with. -/
theorem healStages_getElem? {vs out : List Value} (h : healStages force index p vs = (p', .ok out))
    {i : Nat} {v : Value} (hv : vs[i]? = some v) :
    ∃ s, Stage.ofValue ((index + i : Nat) : Int) v = .ok s ∧
      out[i]? = some (healStage
        (healStages force index p (vs.take i)).1.fields.contains force s).toValue := by
  induction vs generalizing index p i out with
  | nil => simp at hv
  | cons w vs ih =>
    obtain ⟨s, rest, hs, hrun, rfl⟩ := healStages_cons_ok_iff.mp h
    cases i with
    | zero =>
      cases hv
      exact ⟨s, hs, rfl⟩
    | succ i =>
      obtain ⟨t, ht, hout⟩ := ih hrun (i := i) hv
      refine ⟨t, by rwa [Nat.add_assoc, Nat.add_comm 1 i] at ht, ?_⟩
      rw [List.getElem?_cons_succ, hout, List.take_succ_cons, healStages_cons_of_ok hs]

end Inquiry.Dates
