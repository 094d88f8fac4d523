import Inquiry.Proofs.Dates.Composition
import Inquiry.Proofs.Dates.Reports
import Inquiry.Proofs.Dates.Sources

/-!
# The stages that a run comes to

A run that comes to a stage has gone over the stages before it, and goes on from there. So the progress
after the stage is the one step from where the run came to it, and the reports that the run makes on
the stage are those of this step, also if a later stage ends the run.
-/
namespace Inquiry.Dates

variable {force : Bool} {index i : Nat} {p before : Progress} {vs : List Value} {s : Stage}

/-- What a run that comes to a stage looks like. -/
theorem Reaches.split (h : Reaches force index p vs i before s) : ∃ v rest out,
    vs.take (i + 1) = vs.take i ++ [v] ∧ vs = vs.take i ++ v :: rest ∧
      (vs.take i).length = i ∧ Stage.ofValue ((index + i : Nat) : Int) v = .ok s ∧
      healStages force index p (vs.take i) = (before, .ok out) := by
  obtain ⟨v, hv, hs⟩ := h.stage
  obtain ⟨out, hrun⟩ := h.run
  obtain ⟨hi, rfl⟩ := List.getElem?_eq_some_iff.mp hv
  refine ⟨vs[i], vs.drop (i + 1), out, ?_, ?_, ?_, hs, hrun⟩
  · rw [List.take_add_one, hv]
    rfl
  · rw [← List.drop_eq_getElem_cons hi, List.take_append_drop]
  · rw [List.length_take, Nat.min_eq_left hi.le]

/-- The run over the stages up to this one is one step further. -/
theorem Reaches.take_succ (h : Reaches force index p vs i before s) :
    (healStages force index p (vs.take (i + 1))).1 = (before.step force (index + i) s).1 := by
  obtain ⟨v, rest, out, htake, -, hlength, hs, hrun⟩ := h.split
  rw [htake, healStages_append_of_ok hrun, hlength, healStages_cons_of_ok hs]
  rfl

theorem Reaches.fields_take_succ (h : Reaches force index p vs i before s) :
    (healStages force index p (vs.take (i + 1))).1.fields =
      propagate (index + i) (healStage before.fields.contains force s) before.fields := by
  rw [h.take_succ]
  rfl

theorem RunReports.stage_of_mem {new : List Diagnostic} (h : RunReports force index p vs new)
    {d : Diagnostic} (hd : d ∈ new) : ∃ j, j < vs.length ∧ d.stage = index + j := by
  obtain ⟨j, v, t, known, hv, -, hmem⟩ := h.origin d hd
  obtain ⟨hj, -⟩ := List.getElem?_eq_some_iff.mp hv
  exact ⟨j, hj, (placed_of_mem_diagnoseStage hmem).1⟩

/-- The reports on a stage are those of the one step over it, whatever comes after. -/
theorem Reaches.filter_reports {new : List Diagnostic} (hnew : RunReports force index p vs new)
    (h : Reaches force index p vs i before s) :
    new.filter (·.stage = index + i) =
      diagnoseStage before.fields.contains force (index + i) s := by
  obtain ⟨v, rest, out, -, hvs, hlength, hs, hrun⟩ := h.split
  obtain ⟨earlier, hearlier⟩ := exists_runReports force index p (vs.take i)
  obtain ⟨later, hlater⟩ :=
    exists_runReports force (index + i + 1) (before.step force (index + i) s).1 rest
  have hparts : new =
      earlier ++ (diagnoseStage before.fields.contains force (index + i) s ++ later) := by
    have hbefore : before.diagnostics = p.diagnostics ++ earlier := by
      rw [← hearlier.diagnostics, hrun]
    have hall := hnew.diagnostics
    rw [hvs, healStages_append_of_ok hrun, hlength, healStages_cons_of_ok hs] at hall
    refine (List.append_right_inj p.diagnostics).mp ?_
    rw [← hall, hlater.diagnostics, ← List.append_assoc, ← List.append_assoc, ← hbefore]
    rfl
  have hnone : ∀ ds : List Diagnostic, (∀ d ∈ ds, d.stage ≠ index + i) →
      ds.filter (·.stage = index + i) = [] :=
    fun ds hds => List.filter_eq_nil_iff.mpr fun d hd => by simpa using hds d hd
  have hearlier' : earlier.filter (·.stage = index + i) = [] := by
    refine hnone earlier fun d hd => ?_
    obtain ⟨j, hj, hstage⟩ := hearlier.stage_of_mem hd
    omega
  have hlater' : later.filter (·.stage = index + i) = [] := by
    refine hnone later fun d hd => ?_
    obtain ⟨j, -, hstage⟩ := hlater.stage_of_mem hd
    omega
  rw [hparts, List.filter_append, List.filter_append, hearlier', hlater', filter_diagnoseStage,
    List.nil_append, List.append_nil]

end Inquiry.Dates
