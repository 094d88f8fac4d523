import Inquiry.Proofs.Dates.Judgement
import Inquiry.Proofs.Dates.Places
import Inquiry.Proofs.Expression.Reading

/-!
# Pipelines one after the other

A run over two pipelines is the run over the first and then, from where that ended, the run over the
second, which stands so many stages later: in its reports, in the sources of what it introduced, and
in its fault. A stage that cannot be read ends the run and leaves what the stages before it left.
-/
namespace Inquiry

open Dates (sourceText)

/-- A name that a stage introduced. -/
structure DateFields.Introduction where
  name : String
  stage : Nat
  operator : String

namespace DateFields

def Introduction.entry (s : Introduction) : String × String :=
  (s.name, sourceText s.stage s.operator)

def Introduction.moved (n : Nat) (s : Introduction) : Introduction :=
  { s with stage := n + s.stage }

/-- The same set from stages that stand `n` places later. The sources that were kept from `before` are
the same, and the others are those of stages that stand later. -/
structure Moved (n : Nat) (before f f' : DateFields) : Prop where
  tracked : f'.tracked = f.tracked
  schema : f'.schema = f.schema
  introduced : ∃ (kept : List (String × String)) (later : List Introduction),
    kept.Sublist before.introduced ∧
    f.introduced = kept ++ later.map Introduction.entry ∧
    f'.introduced = kept ++ later.map fun s => (s.moved n).entry

variable {n : Nat} {before f f' : DateFields}

theorem Moved.refl (n : Nat) (f : DateFields) : Moved n f f f :=
  ⟨rfl, rfl, f.introduced, [], List.Sublist.refl _, (List.append_nil _).symm,
    (List.append_nil _).symm⟩

theorem Moved.contains (h : Moved n before f f') : f'.contains = f.contains := by
  funext name
  rw [DateFields.contains, DateFields.contains, h.tracked]

theorem filter_entries {ι : Type} (entry : ι → String × String) (name : String) (xs : List ι) :
    (xs.map entry).filter (·.1 ≠ name) = (xs.filter fun x => (entry x).1 ≠ name).map entry := by
  rw [List.filter_map]
  rfl

/-- A stage that stands `n` places later settles a name the same, under its own source. -/
theorem Moved.settle (h : Moved n before f f') (name operator : String) (i : Nat)
    (v : Option Bool) :
    Moved n before (f.settle name (sourceText i operator) v)
      (f'.settle name (sourceText (n + i) operator) v) := by
  obtain ⟨kept, later, hkept, hf, hf'⟩ := h.introduced
  refine ⟨?_, ?_, ?_⟩
  · rw [tracked_settle, tracked_settle, h.tracked]
  · rw [schema_settle, schema_settle, h.schema]
  · rw [introduced_settle, introduced_settle, h.contains, h.schema, hf, hf']
    rcases v with - | - | -
    · exact ⟨kept, later, hkept, rfl, rfl⟩
    · rw [settledSources, settledSources]
      cases f.contains name with
      | false => exact ⟨kept, later, hkept, rfl, rfl⟩
      | true =>
        refine ⟨kept.filter (·.1 ≠ name), later.filter fun s => s.name ≠ name,
          List.filter_sublist.trans hkept, ?_, ?_⟩
        · rw [if_pos rfl, List.filter_append, filter_entries]
          rfl
        · rw [if_pos rfl, List.filter_append, filter_entries]
          rfl
    · rw [settledSources, settledSources]
      cases f.contains name || f.schema.contains name with
      | true => exact ⟨kept, later, hkept, rfl, rfl⟩
      | false =>
        refine ⟨kept, later ++ [⟨name, i, operator⟩], hkept, ?_, ?_⟩
        · rw [List.map_append, ← List.append_assoc]
          rfl
        · rw [List.map_append, ← List.append_assoc]
          rfl

end DateFields

namespace Dates

/-- The same report on a stage that stands `n` places later. -/
def Diagnostic.moved (n : Nat) (d : Diagnostic) : Diagnostic := { d with stage := n + d.stage }

section Reports

variable (known : String → Bool) (force : Bool) (n stage : Nat)

theorem mismatch_moved (path : String) (e : Expression) :
    mismatch known (n + stage) path e = (mismatch known stage path e).map (·.moved n) := by
  unfold mismatch
  cases e.call? with
  | none => rfl
  | some call =>
    obtain ⟨op, operand⟩ := call
    dsimp only
    split
    · cases partField? operand with
      | none => rfl
      | some f => cases hknown : known f <;> simp [hknown, Diagnostic.moved]
    · rfl

theorem diagnoseNode_moved (path : String) (e : Expression) :
    diagnoseNode known force (n + stage) path e =
      (diagnoseNode known force stage path e).map (·.moved n) := by
  unfold diagnoseNode
  split
  · rfl
  · exact mismatch_moved known n stage path e

theorem ownReports_moved (path : String) (e : Expression) :
    ownReports known force (n + stage) path e =
      (ownReports known force stage path e).map (·.moved n) := by
  cases e with
  | keyed es => exact diagnoseNode_moved known force n stage path _
  | _ => rfl

theorem diagnose_moved (path : String) (e : Expression) :
    diagnose known force (n + stage) path e =
      (diagnose known force stage path e).map (·.moved n) := by
  induction e using Expression.children_induction generalizing path with
  | node e ih =>
    rw [diagnose_eq_flatMap, diagnose_eq_flatMap, List.map_append, List.map_flatMap,
      ownReports_moved, List.flatMap_congr fun c hc => ih path c hc c.1]

theorem diagnoseStage_moved (s : Stage) :
    diagnoseStage known force (n + stage) s =
      (diagnoseStage known force stage s).map (·.moved n) := by
  rw [diagnoseStage, diagnoseStage, List.map_append, diagnose_moved, mismatch_moved]

end Reports

/-- The same progress from stages that stand `n` places later, where both runs began with `before`. -/
structure Progress.Moved (n : Nat) (before p p' : Progress) : Prop where
  fields : DateFields.Moved n before.fields p.fields p'.fields
  diagnostics : ∃ later : List Diagnostic, p.diagnostics = before.diagnostics ++ later ∧
    p'.diagnostics = before.diagnostics ++ later.map (·.moved n)

variable {force : Bool} {index n : Nat} {before p p' : Progress}

theorem Progress.Moved.refl (n : Nat) (p : Progress) : Progress.Moved n p p p :=
  ⟨DateFields.Moved.refl n p.fields, [], (List.append_nil _).symm, (List.append_nil _).symm⟩

theorem Progress.Moved.step (h : Progress.Moved n before p p') (s : Stage) :
    Progress.Moved n before (p.step force index s).1 (p'.step force (n + index) s).1 := by
  obtain ⟨later, hp, hp'⟩ := h.diagnostics
  unfold Progress.step
  dsimp only
  rw [h.fields.contains]
  refine ⟨?_, later ++ diagnoseStage p.fields.contains force index s, ?_, ?_⟩
  · exact propagate_related (fun _ _ h => h.contains.symm)
      (fun _ _ name v h => h.settle name s.operator index v) h.fields
  · rw [hp, List.append_assoc]
  · rw [hp', List.map_append, diagnoseStage_moved, List.append_assoc]

/-- A run that begins `n` places later goes the same way. -/
theorem healStages_moved (h : Progress.Moved n before p p') (vs : List Value) :
    Progress.Moved n before (healStages force index p vs).1
        (healStages force (n + index) p' vs).1 ∧
      UpTo (Malformed.Moved n) (healStages force index p vs).2
        (healStages force (n + index) p' vs).2 := by
  induction vs generalizing index p p' with
  | nil => exact ⟨h, .ok []⟩
  | cons v vs ih =>
    have hread := Stage.ofValue_moved n index v
    cases hs : Stage.ofValue index v with
    | error m =>
      rw [hs] at hread
      generalize hs' : Stage.ofValue ((n + index : Nat) : Int) v = x at hread
      cases hread with
      | error fault =>
        rw [healStages_cons_of_error hs, healStages_cons_of_error hs']
        exact ⟨h, .error fault⟩
    | ok s =>
      rw [hs] at hread
      generalize hs' : Stage.ofValue ((n + index : Nat) : Int) v = x at hread
      cases hread with
      | ok _ =>
        obtain ⟨hfields, hrest⟩ := @ih (index + 1) _ _ (h.step s)
        rw [healStages_cons_of_ok hs, healStages_cons_of_ok hs', h.fields.contains, Nat.add_assoc]
        exact ⟨hfields, hrest.map _⟩

theorem healStages_append_of_error {m : Malformed} {vs : List Value}
    (h : healStages force index p vs = (p', .error m)) (ws : List Value) :
    healStages force index p (vs ++ ws) = (p', .error m) := by
  induction vs generalizing index p with
  | nil => cases h
  | cons v vs ih =>
    rw [List.cons_append]
    cases hs : Stage.ofValue index v with
    | error m' =>
      rw [healStages_cons_of_error hs] at h ⊢
      exact h
    | ok s =>
      rw [healStages_cons_of_ok hs] at h ⊢
      obtain ⟨hp, hm⟩ := Prod.mk.inj h
      cases hrest : (healStages force (index + 1) (p.step force index s).1 vs).2 with
      | ok out =>
        rw [hrest] at hm
        cases hm
      | error m' =>
        rw [hrest] at hm
        cases hm
        rw [ih (Prod.ext hp hrest)]
        rfl

theorem healStages_append_of_ok {out vs : List Value}
    (h : healStages force index p vs = (p', .ok out)) (ws : List Value) :
    healStages force index p (vs ++ ws) =
      ((healStages force (index + vs.length) p' ws).1,
        (healStages force (index + vs.length) p' ws).2.map (out ++ ·)) := by
  induction vs generalizing index p out with
  | nil =>
    obtain ⟨rfl, rfl⟩ := healStages_nil_ok_iff.mp h
    cases hws : (healStages force (index + 0) p' ws).2 <;>
      exact Prod.ext rfl hws
  | cons v vs ih =>
    obtain ⟨s, rest, hs, hrun, rfl⟩ := healStages_cons_ok_iff.mp h
    rw [List.cons_append, healStages_cons_of_ok hs, ih hrun, List.length_cons,
      Nat.add_right_comm, ← Nat.add_assoc]
    cases (healStages force (index + vs.length + 1) p' ws).2 <;> rfl

/-- A run fails just on the stages that cannot be read. -/
theorem healStages_ok_iff (force : Bool) (index : Nat) (p : Progress) (vs : List Value) :
    (∃ out, (healStages force index p vs).2 = .ok out) ↔ ∀ v ∈ vs, Stage.Formed v := by
  induction vs generalizing index p with
  | nil => simp [healStages]
  | cons v vs ih =>
    rw [List.forall_mem_cons, ← @Stage.ofValue_ok_iff index v]
    cases hs : Stage.ofValue index v with
    | error m =>
      rw [healStages_cons_of_error hs]
      simp
    | ok s =>
      rw [healStages_cons_of_ok hs, ← ih (index + 1) (p.step force index s).1]
      cases (healStages force (index + 1) (p.step force index s).1 vs).2 with
      | error m => simp [Except.map]
      | ok out => simp [Except.map]

theorem healPipeline_error_iff {forced : List String} {collection : String} {pipeline : Value} :
    (∃ m, (healPipeline forced p collection pipeline).2 = .error m) ↔
      ¬ ∃ vs, pipeline = .list vs ∧ ∀ v ∈ vs, Stage.Formed v := by
  have hok : (∃ vs, pipeline = .list vs ∧ ∀ v ∈ vs, Stage.Formed v) ↔
      ∃ out, (healPipeline forced p collection pipeline).2 = .ok out := by
    constructor
    · rintro ⟨vs, rfl, hvs⟩
      exact (healStages_ok_iff _ _ _ vs).mpr hvs
    · rintro ⟨out, hout⟩
      obtain ⟨vs, rfl, hrun⟩ := healPipeline_ok_iff.mp (Prod.ext rfl hout)
      exact ⟨vs, rfl, (healStages_ok_iff _ _ p vs).mp ⟨out, congrArg Prod.snd hrun⟩⟩
  rw [hok]
  cases (healPipeline forced p collection pipeline).2 <;> simp

theorem healStages_keeps_operators {out vs : List Value}
    (h : healStages force index p vs = (p', .ok out)) :
    List.Forall₂ (fun v w => ∃ op spec spec', isOperatorName op = true ∧
      v = .dict [(.str op, spec)] ∧ w = .dict [(.str op, spec')]) vs out := by
  induction vs generalizing index p out with
  | nil =>
    obtain ⟨-, rfl⟩ := healStages_nil_ok_iff.mp h
    exact .nil
  | cons v vs ih =>
    obtain ⟨s, rest, hs, hrun, rfl⟩ := healStages_cons_ok_iff.mp h
    obtain ⟨spec, hv, hop⟩ := Stage.operator_of_ofValue hs
    exact .cons ⟨s.operator, spec, _, hop, hv, rfl⟩ (ih hrun)

/-- Runs go stage by stage. A run over two pipelines is a run over the first and one over the second
from there, moved by the length of the first. The first stage that cannot be read ends the run with
what the stages before it left, and no output. No other run over a list fails, and every stage of the
output is an operator over a spec, the one of the input. -/
theorem healPipeline_stage_by_stage (forced : List String) (collection : String) (p : Progress) :
    (∀ vs ws : List Value, match healPipeline forced p collection (.list vs) with
      | (first, .error m) => healPipeline forced p collection (.list (vs ++ ws)) = (first, .error m)
      | (first, .ok out) =>
        let second := healPipeline forced first collection (.list ws)
        let whole := healPipeline forced p collection (.list (vs ++ ws))
        Progress.Moved vs.length first second.1 whole.1 ∧
          UpTo (Malformed.Moved vs.length) (second.2.map (out ++ ·)) whole.2) ∧
    (∀ (before : List Value) (v : Value) (after : List Value),
      (∀ w ∈ before, Stage.Formed w) → ¬ Stage.Formed v →
      ∃ first out m, healPipeline forced p collection (.list before) = (first, .ok out) ∧
        Stage.ofValue before.length v = .error m ∧
        healPipeline forced p collection (.list (before ++ v :: after)) = (first, .error m)) ∧
    (∀ pipeline : Value, (∃ m, (healPipeline forced p collection pipeline).2 = .error m) ↔
      ¬ ∃ vs, pipeline = .list vs ∧ ∀ v ∈ vs, Stage.Formed v) ∧
    (∀ vs out : List Value, (healPipeline forced p collection (.list vs)).2 = .ok out →
      List.Forall₂ (fun v w => ∃ op spec spec', isOperatorName op = true ∧
        v = .dict [(.str op, spec)] ∧ w = .dict [(.str op, spec')]) vs out) := by
  refine ⟨fun vs ws => ?_, fun before v after hbefore hv => ?_,
    fun pipeline => healPipeline_error_iff, fun vs out h => ?_⟩
  · cases hvs : healPipeline forced p collection (.list vs) with
    | mk first result =>
      cases result with
      | error m => exact healStages_append_of_error hvs ws
      | ok out =>
        have hwhole := healStages_append_of_ok hvs ws
        rw [Nat.zero_add] at hwhole
        obtain ⟨hprogress, hresult⟩ := @healStages_moved (forced.contains collection) 0 vs.length
          first first first (Progress.Moved.refl vs.length first) ws
        dsimp only
        unfold healPipeline
        dsimp only
        rw [hwhole]
        exact ⟨hprogress, hresult.map _⟩
  · obtain ⟨out, hout⟩ := (healStages_ok_iff (forced.contains collection) 0 p before).mpr hbefore
    obtain ⟨m, hm⟩ := (@Stage.ofValue_error_iff before.length v).mpr hv
    have hrun := healStages_append_of_ok (Prod.ext rfl hout) (v :: after)
    rw [Nat.zero_add, healStages_cons_of_error hm] at hrun
    exact ⟨_, out, m, Prod.ext rfl hout, hm, hrun⟩
  · exact healStages_keeps_operators (Prod.ext rfl h)

private def sent : Stage := ⟨"$addFields", .keyed [("sent", .keyed [("$toDate", .fieldRef "raw")])]⟩

private def monthOfTotal : Stage :=
  ⟨"$project", .keyed [("month", .keyed [("$month", .fieldRef "total")])]⟩

/-- A pipeline whose third stage is no stage, cut after its first one. -/
theorem healPipeline_stage_by_stage_cut :
    ∃ first out m, healPipeline [] (.start .empty) "orders"
        (.list [sent.toValue, monthOfTotal.toValue]) = (first, .ok out) ∧
      first = ⟨⟨["sent"], [], [("sent", "stage 0 ($addFields)")]⟩,
        [⟨.operatorMismatch, 1, "$project.month", "$month", "total"⟩]⟩ ∧
      Stage.ofValue 2 (.str "$limit") = .error m ∧
      healPipeline [] (.start .empty) "orders"
        (.list [sent.toValue, monthOfTotal.toValue, .str "$limit"]) = (first, .error m) ∧
      Malformed.Moved 2 (.notStage 0 "str") m := by
  have hformed : ∀ w ∈ [sent.toValue, monthOfTotal.toValue], Stage.Formed w := by
    intro w hw
    rw [List.mem_pair] at hw
    obtain rfl | rfl := hw
    · exact (@Stage.ofValue_ok_iff 0 _).mp ⟨sent, rfl⟩
    · exact (@Stage.ofValue_ok_iff 0 _).mp ⟨monthOfTotal, rfl⟩
  have hcut : ¬ Stage.Formed (.str "$limit") :=
    (@Stage.ofValue_error_iff 0 _).mp ⟨.notStage 0 "str", rfl⟩
  obtain ⟨happend, hstop, -⟩ := healPipeline_stage_by_stage [] "orders" (.start .empty)
  obtain ⟨first, out, m, hfirst, hm, hwhole⟩ := hstop _ (.str "$limit") [] hformed hcut
  have hmoved := happend [sent.toValue, monthOfTotal.toValue] [.str "$limit"]
  rw [hfirst] at hmoved
  dsimp only at hmoved
  obtain ⟨-, hmoved⟩ := hmoved
  rw [hwhole] at hmoved
  refine ⟨first, out, m, hfirst, ?_, hm, hwhole, ?_⟩
  · exact (congrArg Prod.fst hfirst).symm.trans (by decide +kernel)
  · cases hmoved with
    | error hm => exact hm

end Dates

end Inquiry
