import Inquiry.Proofs.Dates.NormalForm
import Inquiry.Proofs.Dates.Run
import Inquiry.Proofs.Expression.Canonical

/-!
# Pipelines that healing leaves alone

An expression is quiet if healing has nothing to report on it, and then it stays as it is. A value
is untouched if it reads as a quiet tree that is written as the value. What makes documents and
stages untouched is local: no conversion at the node itself, and no date part of a field that is not
known to hold dates. A pipeline of untouched stages is its own output and adds no report.
-/
namespace Inquiry.Dates

open Expression (Canonical ofText toEntries)

variable {known : String → Bool}

/-- Nothing is reported on the expression, wherever it stands. -/
def Quiet (known : String → Bool) (e : Expression) : Prop :=
  ∀ force stage path, diagnose known force stage path e = []

theorem Quiet.heal_eq {e : Expression} (h : Quiet known e) (force : Bool) :
    heal known force e = e := by
  have hremovals : removals (diagnose known force 0 "" e) = 0 := by rw [h, removals_nil]
  exact heal_of_no_removals hremovals

theorem quiet_scalar (v : Value) : Quiet known (.scalar v) := by
  intro force stage path
  rw [diagnose]

theorem quiet_ofText (s : String) : Quiet known (ofText s) := by
  intro force stage path
  unfold ofText
  split <;> rw [diagnose]

/-- The node is no date part of a field that is not known to hold dates. -/
def KnownParts (known : String → Bool) (e : Expression) : Prop :=
  ∀ op operand, e.call? = some (op, operand) → op ∈ partOperators →
    ∀ f, partField? operand = some f → known f = true

theorem KnownParts.mismatch_eq_nil {e : Expression} (h : KnownParts known e) (stage : Nat)
    (path : String) : mismatch known stage path e = [] := by
  unfold mismatch
  split
  · rename_i op operand hcall
    split
    · rename_i hop
      split
      · rename_i f hf
        rw [if_pos (h op operand hcall (List.contains_iff_mem.mp hop) f hf)]
      · rfl
    · rfl
  · rfl

theorem knownParts_call {op : String} {operand : Expression}
    (h : op ∈ partOperators → ∀ f, partField? operand = some f → known f = true) :
    KnownParts known (.keyed [(op, operand)]) := by
  intro op' operand' hcall
  obtain ⟨-, hes⟩ := Expression.call?_eq_some_iff.mp hcall
  cases hes
  exact h

theorem diagnoseNode_eq_nil {e : Expression} (hconverts : ∀ f, ¬ Converts f e)
    (hparts : KnownParts known e) (force : Bool) (stage : Nat) (path : String) :
    diagnoseNode known force stage path e = [] := by
  unfold diagnoseNode
  split
  · rename_i f hf
    exact absurd (redundantSource?_eq_some_iff.mp hf).1 (hconverts f)
  · exact hparts.mismatch_eq_nil stage path

theorem diagnoseEntries_eq_nil {es : List (String × Expression)} (h : ∀ d ∈ es, Quiet known d.2)
    (force : Bool) (stage : Nat) (path : String) :
    diagnoseEntries known force stage path es = [] := by
  induction es with
  | nil => rw [diagnoseEntries]
  | cons d es ih =>
    obtain ⟨hd, hes⟩ := List.forall_mem_cons.mp h
    rw [diagnoseEntries, hd, ih hes, List.append_nil]

theorem healEntries_eq_self {es : List (String × Expression)} (h : ∀ d ∈ es, Quiet known d.2)
    (force : Bool) : healEntries known force es = es := by
  induction es with
  | nil => rw [healEntries]
  | cons d es ih =>
    obtain ⟨hd, hes⟩ := List.forall_mem_cons.mp h
    rw [healEntries, hd.heal_eq, ih hes]

theorem quiet_keyed {es : List (String × Expression)} (hes : ∀ d ∈ es, Quiet known d.2)
    (hconverts : ∀ f, ¬ Converts f (.keyed es)) (hparts : KnownParts known (.keyed es)) :
    Quiet known (.keyed es) := by
  intro force stage path
  rw [diagnose, diagnoseEntries_eq_nil hes, healEntries_eq_self hes,
    diagnoseNode_eq_nil hconverts hparts, List.append_nil]

/-- A call of another operator converts nothing. -/
theorem not_converts_call {op : String} {operand : Expression} (h : op ∉ conversionOperators)
    (f : String) : ¬ Converts f (.keyed [(op, operand)]) := by
  intro hf
  obtain ⟨op', operand', hcall, hop⟩ := hf.operator
  cases hcall
  exact h hop

/-- The value reads as a quiet tree, which is written as the value. -/
def Untouched (known : String → Bool) (v : Value) : Prop :=
  ∃ e : Expression, e.toValue = v ∧ Canonical e ∧ Quiet known e

theorem untouched_leaf {v : Value} (leaf : Expression.isLeaf v = true) (plain : ∀ s, v ≠ .str s) :
    Untouched known v :=
  ⟨.scalar v, rfl, .scalar leaf fun s hs => absurd hs (plain s), quiet_scalar v⟩

theorem untouched_str (s : String) : Untouched known (.str s) :=
  ⟨ofText s, Expression.toValue_ofText s, Expression.canonical_ofText s, quiet_ofText s⟩

/-- The entries of a document are read one by one; a payload of `$literal` is read as it is. -/
theorem exists_entries {fields : List (String × Value)}
    (h : ∀ f ∈ fields, f.1 ≠ "$literal" → Untouched known f.2) :
    ∃ es, toEntries es = fields.map (fun f => (.str f.1, f.2)) ∧ Canonical (.keyed es) ∧
      ∀ d ∈ es, Quiet known d.2 := by
  induction fields with
  | nil => exact ⟨[], rfl, .keyed (by simp) (by simp), by simp⟩
  | cons f fields ih =>
    obtain ⟨key, v⟩ := f
    obtain ⟨hf, hfields⟩ := List.forall_mem_cons.mp h
    obtain ⟨es, hwritten, hcanonical, hquiet⟩ := ih hfields
    by_cases hkey : key = "$literal"
    · refine ⟨(key, .scalar v) :: es, ?_, hcanonical.cons (fun _ => ⟨v, rfl⟩) (absurd hkey),
        List.forall_mem_cons.mpr ⟨quiet_scalar v, hquiet⟩⟩
      rw [toEntries, hwritten, Expression.toValue, List.map_cons]
    · obtain ⟨e, hv, he, hq⟩ := hf hkey
      refine ⟨(key, e) :: es, ?_, hcanonical.cons (absurd · hkey) (fun _ => he),
        List.forall_mem_cons.mpr ⟨hq, hquiet⟩⟩
      rw [toEntries, hwritten, hv, List.map_cons]

/-- A document is untouched if its values are, unless its only key is a date operator. -/
theorem untouched_doc {fields : List (String × Value)}
    (hcall : ∀ op v, fields = [(op, v)] → op ∉ conversionOperators ∧ op ∉ partOperators)
    (h : ∀ f ∈ fields, f.1 ≠ "$literal" → Untouched known f.2) :
    Untouched known (.doc fields) := by
  obtain ⟨es, hwritten, hcanonical, hquiet⟩ := exists_entries h
  have hsingle : ∀ op operand, Expression.keyed es = .keyed [(op, operand)] →
      op ∉ conversionOperators ∧ op ∉ partOperators := by
    intro op operand hes
    cases hes
    obtain ⟨f, hf, hentry⟩ := List.map_eq_singleton_iff.mp hwritten.symm
    obtain ⟨hkey, -⟩ := Prod.mk.inj hentry
    exact hcall op f.2 (by rw [hf, ← Value.str.inj hkey])
  refine ⟨.keyed es, ?_, hcanonical, quiet_keyed hquiet ?_ ?_⟩
  · rw [Expression.toValue, hwritten, Value.doc]
  · intro f hf
    obtain ⟨op, operand, hes, hop⟩ := hf.operator
    exact (hsingle op operand hes).1 hop
  · intro op operand hop hpart
    obtain ⟨-, hes⟩ := Expression.call?_eq_some_iff.mp hop
    exact absurd hpart (hsingle op operand hes).2

theorem partField?_ofText (s : String) : partField? (ofText s) = fieldPath? s := by
  unfold ofText
  cases fieldPath? s <;> rfl

/-- A date part of a text is untouched unless the text refers to a field that is not known. -/
theorem untouched_part {op s : String} (hop : op ∈ partOperators)
    (h : ∀ f, fieldPath? s = some f → known f = true) : Untouched known (.doc [(op, .str s)]) := by
  have hother : ∀ op ∈ partOperators, op ≠ "$literal" ∧ op ∉ conversionOperators := by decide
  obtain ⟨hliteral, hconversion⟩ := hother op hop
  have hparts : KnownParts known (.keyed [(op, ofText s)]) := by
    refine knownParts_call fun _ f hf => h f ?_
    rwa [partField?_ofText] at hf
  have hquiet : Quiet known (.keyed [(op, ofText s)]) :=
    quiet_keyed (List.forall_mem_singleton.mpr (quiet_ofText s))
      (not_converts_call hconversion) hparts
  refine ⟨_, ?_, Expression.canonical_call hliteral (Expression.canonical_ofText s), hquiet⟩
  rw [Expression.toValue, toEntries, toEntries, Expression.toValue_ofText]
  rfl

/-- A stage that is read, healed and written as it is, with no report. -/
def UntouchedStage (known : String → Bool) (v : Value) : Prop :=
  ∃ s : Stage, s.toValue = v ∧ (∀ index : Int, Stage.ofValue index v = .ok s) ∧
    ∀ force, healStage known force s = s ∧ ∀ index, diagnoseStage known force index s = []

theorem untouchedStage_doc {op : String} {spec : Value} (hop : isOperatorName op = true)
    (hliteral : op ≠ "$literal") (hpart : op ∉ partOperators) (h : Untouched known spec) :
    UntouchedStage known (.doc [(op, spec)]) := by
  obtain ⟨e, rfl, hcanonical, hquiet⟩ := h
  have hstage : Canonical (Stage.mk op e).toExpression :=
    Expression.canonical_call hliteral hcanonical
  have hparts : KnownParts known (Stage.mk op e).toExpression :=
    knownParts_call fun hop' => absurd hop' hpart
  refine ⟨⟨op, e⟩, rfl, Stage.ofValue_toValue hop hstage, fun force => ?_⟩
  have hheal : healStage known force ⟨op, e⟩ = ⟨op, e⟩ :=
    healStage_eq_self_iff.mpr (hquiet.heal_eq force)
  refine ⟨hheal, fun index => ?_⟩
  rw [diagnoseStage, hheal, hquiet, hparts.mismatch_eq_nil, List.append_nil]

/-- A run goes over an untouched stage without a report and puts it out as it is. -/
theorem healStages_cons_of_untouched (force : Bool) (index : Nat) {p : Progress} {v : Value}
    (h : UntouchedStage p.fields.contains v) (vs : List Value) :
    ∃ q, q.diagnostics = p.diagnostics ∧ healStages force index p (v :: vs) =
      ((healStages force (index + 1) q vs).1,
        (healStages force (index + 1) q vs).2.map (v :: ·)) := by
  obtain ⟨s, hwritten, hread, hstage⟩ := h
  obtain ⟨hheal, hnone⟩ := hstage force
  refine ⟨(p.step force index s).1, ?_, ?_⟩
  · rw [Progress.step, hnone, List.append_nil]
  · rw [healStages_cons_of_ok (hread index), hheal, hwritten]

theorem healStages_of_untouched {vs : List Value} (h : ∀ v ∈ vs, ∀ known, UntouchedStage known v)
    (force : Bool) (index : Nat) (p : Progress) :
    ∃ p', healStages force index p vs = (p', .ok vs) ∧ p'.diagnostics = p.diagnostics := by
  induction vs generalizing index p with
  | nil => exact ⟨p, rfl, rfl⟩
  | cons v vs ih =>
    obtain ⟨hv, hvs⟩ := List.forall_mem_cons.mp h
    obtain ⟨q, hq, hcons⟩ := healStages_cons_of_untouched force index (hv p.fields.contains) vs
    obtain ⟨p', hrun, hp'⟩ := ih hvs (index + 1) q
    refine ⟨p', ?_, hp'.trans hq⟩
    rw [hcons, hrun]
    rfl

end Inquiry.Dates
