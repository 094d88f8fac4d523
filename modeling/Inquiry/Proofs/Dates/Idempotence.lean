import Inquiry.Proofs.Dates.NormalForm
import Inquiry.Proofs.Dates.Run
import Inquiry.Proofs.Expression.Canonical

/-!
# A healed pipeline is healed

A field that takes the place of a conversion was read from the input, so a healed tree is canonical:
it is written and read back as it is. Healing it again against the same fields changes nothing, and so
the fields after each stage are the same in both runs.
-/
namespace Inquiry.Dates

open Expression (Canonical mem_of_find?)

theorem Reads.canonical {f : String} {e : Expression} (h : Reads f e) (hc : Canonical e) :
    Canonical (.fieldRef f) := by
  cases h with
  | field => exact hc
  | text => exact hc.entry List.mem_cons_self (by decide)
  | textOfItem =>
    exact (hc.entry List.mem_cons_self (by decide)).items _ List.mem_cons_self

/-- The field that a conversion reads stands in it as a reference. -/
theorem Converts.canonical {f : String} {e : Expression} (h : Converts f e) (hc : Canonical e) :
    Canonical (.fieldRef f) := by
  cases h with
  | toDate reads =>
    exact reads.canonical (hc.entry List.mem_cons_self (by decide))
  | toDateItem reads =>
    exact reads.canonical
      ((hc.entry List.mem_cons_self (by decide)).items _ List.mem_cons_self)
  | dateFromString text reads =>
    have hargs := hc.entry List.mem_cons_self (by decide)
    exact reads.canonical (hargs.entry (mem_of_find? text) (by decide))
  | convert kind date input reads =>
    have hargs := hc.entry List.mem_cons_self (by decide)
    exact reads.canonical (hargs.entry (mem_of_find? input) (by decide))

variable {known : String → Bool} {force : Bool}

theorem canonical_healedParts {es : List (String × Expression)} (h : Canonical (.keyed es))
    (hes : ∀ d ∈ es, Canonical d.2 → Canonical (heal known force d.2)) :
    Canonical (healedParts known force es) := by
  refine .keyed ?_ ?_
  · intro d hd hkey
    obtain ⟨⟨key, e⟩, hc, rfl⟩ := List.mem_map.mp hd
    obtain rfl : key = "$literal" := hkey
    obtain ⟨v, hv⟩ := h.literal hc
    exact ⟨v, (heal_eq_scalar_iff known force).mpr hv⟩
  · intro d hd hkey
    obtain ⟨c, hc, rfl⟩ := List.mem_map.mp hd
    exact hes c hc (h.entry hc hkey)

theorem canonical_heal {e : Expression} (h : Canonical e) : Canonical (heal known force e) := by
  induction e with
  | scalar v => rwa [heal_scalar]
  | fieldRef path => rwa [heal_fieldRef]
  | array xs ih =>
    rw [heal_array]
    refine .array ?_
    intro x hx
    obtain ⟨y, hy, rfl⟩ := List.mem_map.mp hx
    exact ih y hy (h.items y hy)
  | keyed es ih =>
    have hparts := canonical_healedParts h ih
    rw [heal_keyed]
    rcases collapse_eq_or known force (healedParts known force es) with hc | ⟨f, hc, hf, -⟩
    · rwa [hc]
    · rw [hc]
      exact hf.canonical hparts

/-- A healed stage is written as a value that reads as the healed stage. -/
theorem ofValue_healStage {index : Int} {v : Value} {s : Stage} (h : Stage.ofValue index v = .ok s)
    (index' : Int) :
    Stage.ofValue index' (healStage known force s).toValue = .ok (healStage known force s) := by
  obtain ⟨hop, hc⟩ := Stage.canonical_of_ofValue h
  have hcanonical : Canonical (healStage known force s).toExpression :=
    canonical_healedParts hc fun d _ hd => canonical_heal hd
  have hop' : isOperatorName (healStage known force s).operator = true := hop
  exact Stage.ofValue_toValue hop' hcanonical index'

/-- A step over a healed stage, from the same fields, leads to the same fields and stage and reports
no removal. -/
theorem step_healStage (p q : Progress) (hfields : q.fields = p.fields) (index : Nat) (s : Stage) :
    (q.step force index (healStage p.fields.contains force s)).1.fields =
        (p.step force index s).1.fields ∧
      (q.step force index (healStage p.fields.contains force s)).2 =
        healStage p.fields.contains force s ∧
      removals (q.step force index (healStage p.fields.contains force s)).1.diagnostics =
        removals q.diagnostics := by
  have hheal : healStage q.fields.contains force (healStage p.fields.contains force s) =
      healStage p.fields.contains force s := by
    rw [hfields, healStage_healStage]
  have hnone := (removals_diagnoseStage_eq_zero_iff index _).mpr hheal
  refine ⟨?_, hheal, ?_⟩
  · simp only [Progress.step, hheal]
    rw [hfields]
  · simp only [Progress.step, removals_append, hnone, Nat.add_zero]

theorem healStages_healed {index : Nat} {p p' : Progress} {vs out : List Value}
    (h : healStages force index p vs = (p', .ok out)) (q : Progress) (hfields : q.fields = p.fields) :
    ∃ q', healStages force index q out = (q', .ok out) ∧ q'.fields = p'.fields ∧
      removals q'.diagnostics = removals q.diagnostics := by
  -- Both runs have the same fields before each stage, so the second one finds it healed.
  induction vs generalizing index p q out with
  | nil =>
    obtain ⟨rfl, rfl⟩ := healStages_nil_ok_iff.mp h
    exact ⟨q, rfl, hfields, rfl⟩
  | cons v vs ih =>
    obtain ⟨s, rest, hs, hrun, rfl⟩ := healStages_cons_ok_iff.mp h
    obtain ⟨hnext, hstage, hremovals⟩ := @step_healStage force p q hfields index s
    obtain ⟨q', hq, hq', hr⟩ := ih hrun _ hnext
    refine ⟨q', healStages_cons_ok_iff.mpr ⟨_, rest, ofValue_healStage hs index, hq, ?_⟩, hq',
      hr.trans hremovals⟩
    exact congrArg (fun t => Stage.toValue t :: rest) hstage.symm

/-- A second run over the output of a successful run, from the fields that the first run began with,
succeeds with the same output and the same fields, sources included, and removes no conversion. -/
theorem healPipeline_idempotent (forced : List String) (collection : String) (pipeline : Value)
    (p p' : Progress) (out : List Value)
    (h : healPipeline forced p collection pipeline = (p', .ok out)) :
    ∃ ds, healPipeline forced (.start p.fields) collection (.list out) =
        (⟨p'.fields, ds⟩, .ok out) ∧ removals ds = 0 := by
  obtain ⟨vs, -, hrun⟩ := healPipeline_ok_iff.mp h
  obtain ⟨q', hq, hfields, hremovals⟩ := healStages_healed hrun (.start p.fields) rfl
  refine ⟨q'.diagnostics, healPipeline_ok_iff.mpr ⟨out, rfl, ?_⟩, hremovals⟩
  rw [hq, ← hfields]

private def made : Stage := ⟨"$addFields", .keyed [("made", .keyed [("$toDate", .fieldRef "raw")])]⟩

private def used (date : Expression) : Stage :=
  ⟨"$project", .keyed [("month", .keyed [("$month", date)]),
    ("kept", .keyed [("$literal", .scalar (.doc [("$toDate", .str "$made")]))])]⟩

private def readBack : Expression :=
  .keyed [("$dateFromString", .keyed [("dateString", .keyed [("$toString",
    .array [.fieldRef "made"])])])]

/-- A pipeline that makes a date and reads it back from its text; the payload only looks like that. -/
theorem healPipeline_idempotent_draft :
    ∃ p' ds,
      healPipeline [] (.start .empty) "orders" (.list [made.toValue, (used readBack).toValue]) =
        (p', .ok [made.toValue, (used (.fieldRef "made")).toValue]) ∧
      healPipeline [] (.start .empty) "orders"
          (.list [made.toValue, (used (.fieldRef "made")).toValue]) =
        (⟨p'.fields, ds⟩, .ok [made.toValue, (used (.fieldRef "made")).toValue]) ∧
      removals ds = 0 := by
  have hmade : Stage.ofValue (0 : Nat) made.toValue = .ok made :=
    Stage.ofValue_toValue (by decide) (by decide) _
  have hused : Stage.ofValue ((0 + 1 : Nat) : Int) (used readBack).toValue = .ok (used readBack) :=
    Stage.ofValue_toValue (by decide) (by decide) _
  have hrun : healPipeline [] (.start .empty) "orders"
      (.list [made.toValue, (used readBack).toValue]) =
        ((((Progress.start .empty).step false 0 made).1.step false 1 (used readBack)).1,
          .ok [made.toValue, (used (.fieldRef "made")).toValue]) :=
    healPipeline_ok_iff.mpr ⟨_, rfl, healStages_cons_ok_iff.mpr ⟨made, _, hmade,
      healStages_cons_ok_iff.mpr ⟨used readBack, [], hused,
        healStages_nil_ok_iff.mpr ⟨rfl, rfl⟩, rfl⟩, rfl⟩⟩
  obtain ⟨ds, hagain, hremovals⟩ := healPipeline_idempotent [] "orders" _ _ _ _ hrun
  exact ⟨_, ds, hrun, hagain, hremovals⟩

end Inquiry.Dates
