import Inquiry.Proofs.Dates.HealedDefinitions
import Inquiry.Proofs.Dates.Reached

/-!
# Fields in place of conversions

A conversion that gave way is not remembered: the date part around it and the definition made of it are
judged by the field that took its place. Where conversions are forced out this field need not hold
dates, and then the date part is reported and the name that is defined is no date, although the
conversion was one.
-/
namespace Inquiry.Dates

open Expression (find?)

/-- A conversion that healing replaces by the field. -/
def GivesWay (known : String → Bool) (force : Bool) (c : Expression) (f : String) : Prop :=
  ∃ es, c = .keyed es ∧ heal known force c = .fieldRef f

/-- An operand that is the expression `c`, or has it as its only item or as its `date`. -/
inductive TakenFrom (c : Expression) : Expression → Prop
  | operand : TakenFrom c c
  | item : TakenFrom c (.array [c])
  | date {es} (date : find? "date" es = some c) : TakenFrom c (.keyed es)
  | dateOfItem {es} (date : find? "date" es = some c) : TakenFrom c (.array [.keyed es])

variable {known known' : String → Bool} {force projected : Bool} {index : Nat} {c : Expression}
  {f path op : String}

theorem yieldsDate_of_isConversion {e : Expression} (h : isConversion e = true) :
    yieldsDate known e = true := by
  match e, h with
  | .keyed [(op, operand)], h =>
    simp only [isConversion, Bool.or_eq_true, Bool.and_eq_true, decide_eq_true_eq] at h
    rcases h with (rfl | rfl) | ⟨rfl, hdate⟩
    · rfl
    · rfl
    · simp [yieldsDate, producingOperators, hdate]

/-- What gave way was a date, whatever is known. -/
theorem GivesWay.yieldsDate (h : GivesWay known force c f) : yieldsDate known' c = true := by
  obtain ⟨es, rfl, hheal⟩ := h
  obtain ⟨hconverts, -⟩ := heal_eq_fieldRef_iff.mp hheal
  exact yieldsDate_of_isConversion (isConversion_of_healedParts hconverts.isConversion)

/-- A healed document whose date gave way refers to the field. -/
theorem refersTo_heal {es : List (String × Expression)} (hdate : find? "date" es = some c)
    (h : heal known force c = .fieldRef f) : RefersTo f (heal known force (.keyed es)) := by
  rw [heal_arguments known force (by decide) hdate, healedParts]
  refine .date ?_ ?_
  · have hcall := @call?_healedParts known force es
    rw [call?_eq_none_of_find? (by decide) hdate, healedParts] at hcall
    rw [Expression.operator?, hcall]
    rfl
  · rw [Expression.find?_map, hdate, Option.map_some, h]

theorem TakenFrom.takenOf_heal {operand : Expression} (htaken : TakenFrom c operand)
    (h : heal known force c = .fieldRef f) : TakenOf f (heal known force operand) := by
  cases htaken with
  | operand =>
    rw [h]
    exact .operand .field
  | item =>
    rw [heal_array, List.map_cons, List.map_nil, h]
    exact .item .field
  | date hdate => exact .operand (refersTo_heal hdate h)
  | dateOfItem hdate =>
    rw [heal_array, List.map_cons, List.map_nil]
    exact .item (refersTo_heal hdate h)

theorem TakenOf.unique {e : Expression} {g : String} (hf : TakenOf f e) (hg : TakenOf g e) :
    f = g := by
  rw [← partField?_eq_some_iff] at hf hg
  exact Option.some.inj (hf.symm.trans hg)

/-- The report on a date part whose healed operand refers to a field is about this field. -/
theorem LocatedBelow.part_iff {s : Stage} {rs : List (List Nat × Diagnostic)}
    (h : LocatedBelow known force index (s.toExpression.children "")
      (mismatch known index "" (healStage known force s).toExpression) rs)
    {address : List Nat} {operand : Expression}
    (hplace : s.toExpression.place? "" address = some (path, .keyed [(op, operand)]))
    (hop : op ∈ partOperators) (htaken : TakenOf f (heal known force operand)) (d : Diagnostic) :
    (address, d) ∈ rs ↔ known f = false ∧ d = ⟨.operatorMismatch, index, path, op, f⟩ := by
  cases address with
  | nil =>
    obtain ⟨rfl, hcall⟩ := Prod.mk.inj (Option.some.inj hplace)
    obtain ⟨rfl, rfl⟩ : s.operator = op ∧ s.spec = operand := by
      simpa [Stage.toExpression] using hcall
    rw [h.own_iff, mem_mismatch_iff]
    constructor
    · rintro ⟨op, operand, g, hroot, hpart, rfl⟩
      cases hroot
      obtain rfl := hpart.taken.unique htaken
      exact ⟨hpart.unknown, rfl⟩
    · rintro ⟨hunknown, rfl⟩
      exact ⟨_, _, f, rfl, ⟨hop, htaken, hunknown⟩, rfl⟩
  | cons i a =>
    rw [h.mem_iff]
    constructor
    · rintro ⟨q, x, hx, hd⟩
      cases hplace.symm.trans hx
      obtain ⟨op, operand, g, hcall, ⟨-, hheal, -⟩ | ⟨hpart, rfl⟩⟩ := mem_ownReports_iff.mp hd
      · rw [heal_part hop] at hheal
        cases hheal
      · cases hcall
        obtain rfl := hpart.taken.unique htaken
        exact ⟨hpart.unknown, rfl⟩
    · rintro ⟨hunknown, rfl⟩
      exact ⟨path, _, hplace, mem_ownReports_iff.mpr
        ⟨op, operand, f, rfl, Or.inr ⟨⟨hop, htaken, hunknown⟩, rfl⟩⟩⟩

/-- A name that a stage defines by what gave way to a field has the status of the field. -/
theorem contains_propagate_of_givesWay {s : Stage} {F : DateFields} {name : String}
    {earlier later : List (String × Expression)}
    (hspec : ∀ g, heal known force s.spec ≠ .fieldRef g)
    (hds : stageDefinitions s = earlier ++ (name, c) :: later) (hc : GivesWay known force c f)
    (hearlier : ∀ d ∈ earlier, d.1 ≠ f) (hlater : ∀ d ∈ later, d.1 ≠ name) :
    (propagate index (healStage known force s) F).contains name = F.contains f := by
  have hunset : (healStage known force s).operator ≠ "$unset" := by
    intro hunset
    have hnone : stageDefinitions s = [] := by
      rw [stageDefinitions, show s.operator = "$unset" from hunset]
      rfl
    rw [hnone] at hds
    simp at hds
  have hhealed : stageDefinitions (healStage known force s) =
      (earlier.map fun d => (d.1, heal known force d.2)) ++
        (name, .fieldRef f) :: later.map fun d => (d.1, heal known force d.2) := by
    obtain ⟨es, rfl, hheal⟩ := hc
    rw [stageDefinitions_healStage fun es g hes => hes ▸ hspec g, hds, List.map_append,
      List.map_cons, hheal]
  have hflag : flag? (projects (healStage known force s)) (.fieldRef f) = none := by
    unfold flag?
    split <;> rfl
  rw [propagate_eq_foldl hunset, hhealed]
  rw [contains_foldl_judge (d := (name, Expression.fieldRef f)) hflag]
  · rw [yieldsDate]
    refine contains_foldl_judge_of_not_mem fun d hd => ?_
    obtain ⟨d', hd', rfl⟩ := List.mem_map.mp hd
    exact (hearlier d' hd').symm
  · intro d hd
    obtain ⟨d', hd', rfl⟩ := List.mem_map.mp hd
    exact (hlater d' hd').symm

/-- A conversion that gave way leaves it to the field in its place how the date part around it, or the
name that it defines, is judged, on a collection that conversions are forced out of as on any other.
The date part is reported exactly if the field is not in the set before the stage. The name is in the
set after the stage exactly if the field was in it before, unless the stage defines the field before it
or the name again after it. -/
theorem replaced_conversion_judged_as_field (forced : List String) (collection : String)
    (p : Progress) (vs : List Value) :
    ∃ new, (healPipeline forced p collection (.list vs)).1.diagnostics = p.diagnostics ++ new ∧
      ∀ i before s, Reaches (forced.contains collection) 0 p vs i before s →
        let force := forced.contains collection
        let known := before.fields.contains
        let after := (healPipeline forced p collection (.list (vs.take (i + 1)))).1.fields
        (∃ rs, rs.map (·.2) = new.filter (·.stage = i) ∧
          Reported known force i s (healStage known force s) rs ∧
          ∀ address path op operand c f,
            s.toExpression.place? "" address = some (path, .keyed [(op, operand)]) →
            op ∈ partOperators → TakenFrom c operand → GivesWay known force c f →
            ∀ d, (address, d) ∈ rs ↔
              known f = false ∧ d = ⟨.operatorMismatch, i, path, op, f⟩) ∧
        ∀ earlier name c later f, (∀ g, heal known force s.spec ≠ .fieldRef g) →
          stageDefinitions s = earlier ++ (name, c) :: later → GivesWay known force c f →
          (∀ d ∈ earlier, d.1 ≠ f) → (∀ d ∈ later, d.1 ≠ name) →
          yieldsDate known c = true ∧ after.contains name = known f := by
  obtain ⟨new, hnew⟩ := exists_runReports (forced.contains collection) 0 p vs
  refine ⟨new, hnew.diagnostics, fun i before s hreaches => ?_⟩
  intro force known after
  constructor
  · have hfilter := hreaches.filter_reports hnew
    rw [Nat.zero_add] at hfilter
    obtain ⟨rs, hreports, hlocated⟩ := exists_locatedStage known force i s
    refine ⟨rs, hreports.trans hfilter.symm, hlocated.reported, ?_⟩
    intro address path op operand c f hplace hop htaken hc
    obtain ⟨es, rfl, hheal⟩ := hc
    exact hlocated.part_iff hplace hop (htaken.takenOf_heal hheal)
  · intro earlier name c later f hspec hds hc hearlier hlater
    have hafter : after = propagate i (healStage known force s) before.fields := by
      have htake := hreaches.fields_take_succ
      rwa [Nat.zero_add] at htake
    refine ⟨hc.yieldsDate, ?_⟩
    rw [hafter]
    exact contains_propagate_of_givesWay hspec hds hc hearlier hlater

private def rawDate : Expression := .keyed [("$toDate", .fieldRef "raw")]

/-- The date of a text, read twice. -/
private def sentAndMonth : Stage :=
  ⟨"$addFields", .keyed [("sent", rawDate), ("month", .keyed [("$month", rawDate)])]⟩

private theorem ofValue_sentAndMonth :
    Stage.ofValue (0 : Nat) sentAndMonth.toValue = .ok sentAndMonth :=
  Stage.ofValue_toValue (by decide) (by decide) _

private def rawKnown : Progress := .start (.ofNames ["raw"] none)

/-- Where the text is taken for a date, the date part has no report and the name is in the set. -/
theorem replaced_conversion_judged_as_field_raw :
    ∃ rs : List (List Nat × Diagnostic),
      rs.map (·.2) = (healPipeline ["orders"] rawKnown "orders"
        (.list [sentAndMonth.toValue])).1.diagnostics.filter (·.stage = 0) ∧
      (∀ d, ([0, 1], d) ∉ rs) ∧
      (healPipeline ["orders"] rawKnown "orders"
        (.list [sentAndMonth.toValue])).1.fields.contains "sent" = true := by
  have hreaches : Reaches true 0 rawKnown [sentAndMonth.toValue] 0 rawKnown sentAndMonth :=
    reaches_zero_iff.mpr ⟨ofValue_sentAndMonth, rfl⟩
  have hraw : GivesWay rawKnown.fields.contains true rawDate "raw" :=
    ⟨_, rfl, (Converts.toDate .field).heal_eq _ true (Or.inr rfl)⟩
  have hknown : rawKnown.fields.contains "raw" = true := by decide
  obtain ⟨new, hnew, hall⟩ := replaced_conversion_judged_as_field ["orders"] "orders" rawKnown
    [sentAndMonth.toValue]
  obtain ⟨⟨rs, hrs, -, hpart⟩, hdefines⟩ := hall 0 rawKnown sentAndMonth hreaches
  refine ⟨rs, ?_, fun d hd => ?_, ?_⟩
  · rw [hnew]
    exact hrs
  · obtain ⟨hunknown, -⟩ := (hpart _ _ _ _ rawDate _ rfl (by decide) .operand hraw d).mp hd
    exact absurd (hknown.symm.trans hunknown) (by decide)
  · obtain ⟨-, hsent⟩ := hdefines [] "sent" rawDate [("month", .keyed [("$month", rawDate)])] "raw"
      (fun g => heal_ne_fieldRef_of_no_call rfl _ g rfl) rfl hraw (by simp) (by simp)
    exact hsent.trans hknown

/-- A conversion that is forced out leaves a mismatch behind and takes its name out of the set. -/
theorem forced_out_conversion_judged_anew :
    let run := healPipeline ["orders"] (.start .empty) "orders" (.list [sentAndMonth.toValue])
    ⟨.conversionRemoved false, 0, "$addFields.month.$month", "$toDate", "raw"⟩ ∈
        run.1.diagnostics ∧
      ⟨.operatorMismatch, 0, "$addFields.month", "$month", "raw"⟩ ∈ run.1.diagnostics ∧
      run.1.fields.contains "sent" = false ∧
      (healPipeline [] (.start .empty) "orders"
        (.list [sentAndMonth.toValue])).1.fields.contains "sent" = true := by
  decide +kernel

end Inquiry.Dates
