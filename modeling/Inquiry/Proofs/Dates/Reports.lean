import Inquiry.Proofs.Dates.Idempotence
import Inquiry.Proofs.Dates.Places

/-!
# What the reports of a run say

The reports on a stage stand in post-order, and each is about an operator call of the stage as it was
given. The mismatches that are not inside a removed conversion are about the date parts of the stage
as it is returned: those of fields that were not in the set before the stage, and no others.
-/
namespace Inquiry.Dates

open Expression (place?_cons_eq_some_iff PostBefore)

/-- A report at the address says that a conversion was removed. -/
def Removed (rs : List (List Nat × Diagnostic)) (address : List Nat) : Prop :=
  ∃ d, (address, d) ∈ rs ∧ d.isMismatch = false

/-- The address lies inside a conversion that was removed. -/
def BelowRemoved (rs : List (List Nat × Diagnostic)) (address : List Nat) : Prop :=
  ∃ above i below, address = above ++ i :: below ∧ Removed rs above

/-- The reports `rs` on a stage `s`, each with the address of its node, and the stage `t` that is
returned for it. -/
structure Reported (known : String → Bool) (force : Bool) (index : Nat) (s t : Stage)
    (rs : List (List Nat × Diagnostic)) : Prop where
  /-- Post-order is strict, so a node has one report at most. -/
  ordered : rs.Pairwise fun r r' => PostBefore r.1 r'.1
  /-- Where a report says that an operator stands, the stage as it was given has the operator. -/
  placed : ∀ address d, (address, d) ∈ rs → d.stage = index ∧ isOperatorName d.operator = true ∧
    ∃ operand, s.toExpression.place? "" address = some (d.path, .keyed [(d.operator, operand)])
  /-- The removed conversions are the nodes below the root that became a reference. -/
  removed_iff : ∀ address, Removed rs address ↔ address ≠ [] ∧ ∃ path es f,
    s.toExpression.place? "" address = some (path, .keyed es) ∧
      heal known force (.keyed es) = .fieldRef f
  /-- Outside of them, the mismatches are the date parts of the returned stage that are taken of a
  field that is not known. -/
  mismatch_iff : ∀ address path op f,
    (address, ⟨.operatorMismatch, index, path, op, f⟩) ∈ rs ∧ ¬ BelowRemoved rs address ↔
      ∃ operand, t.toExpression.place? "" address = some (path, .keyed [(op, operand)]) ∧
        UnknownPart known op operand f

variable {known : String → Bool} {force : Bool} {index : Nat}

theorem exists_removal {path : String} {es : List (String × Expression)} {f : String}
    (h : heal known force (.keyed es) = .fieldRef f) :
    ∃ d ∈ ownReports known force index path (.keyed es), d.isMismatch = false := by
  rw [ownReports, diagnoseNode, redundantSource?_healedParts.mpr h]
  exact ⟨_, List.mem_singleton_self _, rfl⟩

section Stage

variable {s : Stage} {own : List Diagnostic} {rs : List (List Nat × Diagnostic)}

/-- The reports below the root of a stage are those on its nodes. -/
theorem LocatedBelow.mem_iff
    (h : LocatedBelow known force index (s.toExpression.children "") own rs) {i : Nat}
    {a : List Nat} {d : Diagnostic} : (i :: a, d) ∈ rs ↔ ∃ q x,
      s.toExpression.place? "" (i :: a) = some (q, x) ∧ d ∈ ownReports known force index q x := by
  rw [h.below_iff]
  simp only [place?_cons_eq_some_iff]
  constructor
  · rintro ⟨c, q, x, hc, hx, hd⟩
    exact ⟨q, x, ⟨c, hc, hx⟩, hd⟩
  · rintro ⟨q, x, ⟨c, hc, hx⟩, hd⟩
    exact ⟨c, q, x, hc, hx, hd⟩

section Located

variable (h : LocatedBelow known force index (s.toExpression.children "")
  (mismatch known index "" (healStage known force s).toExpression) rs)
include h

/-- A conversion is reported as removed if its node is below the root and heals to a reference. -/
theorem LocatedBelow.removed_iff (address : List Nat) :
    Removed rs address ↔ address ≠ [] ∧ ∃ path es f,
      s.toExpression.place? "" address = some (path, .keyed es) ∧
        heal known force (.keyed es) = .fieldRef f := by
  cases address with
  | nil =>
    constructor
    · rintro ⟨d, hd, hkind⟩
      obtain ⟨op, operand, f, -, -, rfl⟩ := mem_mismatch_iff.mp ((h.own_iff d).mp hd)
      cases hkind
    · rintro ⟨hroot, -⟩
      exact absurd rfl hroot
  | cons i a =>
    constructor
    · rintro ⟨d, hd, hkind⟩
      obtain ⟨q, x, hx, hd⟩ := h.mem_iff.mp hd
      obtain ⟨op, operand, f, rfl, ⟨-, hheal, -⟩ | ⟨-, rfl⟩⟩ := mem_ownReports_iff.mp hd
      · exact ⟨List.cons_ne_nil i a, q, _, f, hx, hheal⟩
      · cases hkind
    · rintro ⟨-, q, es, f, hx, hheal⟩
      obtain ⟨d, hd, hkind⟩ := exists_removal hheal
      exact ⟨d, h.mem_iff.mpr ⟨q, _, hx, hd⟩, hkind⟩

/-- Below the root, what stands in the healed stage is what is inside no removed conversion. -/
theorem LocatedBelow.standing_iff {c : String × Expression} {i : Nat}
    (hc : (s.toExpression.children "")[i]? = some c) (a : List Nat) :
    Standing known force c.1 c.2 a ↔ ¬ BelowRemoved rs (i :: a) := by
  constructor
  · rintro hstanding ⟨above, j, below, ha, hremoved⟩
    obtain ⟨hroot, q, es, f, hx, hheal⟩ := (h.removed_iff above).mp hremoved
    match above, hroot with
    | k :: above, _ =>
      obtain ⟨rfl, rfl⟩ := List.cons.inj ha
      obtain ⟨c', hc', hx⟩ := place?_cons_eq_some_iff.mp hx
      cases hc.symm.trans hc'
      exact hstanding above j below q es f rfl hx hheal
  · intro hnone above j below q es f ha hx hheal
    refine hnone ⟨i :: above, j, below, congrArg (i :: ·) ha, (h.removed_iff _).mpr ?_⟩
    exact ⟨List.cons_ne_nil i above, q, es, f, place?_cons_eq_some_iff.mpr ⟨c, hc, hx⟩, hheal⟩

theorem LocatedBelow.placed {address : List Nat} {d : Diagnostic} (hd : (address, d) ∈ rs) :
    d.stage = index ∧ isOperatorName d.operator = true ∧ ∃ operand,
      s.toExpression.place? "" address = some (d.path, .keyed [(d.operator, operand)]) := by
  cases address with
  | nil =>
    obtain ⟨op, operand, f, hcall, hpart, rfl⟩ := mem_mismatch_iff.mp ((h.own_iff d).mp hd)
    cases hcall
    exact ⟨rfl, isOperatorName_of_part hpart.part, s.spec, rfl⟩
  | cons i a =>
    obtain ⟨q, x, hx, hd⟩ := h.mem_iff.mp hd
    obtain ⟨op, operand, f, rfl, ⟨hname, -, rfl⟩ | ⟨hpart, rfl⟩⟩ := mem_ownReports_iff.mp hd
    · exact ⟨rfl, hname, operand, hx⟩
    · exact ⟨rfl, isOperatorName_of_part hpart.part, operand, hx⟩

theorem LocatedBelow.mismatch_root_iff (path op f : String) :
    ([], ⟨.operatorMismatch, index, path, op, f⟩) ∈ rs ∧ ¬ BelowRemoved rs [] ↔
      ∃ operand, (healStage known force s).toExpression.place? "" [] =
        some (path, .keyed [(op, operand)]) ∧ UnknownPart known op operand f := by
  rw [h.own_iff, mem_mismatch_iff]
  constructor
  · rintro ⟨⟨op, operand, f, hcall, hpart, hd⟩, -⟩
    cases hd
    exact ⟨operand, congrArg (fun e => some ("", e)) hcall, hpart⟩
  · rintro ⟨operand, hplace, hpart⟩
    obtain ⟨rfl, hcall⟩ := Prod.mk.inj (Option.some.inj hplace)
    refine ⟨⟨op, operand, f, hcall, hpart, rfl⟩, ?_⟩
    rintro ⟨above, i, below, ha, -⟩
    simp at ha

theorem LocatedBelow.mismatch_below_iff (i : Nat) (a : List Nat) (path op f : String) :
    (i :: a, ⟨.operatorMismatch, index, path, op, f⟩) ∈ rs ∧ ¬ BelowRemoved rs (i :: a) ↔
      ∃ operand, (healStage known force s).toExpression.place? "" (i :: a) =
        some (path, .keyed [(op, operand)]) ∧ UnknownPart known op operand f := by
  have hhealed := @children_healedParts known force "" [(s.operator, s.spec)]
  constructor
  · rintro ⟨hd, hnone⟩
    obtain ⟨q, x, hx, hd⟩ := h.mem_iff.mp hd
    obtain ⟨op, operand, f, rfl, ⟨-, -, hd⟩ | ⟨hpart, hd⟩⟩ := mem_ownReports_iff.mp hd
    · cases hd
    cases hd
    obtain ⟨c, hc, hx⟩ := place?_cons_eq_some_iff.mp hx
    refine ⟨_, (place?_cons_of_healed hhealed).mpr ⟨c, hc, place?_heal_iff.mpr
      ⟨⟨_, hx, heal_part hpart.part operand⟩, (h.standing_iff hc a).mpr hnone⟩⟩, hpart⟩
  · rintro ⟨operand, hplace, hpart⟩
    obtain ⟨c, hc, hplace⟩ := (place?_cons_of_healed hhealed).mp hplace
    obtain ⟨⟨x, hx, hheal⟩, hstanding⟩ := place?_heal_iff.mp hplace
    obtain ⟨y, rfl, rfl⟩ := heal_eq_call hheal
    refine ⟨h.mem_iff.mpr ⟨path, _, place?_cons_eq_some_iff.mpr ⟨c, hc, hx⟩, ?_⟩,
      (h.standing_iff hc a).mp hstanding⟩
    exact mem_ownReports_iff.mpr ⟨op, y, f, rfl, Or.inr ⟨hpart, rfl⟩⟩

theorem LocatedBelow.reported : Reported known force index s (healStage known force s) rs where
  ordered := h.ordered
  placed _ _ hd := h.placed hd
  removed_iff := h.removed_iff
  mismatch_iff address path op f := by
    cases address with
    | nil => exact h.mismatch_root_iff path op f
    | cons i a => exact h.mismatch_below_iff i a path op f

end Located

/-- The reports on a stage have their places. -/
theorem exists_locatedStage (known : String → Bool) (force : Bool) (index : Nat) (s : Stage) :
    ∃ rs, rs.map (·.2) = diagnoseStage known force index s ∧
      LocatedBelow known force index (s.toExpression.children "")
        (mismatch known index "" (healStage known force s).toExpression) rs := by
  have hown := length_mismatch_le known index "" (healStage known force s).toExpression
  obtain ⟨rs, h⟩ := @exists_locatedBelow known force index (s.toExpression.children "") _ hown
    fun c _ => exists_located c.1 c.2
  refine ⟨rs, ?_, h⟩
  rw [h.reports, diagnoseStage]
  congr 1
  exact List.append_nil _

theorem exists_reported (known : String → Bool) (force : Bool) (index : Nat) (s : Stage) :
    ∃ rs, rs.map (·.2) = diagnoseStage known force index s ∧
      Reported known force index s (healStage known force s) rs := by
  obtain ⟨rs, hreports, h⟩ := exists_locatedStage known force index s
  exact ⟨rs, hreports, h.reported⟩

end Stage

/-- A report on a stage tells the number of the stage, and its path leads to an operator call there. -/
theorem placed_of_mem_diagnoseStage {s : Stage} {d : Diagnostic}
    (h : d ∈ diagnoseStage known force index s) :
    d.stage = index ∧ isOperatorName d.operator = true ∧ ∃ address operand,
      s.toExpression.place? "" address = some (d.path, .keyed [(d.operator, operand)]) := by
  obtain ⟨rs, hreports, hrs⟩ := exists_reported known force index s
  rw [← hreports] at h
  obtain ⟨⟨address, d⟩, hd, rfl⟩ := List.mem_map.mp h
  obtain ⟨hstage, hname, operand, hplace⟩ := hrs.placed address d hd
  exact ⟨hstage, hname, address, operand, hplace⟩

theorem filter_diagnoseStage (s : Stage) :
    (diagnoseStage known force index s).filter (·.stage = index) =
      diagnoseStage known force index s := by
  rw [List.filter_eq_self]
  intro d hd
  exact decide_eq_true (placed_of_mem_diagnoseStage hd).1

theorem filter_diagnoseStage_of_ne {i : Nat} (h : index ≠ i) (s : Stage) :
    (diagnoseStage known force index s).filter (·.stage = i) = [] := by
  rw [List.filter_eq_nil_iff]
  intro d hd hi
  rw [(placed_of_mem_diagnoseStage hd).1] at hi
  exact h (of_decide_eq_true hi)

/-- What a run reports: the reports on the stages that it came to, stage after stage. -/
structure RunReports (force : Bool) (index : Nat) (p : Progress) (vs : List Value)
    (new : List Diagnostic) : Prop where
  diagnostics : (healStages force index p vs).1.diagnostics = p.diagnostics ++ new
  origin : ∀ d ∈ new, ∃ i v s known, vs[i]? = some v ∧
    Stage.ofValue ((index + i : Nat) : Int) v = .ok s ∧
    d ∈ diagnoseStage known force (index + i) s
  ofStage : ∀ p' out, healStages force index p vs = (p', .ok out) → ∀ i v s, vs[i]? = some v →
    Stage.ofValue ((index + i : Nat) : Int) v = .ok s → new.filter (·.stage = index + i) =
      diagnoseStage (healStages force index p (vs.take i)).1.fields.contains force (index + i) s

theorem exists_runReports (force : Bool) (index : Nat) (p : Progress) (vs : List Value) :
    ∃ new, RunReports force index p vs new := by
  induction vs generalizing index p with
  | nil => exact ⟨[], (List.append_nil _).symm, nofun, nofun⟩
  | cons v vs ih =>
    cases hs : Stage.ofValue index v with
    | error m =>
      refine ⟨[], ?_, nofun, fun p' out hrun => ?_⟩
      · rw [healStages_cons_of_error hs, List.append_nil]
      · rw [healStages_cons_of_error hs] at hrun
        cases hrun
    | ok s =>
      obtain ⟨new, hdiagnostics, horigin, hstage⟩ := ih (index + 1) (p.step force index s).1
      refine ⟨diagnoseStage p.fields.contains force index s ++ new, ?_, fun d hd => ?_, ?_⟩
      · rw [healStages_cons_of_ok hs, ← List.append_assoc]
        exact hdiagnostics
      · rcases List.mem_append.mp hd with hd | hd
        · exact ⟨0, v, s, _, rfl, hs, hd⟩
        · obtain ⟨i, w, t, known, hw, ht, hd⟩ := horigin d hd
          rw [Nat.add_right_comm] at ht hd
          exact ⟨i + 1, w, t, known, hw, ht, hd⟩
      · intro p' out hrun i w t hw ht
        obtain ⟨s', rest, hs', hrest, -⟩ := healStages_cons_ok_iff.mp hrun
        cases hs.symm.trans hs'
        have hnew : new.filter (·.stage = index) = [] := by
          rw [List.filter_eq_nil_iff]
          intro d hd hd'
          obtain ⟨i, _, _, _, -, -, hd⟩ := horigin d hd
          have := (placed_of_mem_diagnoseStage hd).1.symm.trans (of_decide_eq_true hd')
          omega
        rw [List.filter_append]
        cases i with
        | zero =>
          cases hw
          cases hs.symm.trans ht
          rw [Nat.add_zero, filter_diagnoseStage, hnew, List.append_nil]
          rfl
        | succ i =>
          rw [filter_diagnoseStage_of_ne (by omega), List.nil_append, List.take_succ_cons,
            healStages_cons_of_ok hs, ← Nat.add_assoc, Nat.add_right_comm]
          rw [← Nat.add_assoc, Nat.add_right_comm] at ht
          exact hstage p' rest hrest i w t hw ht

/-- Whatever the pipeline is, every report of a run is about an operator call of the stage that it
names, as the stage was given. If the run succeeds, the reports on a stage have their places, and those
mismatches that are inside no removed conversion are, in post-order, the date parts of the returned
stage that are taken of a field that was not in the set before the stage. -/
theorem reports_at_places (forced : List String) (collection : String) (p : Progress)
    (vs : List Value) :
    ∃ new, (healPipeline forced p collection (.list vs)).1.diagnostics = p.diagnostics ++ new ∧
      (∀ d ∈ new, ∃ v s address operand, vs[d.stage]? = some v ∧ Stage.ofValue d.stage v = .ok s ∧
        isOperatorName d.operator = true ∧
        s.toExpression.place? "" address = some (d.path, .keyed [(d.operator, operand)])) ∧
      ∀ out, (healPipeline forced p collection (.list vs)).2 = .ok out →
        ∀ (i : Nat) v, vs[i]? = some v → ∃ s w t rs, Stage.ofValue i v = .ok s ∧
          out[i]? = some w ∧ Stage.ofValue i w = .ok t ∧ rs.map (·.2) = new.filter (·.stage = i) ∧
          Reported (healPipeline forced p collection (.list (vs.take i))).1.fields.contains
            (forced.contains collection) i s t rs := by
  obtain ⟨new, hdiagnostics, horigin, hstage⟩ :=
    exists_runReports (forced.contains collection) 0 p vs
  refine ⟨new, hdiagnostics, fun d hd => ?_, fun out hout i v hv => ?_⟩
  · obtain ⟨i, v, s, known, hv, hs, hd⟩ := horigin d hd
    obtain ⟨hi, hname, address, operand, hplace⟩ := placed_of_mem_diagnoseStage hd
    rw [Nat.zero_add] at hi hs
    rw [← hi] at hv hs
    exact ⟨v, s, address, operand, hv, hs, hname, hplace⟩
  · obtain ⟨p', hrun⟩ : ∃ p', healStages (forced.contains collection) 0 p vs = (p', .ok out) :=
      ⟨_, Prod.ext rfl hout⟩
    obtain ⟨s, hs, hw⟩ := healStages_getElem? hrun hv
    have hfilter := hstage p' out hrun i v s hv hs
    rw [Nat.zero_add] at hs hfilter
    obtain ⟨rs, hrs, hreported⟩ := exists_reported _ (forced.contains collection) i s
    exact ⟨s, _, _, rs, hs, hw, ofValue_healStage hs i, hrs.trans hfilter.symm, hreported⟩

private def shipped (sent due : Expression) : Stage :=
  ⟨"$project", .keyed [("sent", sent), ("month", .keyed [("$month", due)])]⟩

private def sentText : Expression :=
  .keyed [("$dateFromString", .keyed [("dateString", .fieldRef "raw"),
    ("timezone", .keyed [("$year", .fieldRef "zone")])])]

private def dueText : Expression := .keyed [("$toDate", .fieldRef "due")]

/-- A forced run over a stage with a conversion of a document and one inside a date part. The zone that
the first one reads is lost with it, and so only the mismatch of the second one is in the output. -/
theorem reports_at_places_shipped :
    (healPipeline ["orders"] (.start .empty) "orders"
        (.list [(shipped sentText dueText).toValue])).2 =
      .ok [(shipped (.fieldRef "raw") (.fieldRef "due")).toValue] ∧
    ∃ rs, rs.map (·.2) =
        [⟨.operatorMismatch, 0, "$project.sent.$dateFromString.timezone", "$year", "zone"⟩,
          ⟨.conversionRemoved false, 0, "$project.sent", "$dateFromString", "raw"⟩,
          ⟨.conversionRemoved false, 0, "$project.month.$month", "$toDate", "due"⟩,
          ⟨.operatorMismatch, 0, "$project.month", "$month", "due"⟩] ∧
      Reported DateFields.empty.contains true 0 (shipped sentText dueText)
        (shipped (.fieldRef "raw") (.fieldRef "due")) rs := by
  have hread : Stage.ofValue (0 : Nat) (shipped sentText dueText).toValue =
      .ok (shipped sentText dueText) :=
    Stage.ofValue_toValue (by decide) (by decide) _
  have hreturned : Stage.ofValue (0 : Nat) (shipped (.fieldRef "raw") (.fieldRef "due")).toValue =
      .ok (shipped (.fieldRef "raw") (.fieldRef "due")) :=
    @ofValue_healStage DateFields.empty.contains true _ _ _ hread 0
  have hrun : healPipeline ["orders"] (.start .empty) "orders"
      (.list [(shipped sentText dueText).toValue]) =
        (((Progress.start .empty).step true 0 (shipped sentText dueText)).1,
          .ok [(shipped (.fieldRef "raw") (.fieldRef "due")).toValue]) :=
    healPipeline_ok_iff.mpr ⟨_, rfl, healStages_cons_ok_iff.mpr ⟨_, [], hread,
      healStages_nil_ok_iff.mpr ⟨rfl, rfl⟩, rfl⟩⟩
  obtain ⟨new, hnew, -, hstages⟩ := reports_at_places ["orders"] "orders" (.start .empty)
    [(shipped sentText dueText).toValue]
  obtain ⟨s, w, t, rs, hs, hw, ht, hreports, h⟩ :=
    hstages _ (congrArg Prod.snd hrun) 0 _ rfl
  cases hread.symm.trans hs
  cases hw
  cases hreturned.symm.trans ht
  refine ⟨congrArg Prod.snd hrun, rs, hreports.trans ?_, h⟩
  have hnew' : new = (healPipeline ["orders"] (.start .empty) "orders"
      (.list [(shipped sentText dueText).toValue])).1.diagnostics := hnew.symm
  rw [hnew']
  decide +kernel

end Inquiry.Dates
