import Mathlib.Data.List.Flatten
import Inquiry.Proofs.Dates.HealedDefinitions
import Inquiry.Proofs.Dates.Places
import Inquiry.Proofs.Expression.Canonical

/-!
# More date fields

A run that knows more date fields removes more conversions. What it removes was a date and is one as a
field that it knows, so it tracks no less after a stage, and it has no mismatch to report that the
other run does not report. A conversion that reads a name that its own stage has defined before it is
the exception: it gives way to a field that is no date any more.
-/
namespace Inquiry.Dates

open Expression (Canonical canonical_call)

variable {known known' : String → Bool} {force : Bool}

section Stages

variable {projected : Bool} {source name : String} {f g : DateFields}

theorem extends_judge (hext : Extends f.contains g.contains) {x y : Expression}
    (hflag : flag? projected x = flag? projected y)
    (hyields : yieldsDate f.contains x = true → yieldsDate g.contains y = true) :
    Extends (judge projected source f (name, x)).contains
      (judge projected source g (name, y)).contains := by
  intro m hm
  by_cases hname : m = name
  · subst hname
    cases hy : flag? projected y with
    | none =>
      rw [@contains_judge projected source g (m, y) hy]
      rw [@contains_judge projected source f (m, x) (hflag.trans hy)] at hm
      exact hyields hm
    | some flag =>
      have hx := hflag.trans hy
      rw [judge, verdict] at hm ⊢
      dsimp only at hm ⊢
      rw [hx] at hm
      rw [hy]
      cases flag with
      | true => exact hext m hm
      | false =>
        dsimp only at hm
        rw [DateFields.contains_settle] at hm
        cases hm
  · rw [contains_judge_of_ne hname] at hm ⊢
    exact hext m hm

theorem extends_untrack (hext : Extends f.contains g.contains) (name : String) :
    Extends (f.untrack name).contains (g.untrack name).contains := by
  intro m hm
  by_cases hname : m = name
  · subst hname
    have hgone : (f.untrack m).contains m = false := @DateFields.contains_settle f m "" false
    rw [hgone] at hm
    cases hm
  · have hkept (f : DateFields) : (f.untrack name).contains m = f.contains m :=
      @DateFields.contains_settle_of_ne f name m "" (some false) hname
    rw [hkept] at hm ⊢
    exact hext m hm

/-- Definitions that do not convert the names of earlier ones heal to the same by the set before the
stage and by the one that the earlier definitions left. -/
theorem extends_foldl_judge {ds : List (String × Expression)}
    (hapart : ds.Pairwise fun c d => HealsRegardless force d.2 c.1)
    (hext : Extends f.contains g.contains)
    (hf : ∀ d ∈ ds, heal known force d.2 = heal f.contains force d.2)
    (hg : ∀ d ∈ ds, heal known' force d.2 = heal g.contains force d.2) :
    Extends
      ((ds.map fun d => (d.1, heal known force d.2)).foldl (judge projected source) f).contains
      ((ds.map fun d => (d.1, heal known' force d.2)).foldl (judge projected source) g).contains := by
  induction ds generalizing f g with
  | nil => exact hext
  | cons d ds ih =>
    obtain ⟨hd, hds⟩ := List.pairwise_cons.mp hapart
    obtain ⟨hfd, hfds⟩ := List.forall_mem_cons.mp hf
    obtain ⟨hgd, hgds⟩ := List.forall_mem_cons.mp hg
    have hkept (f : DateFields) (e : Expression) (m : String) (hm : m ≠ d.1) :
        f.contains m = (judge projected source f (d.1, e)).contains m :=
      (@contains_judge_of_ne projected source f (d.1, e) m hm).symm
    rw [List.map_cons, List.map_cons, List.foldl_cons, List.foldl_cons]
    refine ih hds ?_ ?_ ?_
    · refine extends_judge hext ?_ ?_
      · rw [flag?_heal, flag?_heal]
      · rw [hfd, hgd]
        exact yieldsDate_heal_mono hext force d.2
    · intro c hc
      rw [hfds c hc]
      exact hd c hc _ _ (hkept _ _)
    · intro c hc
      rw [hgds c hc]
      exact hd c hc _ _ (hkept _ _)

/-- A stage whose definitions do not convert the names of earlier ones tracks no less when more is
known before it. -/
theorem extends_propagate {s : Stage} (hspec : s.spec.call? = none)
    (hapart : (stageDefinitions s).Pairwise fun c d => HealsRegardless force d.2 c.1)
    (hext : Extends f.contains g.contains) (index : Nat) :
    Extends (propagate index (healStage f.contains force s) f).contains
      (propagate index (healStage g.contains force s) g).contains := by
  by_cases hunset : s.operator = "$unset"
  · have hdrops (f : DateFields) : propagate index (healStage f.contains force s) f =
        (unsetNames s.spec).foldl DateFields.untrack f := by
      rw [propagate_of_unset (s := healStage f.contains force s) hunset, healStage, unsetNames_heal]
    rw [hdrops, hdrops]
    generalize unsetNames s.spec = names
    induction names generalizing f g with
    | nil => exact hext
    | cons name names ih => exact ih (extends_untrack hext name)
  · have hsettles (f : DateFields) : propagate index (healStage f.contains force s) f =
        ((stageDefinitions s).map fun d => (d.1, heal f.contains force d.2)).foldl
          (judge (projects s) (sourceText index s.operator)) f := by
      rw [propagate_eq_foldl (s := healStage f.contains force s) hunset,
        stageDefinitions_healStage (heal_ne_fieldRef_of_no_call hspec)]
      rfl
    rw [hsettles, hsettles]
    exact extends_foldl_judge hapart hext (fun _ _ => rfl) fun _ _ => rfl

end Stages

theorem heal_eq_fieldRef {e : Expression} {f : String} (h : heal known false e = .fieldRef f)
    (hf : known f = false) : e = .fieldRef f := by
  cases e with
  | scalar v => rw [heal_scalar] at h; cases h
  | fieldRef path => rwa [heal_fieldRef] at h
  | array xs => rw [heal_array] at h; cases h
  | keyed es =>
    rcases heal_keyed_cases known false es with hc | ⟨g, hc, -, haccept⟩
    · rw [hc] at h
      cases h
    · rw [hc] at h
      cases h
      rw [hf] at haccept
      simp at haccept

theorem unwrapSingle_heal (e : Expression) :
    (heal known force e).unwrapSingle = heal known force e.unwrapSingle := by
  cases e with
  | scalar v =>
    rw [heal_scalar]
    exact (heal_scalar known force v).symm
  | fieldRef f =>
    rw [heal_fieldRef]
    exact (heal_fieldRef known force f).symm
  | array xs =>
    rw [heal_array]
    match xs with
    | [] => exact (heal_array known force []).symm
    | [x] => rfl
    | a :: b :: xs => exact (heal_array known force (a :: b :: xs)).symm
  | keyed es =>
    change (heal known force (.keyed es)).unwrapSingle = heal known force (.keyed es)
    rcases heal_keyed_cases known force es with hc | ⟨f, hc, -⟩
    · rw [hc]
      rfl
    · rw [hc]
      rfl

/-- A date part that is taken of a field outside both sets is taken of it however the operand is
healed. -/
theorem partField?_heal {e : Expression} {f : String}
    (h : partField? (heal known' force e) = some f) (hf : known' f = false) :
    partField? (heal known force e) = some f := by
  cases force with
  | true => rwa [heal_forced known known']
  | false =>
    unfold partField? at h ⊢
    rw [unwrapSingle_heal] at h ⊢
    generalize e.unwrapSingle = x at h ⊢
    cases x with
    | scalar v => rwa [heal_scalar] at h ⊢
    | fieldRef path => rwa [heal_fieldRef] at h ⊢
    | array xs => rw [heal_array] at h; cases h
    | keyed es =>
      rcases heal_keyed_cases known' false es with hc | ⟨g, hc, -, haccept⟩
      · rw [hc, healedParts] at h
        dsimp only at h
        split at h
        · rename_i hoperator
          split at h
          · rename_i path hdate
            cases h
            have hcall : (Expression.keyed es).call? = none := by
              have hparts : (healedParts known' false es).call? = none := by
                rw [healedParts]
                simpa [Expression.operator?] using hoperator
              rwa [call?_healedParts, Option.map_eq_none_iff] at hparts
            rw [Expression.get?_keyed, Expression.find?_map, Option.map_eq_some_iff] at hdate
            obtain ⟨y, hy, hfield⟩ := hdate
            rw [heal_keyed_of_no_call hcall]
            have hoperator' : (healedParts known false es).operator?.isNone = true := by
              rw [Expression.operator?, call?_healedParts, hcall]
              rfl
            have hdate' : (healedParts known false es).get? "date" = some (.fieldRef f) := by
              rw [healedParts, Expression.get?_keyed, Expression.find?_map, hy,
                heal_eq_fieldRef hfield hf]
              exact congrArg some (heal_fieldRef known false f)
            rw [healedParts] at hoperator' hdate' ⊢
            dsimp only
            rw [if_pos hoperator', hdate']
          · cases h
        · cases h
      · rw [hc] at h
        cases h
        rw [hf] at haccept
        simp at haccept

section Reports

variable {stage : Nat}

theorem mismatch_eq (path op : String) (operand : Expression) (hop : isOperatorName op = true) :
    mismatch known stage path (.keyed [(op, operand)]) =
      if partOperators.contains op then
        match partField? operand with
        | some f => if known f then [] else [⟨.operatorMismatch, stage, path, op, f⟩]
        | none => []
      else [] := by
  have hcall : (Expression.keyed [(op, operand)]).call? = some (op, operand) :=
    Expression.call?_eq_some_iff.mpr ⟨hop, rfl⟩
  unfold mismatch
  exact hcall ▸ rfl

theorem mismatch_eq_nil {path : String} {e : Expression} (h : e.call? = none) :
    mismatch known stage path e = [] := by
  rw [mismatch, h]

theorem isMismatch_of_mem_mismatch {path : String} {e : Expression} :
    ∀ d ∈ mismatch known stage path e, d.isMismatch = true := by
  intro d hd
  obtain ⟨op, operand, f, -, -, rfl⟩ := mem_mismatch_iff.mp hd
  rfl

/-- No conversion takes a date apart. -/
theorem mismatch_converts {path f : String} {e : Expression} (h : Converts f e) :
    mismatch known stage path e = [] := by
  obtain ⟨op, operand, rfl, hop⟩ := h.operator
  rw [List.eq_nil_iff_forall_not_mem]
  intro d hd
  obtain ⟨_, _, _, hcall, hpart, -⟩ := mem_mismatch_iff.mp hd
  cases hcall
  exact not_conversion_of_part hpart.part hop

theorem filter_diagnoseNode (path : String) (e : Expression) :
    (diagnoseNode known force stage path e).filter (·.isMismatch) =
      mismatch known stage path e := by
  unfold diagnoseNode
  cases h : redundantSource? known force e with
  | none => exact List.filter_eq_self.mpr isMismatch_of_mem_mismatch
  | some f =>
    rw [mismatch_converts (redundantSource?_eq_some_iff.mp h).1]
    rfl

theorem mismatch_healedParts_sublist (hext : Extends known known') (path : String)
    (es : List (String × Expression)) :
    (mismatch known' stage path (healedParts known' force es)).Sublist
      (mismatch known stage path (healedParts known force es)) := by
  cases hcall : (Expression.keyed es).call? with
  | none =>
    rw [mismatch_eq_nil (by rw [call?_healedParts, hcall]; rfl)]
    exact List.nil_sublist _
  | some call =>
    obtain ⟨op, operand⟩ := call
    obtain ⟨hop, hes⟩ := Expression.call?_eq_some_iff.mp hcall
    cases hes
    rw [healedParts_call, healedParts_call, mismatch_eq _ _ _ hop, mismatch_eq _ _ _ hop]
    split
    · cases hpart : partField? (heal known' force operand) with
      | none => exact List.nil_sublist _
      | some f =>
        dsimp only
        split
        · exact List.nil_sublist _
        · rename_i hf
          have hf' : known f ≠ true := fun h => hf (hext f h)
          rw [partField?_heal hpart (Bool.eq_false_iff.mpr hf)]
          dsimp only
          rw [if_neg hf']
    · exact List.Sublist.refl _

theorem ownReports_sublist (hext : Extends known known') (path : String) (e : Expression) :
    ((ownReports known' force stage path e).filter (·.isMismatch)).Sublist
      ((ownReports known force stage path e).filter (·.isMismatch)) := by
  cases e with
  | keyed es =>
    rw [ownReports, ownReports, filter_diagnoseNode, filter_diagnoseNode]
    exact mismatch_healedParts_sublist hext path es
  | _ => exact List.Sublist.refl _

theorem diagnose_sublist (hext : Extends known known') (path : String) (e : Expression) :
    ((diagnose known' force stage path e).filter (·.isMismatch)).Sublist
      ((diagnose known force stage path e).filter (·.isMismatch)) := by
  induction e using Expression.children_induction generalizing path with
  | node e ih =>
    rw [diagnose_eq_flatMap, diagnose_eq_flatMap, List.filter_append, List.filter_append,
      List.filter_flatMap, List.filter_flatMap]
    exact (List.Sublist.flatMap_right _ fun c hc => ih path c hc c.1).append
      (ownReports_sublist hext path e)

theorem diagnoseStage_sublist (hext : Extends known known') (s : Stage) :
    ((diagnoseStage known' force stage s).filter (·.isMismatch)).Sublist
      ((diagnoseStage known force stage s).filter (·.isMismatch)) := by
  have hself (known : String → Bool) :
      (mismatch known stage "" (healStage known force s).toExpression).filter (·.isMismatch) =
        mismatch known stage "" (healedParts known force [(s.operator, s.spec)]) :=
    List.filter_eq_self.mpr isMismatch_of_mem_mismatch
  rw [diagnoseStage, diagnoseStage, List.filter_append, List.filter_append, hself, hself]
  exact (diagnose_sublist hext _ _).append (mismatch_healedParts_sublist hext _ _)

end Reports

/-- The second run tracks every name that the first one tracks, and the mismatches that it reports are
among those of the first one, in their order. -/
structure Progress.Ahead (p p' : Progress) : Prop where
  tracked : ∀ name, p.fields.contains name = true → p'.fields.contains name = true
  mismatches : (p'.diagnostics.filter (·.isMismatch)).Sublist (p.diagnostics.filter (·.isMismatch))

variable {index : Nat} {p p' : Progress}

theorem Progress.Ahead.step {s : Stage} (h : Progress.Ahead p p') (hspec : s.spec.call? = none)
    (hapart : (stageDefinitions s).Pairwise fun c d => HealsRegardless force d.2 c.1) :
    Progress.Ahead (p.step force index s).1 (p'.step force index s).1 := by
  constructor
  · exact extends_propagate hspec hapart h.tracked index
  · unfold Progress.step
    dsimp only
    rw [List.filter_append, List.filter_append]
    exact h.mismatches.append (diagnoseStage_sublist h.tracked s)

theorem Progress.Ahead.healStages (h : Progress.Ahead p p') {vs : List Value}
    (hspecs : ∀ v ∈ vs, ∀ (index : Int) s, Stage.ofValue index v = .ok s → s.spec.call? = none)
    (hapart : ∀ v ∈ vs, ∀ (index : Int) s, Stage.ofValue index v = .ok s →
      (stageDefinitions s).Pairwise fun c d => HealsRegardless force d.2 c.1) :
    Progress.Ahead (healStages force index p vs).1 (healStages force index p' vs).1 := by
  induction vs generalizing index p p' with
  | nil => exact h
  | cons v vs ih =>
    obtain ⟨hspec, hspecs⟩ := List.forall_mem_cons.mp hspecs
    obtain ⟨hv, hapart⟩ := List.forall_mem_cons.mp hapart
    cases hs : Stage.ofValue index v with
    | error m =>
      rw [healStages_cons_of_error hs, healStages_cons_of_error hs]
      exact h
    | ok s =>
      rw [healStages_cons_of_ok hs, healStages_cons_of_ok hs]
      exact ih (h.step (hspec _ s hs) (hv _ s hs)) hspecs hapart

/-- More date fields do no harm, as long as no definition of a stage has a conversion that reads the
name of an earlier definition: after every stage the run from the larger set tracks all that the run
from the smaller one tracks, and it reports no mismatch that the other does not report. Where
conversions are forced out, the definitions may read what they like. -/
theorem healPipeline_ahead (forced : List String) (collection : String) (f g : DateFields)
    (vs : List Value) (hseeds : ∀ name, f.contains name = true → g.contains name = true)
    (hspecs : ∀ v ∈ vs, ∀ (index : Int) s, Stage.ofValue index v = .ok s → s.spec.call? = none)
    (hreads : forced.contains collection = false →
      ∀ v ∈ vs, ∀ (index : Int) s, Stage.ofValue index v = .ok s →
        (stageDefinitions s).Pairwise fun c d => Unconverted c.1 d.2) (n : Nat) :
    Progress.Ahead (healPipeline forced (.start f) collection (.list (vs.take n))).1
      (healPipeline forced (.start g) collection (.list (vs.take n))).1 := by
  have hstart : Progress.Ahead (.start f) (.start g) := ⟨hseeds, List.Sublist.refl _⟩
  refine hstart.healStages (fun v hv => hspecs v (List.mem_of_mem_take hv)) ?_
  intro v hv index s hs
  cases hforce : forced.contains collection with
  | true => exact List.pairwise_of_forall fun c d => healsRegardless_forced d.2 c.1
  | false =>
    exact (hreads hforce v (List.mem_of_mem_take hv) index s hs).imp
      fun h => healsRegardless_of_unconverted false h

namespace Sample

/-- A stage that writes a text over one field and makes a date of another one. -/
def parsed (field : String) : Stage :=
  ⟨"$addFields", .keyed [noted, ("kept", .keyed [("$toDate", .fieldRef field)])]⟩

def monthOf (field : String) : Stage :=
  ⟨"$project", .keyed [("month", .keyed [("$month", .fieldRef field)])]⟩

def parsedMonth (field read : String) : List Value := [(parsed field).toValue, (monthOf read).toValue]

def knowing (dates : List String) : DateFields := .ofNames dates (some ["due", "placed", "note"])

def runOver (dates : List String) (stages : List Value) : Progress :=
  (healPipeline [] (.start (knowing dates)) "orders" (.list stages)).1

theorem ofValue_parsed {field : String} (h : fieldPath? ("$" ++ field) = some field) (index : Int) :
    Stage.ofValue index (parsed field).toValue = .ok (parsed field) := by
  have hkept : Canonical (.keyed [("kept", .keyed [("$toDate", .fieldRef field)])]) :=
    canonical_call (by decide) (canonical_call (by decide) (.fieldRef h))
  have hspec : Canonical (.keyed [noted, ("kept", .keyed [("$toDate", .fieldRef field)])]) :=
    hkept.cons (fun hkey => absurd hkey (by decide)) fun _ => by decide
  exact Stage.ofValue_toValue_call (by decide) (by decide) hspec index

theorem ofValue_monthOf {field : String} (h : fieldPath? ("$" ++ field) = some field) (index : Int) :
    Stage.ofValue index (monthOf field).toValue = .ok (monthOf field) := by
  have hmonth : Canonical (.keyed [("month", .keyed [("$month", .fieldRef field)])]) :=
    canonical_call (by decide) (canonical_call (by decide) (.fieldRef h))
  exact Stage.ofValue_toValue_call (by decide) (by decide) hmonth index

theorem parsedMonth_stages {field read : String} (hfield : fieldPath? ("$" ++ field) = some field)
    (hread : fieldPath? ("$" ++ read) = some read) :
    ∀ v ∈ parsedMonth field read, ∀ (index : Int) s, Stage.ofValue index v = .ok s →
      s = parsed field ∨ s = monthOf read := by
  intro v hv index s hs
  rw [parsedMonth, List.mem_pair] at hv
  rcases hv with rfl | rfl
  · left
    rw [ofValue_parsed hfield] at hs
    exact (Except.ok.inj hs).symm
  · right
    rw [ofValue_monthOf hread] at hs
    exact (Except.ok.inj hs).symm

theorem parsedMonth_specs {field read : String} (hfield : fieldPath? ("$" ++ field) = some field)
    (hread : fieldPath? ("$" ++ read) = some read) :
    ∀ v ∈ parsedMonth field read, ∀ (index : Int) s, Stage.ofValue index v = .ok s →
      s.spec.call? = none := by
  intro v hv index s hs
  rcases parsedMonth_stages hfield hread v hv index s hs with rfl | rfl
  · rfl
  · rfl

/-- The date is not made of the field that is written over. -/
theorem pairwise_parsed_placed :
    (stageDefinitions (parsed "placed")).Pairwise fun c d => Unconverted c.1 d.2 := by
  change [noted, ("kept", .keyed [("$toDate", .fieldRef "placed")])].Pairwise _
  rw [List.pairwise_pair, unconverted_keyed_iff]
  constructor
  · intro h
    exact absurd (h.unique (.toDate .field)) (by decide)
  · intro d hd
    rw [List.mem_singleton.mp hd]
    exact unconverted_fieldRef "placed"

end Sample

/-- More is known in the second run, and it reports one mismatch less. -/
theorem healPipeline_ahead_placed :
    Progress.Ahead (Sample.runOver [] (Sample.parsedMonth "placed" "placed"))
      (Sample.runOver ["placed"] (Sample.parsedMonth "placed" "placed")) ∧
    (Sample.runOver [] (Sample.parsedMonth "placed" "placed")).diagnostics =
      [⟨.operatorMismatch, 1, "$project.month", "$month", "placed"⟩] ∧
    (Sample.runOver ["placed"] (Sample.parsedMonth "placed" "placed")).diagnostics =
      [⟨.conversionRemoved true, 0, "$addFields.kept", "$toDate", "placed"⟩] := by
  refine ⟨?_, by decide +kernel, by decide +kernel⟩
  refine healPipeline_ahead [] "orders" (Sample.knowing []) (Sample.knowing ["placed"])
    (Sample.parsedMonth "placed" "placed") ?_ (Sample.parsedMonth_specs (by decide) (by decide)) ?_ 2
  · simp [Sample.knowing, DateFields.contains, DateFields.ofNames]
  · intro _ v hv index s hs
    rcases Sample.parsedMonth_stages (by decide) (by decide) v hv index s hs with rfl | rfl
    · exact Sample.pairwise_parsed_placed
    · exact List.pairwise_singleton _ _

/-- A conversion that reads the name of an earlier definition is removed where the name is known to be
a date, and then the field that is left is judged by what the earlier definition left. -/
theorem known_date_lost :
    (∀ name, (Sample.knowing []).contains name = true →
      (Sample.knowing ["due"]).contains name = true) ∧
    (∀ v ∈ Sample.parsedMonth "due" "kept", ∀ (index : Int) s, Stage.ofValue index v = .ok s →
      s.spec.call? = none) ∧
    (Sample.runOver [] ((Sample.parsedMonth "due" "kept").take 1)).fields.contains "kept" = true ∧
    (Sample.runOver ["due"] ((Sample.parsedMonth "due" "kept").take 1)).fields.contains "kept" =
      false ∧
    (Sample.runOver [] (Sample.parsedMonth "due" "kept")).diagnostics = [] ∧
    (Sample.runOver ["due"] (Sample.parsedMonth "due" "kept")).diagnostics =
      [⟨.conversionRemoved true, 0, "$addFields.kept", "$toDate", "due"⟩,
        ⟨.operatorMismatch, 1, "$project.month", "$month", "kept"⟩] := by
  refine ⟨?_, Sample.parsedMonth_specs (by decide) (by decide), by decide +kernel,
    by decide +kernel, by decide +kernel, by decide +kernel⟩
  simp [Sample.knowing, DateFields.contains, DateFields.ofNames]

end Inquiry.Dates
