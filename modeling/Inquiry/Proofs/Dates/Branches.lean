import Inquiry.Proofs.Dates.Composition
import Inquiry.Proofs.Dates.HealedDefinitions
import Inquiry.Proofs.Dates.Nested
import Inquiry.Proofs.Expression.Payload

/-!
# Branches of a facet

The branches of a `$facet` are parts of one stage, so each of their stages is healed against the set
before the facet, and what an earlier stage of the branch defines does not count. In a pipeline that
goes on with the stages of the branch it would. Both come to the same where the conversions in the
branch read no field on which the two sets differ.
-/
namespace Inquiry.Dates

open Expression (ofItems_getElem? ofEntries_getElem? indexPath_ne_empty ok_of_map_ok)

variable {known known' : String → Bool} {force : Bool} {index : Nat} {p p' : Progress}

/-- A stage that is no conversion itself heals as a part of another stage as it does alone, by sets
that say the same of the fields that it converts. -/
theorem heal_toExpression {s : Stage} (hop : s.operator ∉ conversionOperators)
    (h : force = true ∨ ConvertsAlike known known' s.spec) :
    heal known force s.toExpression = (healStage known' force s).toExpression := by
  have hcall : heal known force s.toExpression = (healStage known force s).toExpression :=
    heal_call known force hop s.spec
  rw [hcall, healStage, healStage]
  rcases h with rfl | h
  · rw [heal_forced known known']
  · rw [h.heal_eq]

/-- A list under a name of a stage is read item by item. -/
theorem exists_branch {op name : String} {es : List (Value × Value)} {s : Stage} {j : Nat}
    {branch : Value} {bs : List Value} (hop : op ≠ "$literal")
    (h : Stage.ofValue (index : Int) (.dict [(.str op, .dict es)]) = .ok s)
    (hj : es[j]? = some (.str name, branch)) (hname : isOperatorName name = false)
    (hbranch : branch = .list bs ∨ branch = .tuple bs) :
    ∃ ds xs path, s = ⟨op, .keyed ds⟩ ∧ ds[j]? = some (name, .array xs) ∧
      Expression.ofItems path 0 bs = .ok xs := by
  rw [Stage.ofValue] at h
  split at h
  · obtain ⟨spec, hspec, rfl⟩ := ok_of_map_ok h
    obtain ⟨ds, hds, rfl⟩ := ok_of_map_ok hspec
    have hliteral : name ≠ "$literal" := by
      rintro rfl
      exact absurd hname (by decide)
    obtain ⟨e, he, hread⟩ := ofEntries_getElem? hds hj hliteral
    obtain ⟨xs, hxs, rfl⟩ : ∃ xs, Expression.ofItems _ 0 bs = .ok xs ∧ Expression.array xs = e := by
      rcases hbranch with rfl | rfl
      · exact ok_of_map_ok hread
      · exact ok_of_map_ok hread
    exact ⟨ds, xs, _, rfl, he, hxs⟩
  · cases h

/-- What is read as a stage alone is read as the tree of this stage in the list. -/
theorem getElem?_branch {path : String} {bs : List Value} {xs : List Expression} {k : Nat}
    {b : Value} {t : Stage} {i : Int} (hxs : Expression.ofItems path 0 bs = .ok xs)
    (hb : bs[k]? = some b) (ht : Stage.ofValue i b = .ok t) : xs[k]? = some t.toExpression := by
  obtain ⟨x, hx, hread⟩ := ofItems_getElem? hxs hb
  rw [Stage.ofValue_toExpression ht (indexPath_ne_empty path _)] at hread
  cases hread
  exact hx

/-- The list under a name of a healed stage is written item by item. -/
theorem toValue_healStage_branch {op name : String} {ds : List (String × Expression)} {j : Nat}
    {xs : List Expression} (hds : ds[j]? = some (name, .array xs))
    (hname : isOperatorName name = false) :
    ∃ es', (healStage known force ⟨op, .keyed ds⟩).toValue = .dict [(.str op, .dict es')] ∧
      es'[j]? = some (.str name,
        .list (xs.map fun x => (heal known force x).toValue)) := by
  have hcall := call?_eq_none_of_mem (List.mem_of_getElem? hds) hname
  refine ⟨Expression.toEntries (ds.map fun d => (d.1, heal known force d.2)), ?_, ?_⟩
  · rw [healStage, heal_keyed_of_no_call hcall]
    rfl
  · rw [Expression.toEntries_eq_map, List.map_map, List.getElem?_map, hds, Option.map_some]
    dsimp only [Function.comp_apply]
    rw [heal_array, Expression.toValue, Expression.toItems_eq_map, List.map_map]
    rfl

/-- The stages of a pipeline after `vs` are healed against the sets that the pipeline has come to. -/
theorem healStages_append_getElem? {vs bs out : List Value} {k : Nat} {b : Value}
    (h : healStages force 0 p (vs ++ bs) = (p', .ok out)) (hb : bs[k]? = some b) :
    ∃ t, Stage.ofValue ((vs.length + k : Nat) : Int) b = .ok t ∧
      out[vs.length + k]? = some (healStage
        (healStages force 0 p (vs ++ bs.take k)).1.fields.contains force t).toValue := by
  obtain ⟨t, ht, hout⟩ := healStages_getElem? h (i := vs.length + k) (v := b)
    (by rw [List.getElem?_append_right (by omega), Nat.add_sub_cancel_left, hb])
  rw [Nat.zero_add] at ht
  rw [List.take_length_add_append] at hout
  exact ⟨t, ht, hout⟩

/-- A stage of a branch that has been read, as a part of the facet and in the pipeline that goes on with
the stages of the branch. -/
theorem branch_stage {path : String} {vs bs out : List Value} {xs : List Expression} {k : Nat}
    {b : Value} (hxs : Expression.ofItems path 0 bs = .ok xs)
    (h : healStages force 0 p (vs ++ bs) = (p', .ok out)) (hb : bs[k]? = some b) :
    ∃ t, Stage.ofValue ((vs.length + k : Nat) : Int) b = .ok t ∧
      (xs.map fun x => (heal known force x).toValue)[k]? =
        some (heal known force t.toExpression).toValue ∧
      out[vs.length + k]? = some (healStage
        (healStages force 0 p (vs ++ bs.take k)).1.fields.contains force t).toValue := by
  obtain ⟨t, ht, hout⟩ := healStages_append_getElem? h hb
  refine ⟨t, ht, ?_, hout⟩
  rw [List.getElem?_map, getElem?_branch hxs hb ht, Option.map_some]

/-- What agrees item by item with what the pipeline has written after the first `m` stages is that. -/
theorem eq_drop_of_getElem? {ys out : List Value} {m : Nat} (hlength : out.length = m + ys.length)
    (h : ∀ k, k < ys.length → ys[k]? = out[m + k]?) : ys = out.drop m := by
  apply List.ext_getElem?
  intro k
  rw [List.getElem?_drop]
  by_cases hk : k < ys.length
  · exact h k hk
  · rw [List.getElem?_eq_none (by omega), List.getElem?_eq_none (by omega)]

/-- The branch of a facet after the stages `vs` is healed against the set that they leave, stage by
stage and whatever its own stages define. So a conversion in it gives way or stays by the status of its
field before the facet. The branch is the end of the pipeline that goes on with its stages if each of
them is no conversion itself and converts no field on which the set before the facet and the one that
the pipeline has come to differ. -/
theorem facet_branch_judged_before_facet (forced : List String) (collection : String)
    (p p' q' : Progress) (vs rest bs out out' : List Value) (es : List (Value × Value)) (j : Nat)
    (name : String) (branch : Value)
    (hfacet : healPipeline forced p collection
      (.list (vs ++ .dict [(.str "$facet", .dict es)] :: rest)) = (p', .ok out))
    (hflat : healPipeline forced p collection (.list (vs ++ bs)) = (q', .ok out'))
    (hj : es[j]? = some (.str name, branch)) (hname : isOperatorName name = false)
    (hbranch : branch = .list bs ∨ branch = .tuple bs) :
    let force := forced.contains collection
    let before := (healPipeline forced p collection (.list vs)).1.fields.contains
    let along := fun k =>
      (healPipeline forced p collection (.list (vs ++ bs.take k))).1.fields.contains
    ∃ es' bs', out[vs.length]? = some (.dict [(.str "$facet", .dict es')]) ∧
      es'[j]? = some (.str name, .list bs') ∧ bs'.length = bs.length ∧
      (∀ (k : Nat) b, bs[k]? = some b → ∃ s,
        Stage.ofValue ((vs.length + k : Nat) : Int) b = .ok s ∧
        bs'[k]? = some (heal before force s.toExpression).toValue ∧
        out'[vs.length + k]? = some (healStage (along k) force s).toValue ∧
        (force = false → ∀ address c f, s.spec.part? address = some c → Converts f c →
          Judged before f c s.spec (heal before force s.spec) address) ∧
        (s.operator ∉ conversionOperators →
          force = true ∨ ConvertsAlike before (along k) s.spec →
          bs'[k]? = out'[vs.length + k]?)) ∧
      ((∀ (k : Nat) b s, bs[k]? = some b → Stage.ofValue ((vs.length + k : Nat) : Int) b = .ok s →
          s.operator ∉ conversionOperators ∧
            (force = true ∨ ConvertsAlike before (along k) s.spec)) →
        bs' = out'.drop vs.length) := by
  intro force before along
  obtain ⟨_, heq, hfacet⟩ := healPipeline_ok_iff.mp hfacet
  cases heq
  obtain ⟨_, heq, hflat⟩ := healPipeline_ok_iff.mp hflat
  cases heq
  obtain ⟨s, hs, hout⟩ := healStages_getElem? hfacet (i := vs.length)
    (v := .dict [(.str "$facet", .dict es)]) (by simp)
  rw [List.take_left] at hout
  obtain ⟨ds, xs, path, rfl, hds, hxs⟩ := exists_branch (by decide) hs hj hname hbranch
  obtain ⟨es', hvalue, hes'⟩ := @toValue_healStage_branch before force "$facet" _ _ _ _ hds hname
  rw [show healStages force 0 p vs = healPipeline forced p collection (.list vs) from rfl,
    hvalue] at hout
  have hlength : (xs.map fun x => (heal before force x).toValue).length = bs.length := by
    rw [List.length_map, Expression.length_of_ofItems hxs]
  have hequal : ∀ (k : Nat) b t, bs[k]? = some b →
      Stage.ofValue ((vs.length + k : Nat) : Int) b = .ok t → t.operator ∉ conversionOperators →
      force = true ∨ ConvertsAlike before (along k) t.spec →
      (xs.map fun x => (heal before force x).toValue)[k]? = out'[vs.length + k]? := by
    intro k b t hb ht hop halike
    obtain ⟨t', ht', hbs', hout'⟩ := branch_stage hxs hflat hb
    cases ht.symm.trans ht'
    rw [hbs', hout', heal_toExpression hop halike]
    rfl
  refine ⟨es', _, hout, hes', hlength, fun k b hb => ?_, fun hall => ?_⟩
  · obtain ⟨t, ht, hbs', hout'⟩ := branch_stage hxs hflat hb
    refine ⟨t, ht, hbs', hout', ?_, hequal k b t hb ht⟩
    intro hforce address c f hc hf
    rw [hforce]
    exact judged_heal hc hf
  · have hout' : (vs ++ bs).length = out'.length := (healStages_keeps_operators hflat).length_eq
    rw [List.length_append, ← hlength] at hout'
    refine eq_drop_of_getElem? hout'.symm fun k hk => ?_
    have hb := List.getElem?_eq_getElem (hlength ▸ hk)
    obtain ⟨t, ht, -⟩ := healStages_append_getElem? hflat hb
    obtain ⟨hop, halike⟩ := hall k _ t hb ht
    exact hequal k _ t hb ht hop halike

private def dueKnown : Progress := .start (.ofNames ["due"] none)

private def dueRead : Expression := .keyed [("$toDate", .fieldRef "due")]

private def dueMonth : Stage :=
  ⟨"$addFields", .keyed [("month", .keyed [("$month", .fieldRef "due")])]⟩

private def dueNote : Stage :=
  ⟨"$addFields", .keyed [("due", .keyed [("$toUpper", .fieldRef "note")])]⟩

private def sentOn (e : Expression) : Stage := ⟨"$project", .keyed [("sent", e)]⟩

private def facetOf (first : Stage) (e : Expression) : Stage :=
  ⟨"$facet", .keyed [("sent", .array [first.toExpression, (sentOn e).toExpression])]⟩

private theorem ofValue_dueMonth (i : Int) : Stage.ofValue i dueMonth.toValue = .ok dueMonth :=
  Stage.ofValue_toValue (by decide) (by decide) i

private theorem ofValue_dueNote (i : Int) : Stage.ofValue i dueNote.toValue = .ok dueNote :=
  Stage.ofValue_toValue (by decide) (by decide) i

private theorem ofValue_sentOn (i : Int) :
    Stage.ofValue i (sentOn dueRead).toValue = .ok (sentOn dueRead) :=
  Stage.ofValue_toValue (by decide) (by decide) i

private theorem ofValue_facetOf (i : Int) {first : Stage}
    (h : Stage.ofValue i first.toValue = .ok first) :
    Stage.ofValue i (facetOf first dueRead).toValue = .ok (facetOf first dueRead) := by
  change Stage.ofValue i (.dict [(.str "$facet", .dict [(.str "sent",
    .list [first.toValue, (sentOn dueRead).toValue])])]) = _
  simp [Stage.ofValue, isOperatorName, Expression.ofValue, Expression.ofEntries,
    Expression.ofItems, Stage.ofValue_toExpression h (indexPath_ne_empty _ _),
    Stage.ofValue_toExpression (ofValue_sentOn i) (indexPath_ne_empty _ _), Except.map, facetOf]

private theorem healPipeline_facetOf {first : Stage}
    (h : Stage.ofValue (0 : Nat) first.toValue = .ok first) :
    healPipeline [] dueKnown "orders" (.list [(facetOf first dueRead).toValue]) =
      ((dueKnown.step false 0 (facetOf first dueRead)).1,
        .ok [(healStage dueKnown.fields.contains false (facetOf first dueRead)).toValue]) :=
  healPipeline_ok_iff.mpr ⟨_, rfl, healStages_cons_ok_iff.mpr
    ⟨_, [], ofValue_facetOf _ h, healStages_nil_ok_iff.mpr ⟨rfl, rfl⟩, rfl⟩⟩

private theorem healPipeline_sentOn {first : Stage}
    (h : Stage.ofValue (0 : Nat) first.toValue = .ok first) :
    let after := (dueKnown.step false 0 first).1
    healPipeline [] dueKnown "orders" (.list [first.toValue, (sentOn dueRead).toValue]) =
      ((after.step false 1 (sentOn dueRead)).1,
        .ok [(healStage dueKnown.fields.contains false first).toValue,
          (healStage after.fields.contains false (sentOn dueRead)).toValue]) :=
  healPipeline_ok_iff.mpr ⟨_, rfl, healStages_cons_ok_iff.mpr ⟨_, _, h, healStages_cons_ok_iff.mpr
    ⟨_, [], ofValue_sentOn _, healStages_nil_ok_iff.mpr ⟨rfl, rfl⟩, rfl⟩, rfl⟩⟩

/-- The first stage leaves the due date a date, and so the branch heals like a pipeline. -/
theorem facet_branch_judged_before_facet_month :
    ∃ es', (healPipeline [] dueKnown "orders" (.list [(facetOf dueMonth dueRead).toValue])).2 =
        .ok [.dict [(.str "$facet", .dict es')]] ∧
      es'[0]? = some (.str "sent", .list [dueMonth.toValue, (sentOn (.fieldRef "due")).toValue]) := by
  obtain ⟨es', bs', hout, hes', -, -, hequal⟩ := facet_branch_judged_before_facet [] "orders"
    dueKnown _ _ [] [] [dueMonth.toValue, (sentOn dueRead).toValue] _ _ _ 0 "sent" _
    (healPipeline_facetOf (ofValue_dueMonth _)) (healPipeline_sentOn (ofValue_dueMonth _)) rfl
    (by decide) (Or.inl rfl)
  refine ⟨es', ?_, hes'.trans ?_⟩
  · rw [healPipeline_facetOf (ofValue_dueMonth _)]
    exact congrArg (fun w => Except.ok [w]) (Option.some.inj hout)
  · have hfields : (healPipeline [] dueKnown "orders" (.list [dueMonth.toValue])).1.fields =
        dueKnown.fields := by decide +kernel
    rw [hequal fun k b s hb hs => ?_]
    · rfl
    · rcases k with - | - | k
      · cases hb
        cases hs.symm.trans (ofValue_dueMonth _)
        exact ⟨by decide, Or.inr fun name hname => absurd rfl hname⟩
      · cases hb
        cases hs.symm.trans (ofValue_sentOn _)
        have hsame (name : String) := (congrArg (fun F => F.contains name) hfields).symm
        exact ⟨by decide, Or.inr fun name hname => absurd (hsame name) hname⟩
      · cases hb

/-- A conversion in a branch is removed although the branch has made its field no date before. -/
theorem redefinition_in_branch_missed :
    (healPipeline [] dueKnown "orders" (.list [(facetOf dueNote dueRead).toValue])).2 =
      .ok [(facetOf dueNote (.fieldRef "due")).toValue] ∧
    (healPipeline [] dueKnown "orders" (.list [dueNote.toValue, (sentOn dueRead).toValue])).2 =
      .ok [dueNote.toValue, (sentOn dueRead).toValue] ∧
    (sentOn (.fieldRef "due")).toValue ≠ (sentOn dueRead).toValue := by
  refine ⟨?_, ?_, ?_⟩
  · rw [healPipeline_facetOf (ofValue_dueNote _)]
    rfl
  · rw [healPipeline_sentOn (ofValue_dueNote _)]
    rfl
  · intro h
    cases h

end Inquiry.Dates
