import Inquiry.Proofs.Dates.Judgement

/-!
# The order of the keys of a stage

A stage whose definitions do not read one another says the same in every order of its keys: the same
names are dates after it, and the later stages come out the same, with the same reports.
-/
namespace Inquiry.Dates

open Expression (find?)

/-- A reference to the field stands somewhere in the expression. -/
inductive Mentions (name : String) : Expression → Prop
  | ref : Mentions name (.fieldRef name)
  | entry {es d} (mem : d ∈ es) (inside : Mentions name d.2) : Mentions name (.keyed es)
  | item {xs x} (mem : x ∈ xs) (inside : Mentions name x) : Mentions name (.array xs)

theorem eq_of_mentions_fieldRef {name path : String} (h : Mentions name (.fieldRef path)) :
    name = path := by
  cases h
  rfl

section Agreement

variable {known known' : String → Bool}

/-- Two sets agree on the fields that an expression mentions. -/
def AgreeOn (known known' : String → Bool) (e : Expression) : Prop :=
  ∀ name, Mentions name e → known name = known' name

theorem AgreeOn.entry {es : List (String × Expression)} {d : String × Expression}
    (h : AgreeOn known known' (.keyed es)) (hd : d ∈ es) : AgreeOn known known' d.2 :=
  fun name hname => h name (.entry hd hname)

theorem AgreeOn.item {xs : List Expression} {x : Expression}
    (h : AgreeOn known known' (.array xs)) (hx : x ∈ xs) : AgreeOn known known' x :=
  fun name hname => h name (.item hx hname)

theorem anyYields_eq_any (xs : List Expression) :
    anyYields known xs = xs.any (yieldsDate known) := by
  induction xs with
  | nil => rfl
  | cons x xs ih => rw [anyYields, ih, List.any_cons]

theorem keyYields_eq (key : String) (es : List (String × Expression)) :
    keyYields known key es = (find? key es).any (yieldsDate known) := by
  induction es with
  | nil => rfl
  | cons d es ih =>
    rw [keyYields, Expression.find?_cons, ih]
    split <;> rfl

/-- The `then` of a branch of `$switch`. -/
def thenYields (known : String → Bool) (branch : Expression) : Bool :=
  (branch.get? "then").any (yieldsDate known)

theorem anyThenYields_eq_any (bs : List Expression) :
    anyThenYields known bs = bs.any (thenYields known) := by
  induction bs with
  | nil => rfl
  | cons b bs ih =>
    rw [List.any_cons, ← ih, thenYields]
    cases b with
    | keyed es =>
      rw [anyThenYields, keyYields_eq]
      rfl
    | _ => rfl

/-- The items of the entry under `branches`. -/
def branches (es : List (String × Expression)) : List Expression :=
  match find? "branches" es with
  | some (.array bs) => bs
  | _ => []

theorem branchesYield_eq (es : List (String × Expression)) :
    branchesYield known es = (branches es).any (thenYields known) := by
  unfold branches
  induction es with
  | nil => rfl
  | cons d es ih =>
    obtain ⟨key, e⟩ := d
    rw [Expression.find?_cons]
    by_cases hkey : key = "branches"
    · rw [if_pos hkey]
      cases e with
      | array bs =>
        rw [branchesYield, if_pos hkey]
        exact anyThenYields_eq_any bs
      | _ => simp [branchesYield, hkey]
    · rw [if_neg hkey, ← ih, branchesYield.eq_def]
      simp [hkey]

theorem mem_branches {es : List (String × Expression)} {b : Expression} (h : b ∈ branches es) :
    ∃ bs, ("branches", .array bs) ∈ es ∧ b ∈ bs := by
  unfold branches at h
  split at h
  · rename_i bs hfind
    exact ⟨bs, Expression.mem_of_find? hfind, h⟩
  · cases h

theorem sizeOf_entry_lt {es : List (String × Expression)} {d : String × Expression} (h : d ∈ es) :
    sizeOf d.2 < sizeOf (Expression.keyed es) := by
  have hmem := List.sizeOf_lt_of_mem h
  have hentry : sizeOf d = 1 + sizeOf d.1 + sizeOf d.2 := by cases d; rfl
  have hkeyed : sizeOf (Expression.keyed es) = 1 + sizeOf es :=
    Expression.keyed.sizeOf_spec es
  omega

theorem sizeOf_item_lt {xs : List Expression} {x : Expression} (h : x ∈ xs) :
    sizeOf x < sizeOf (Expression.array xs) := by
  have hmem := List.sizeOf_lt_of_mem h
  have harray : sizeOf (Expression.array xs) = 1 + sizeOf xs :=
    Expression.array.sizeOf_spec xs
  omega

theorem any_eq_any {xs : List Expression} {p q : Expression → Bool} (h : ∀ x ∈ xs, p x = q x) :
    xs.any p = xs.any q := by
  induction xs with
  | nil => rfl
  | cons x xs ih =>
    obtain ⟨hx, hxs⟩ := List.forall_mem_cons.mp h
    rw [List.any_cons, List.any_cons, hx, ih hxs]

section Operand

variable {xs : List Expression} {es : List (String × Expression)}

theorem ifNullYields_eq (h : ∀ x ∈ xs, yieldsDate known x = yieldsDate known' x) :
    ifNullYields known (.array xs) = ifNullYields known' (.array xs) := by
  rw [ifNullYields, ifNullYields, anyYields_eq_any, anyYields_eq_any]
  exact any_eq_any h

theorem condYields_array_eq (h : ∀ x ∈ xs, yieldsDate known x = yieldsDate known' x) :
    condYields known (.array xs) = condYields known' (.array xs) := by
  match xs with
  | [_, yes, no] => rw [condYields, condYields, h yes (by simp), h no (by simp)]
  | [] => rfl
  | [_] => rfl
  | [_, _] => rfl
  | _ :: _ :: _ :: _ :: _ => rfl

theorem keyYields_congr (h : ∀ d ∈ es, yieldsDate known d.2 = yieldsDate known' d.2) (key : String) :
    keyYields known key es = keyYields known' key es := by
  rw [keyYields_eq, keyYields_eq]
  cases hfind : find? key es with
  | none => rfl
  | some e => exact h (key, e) (Expression.mem_of_find? hfind)

theorem condYields_keyed_eq (h : ∀ d ∈ es, yieldsDate known d.2 = yieldsDate known' d.2) :
    condYields known (.keyed es) = condYields known' (.keyed es) := by
  rw [condYields, condYields, keyYields_congr h, keyYields_congr h]

theorem switchYields_eq (h : ∀ d ∈ es, yieldsDate known d.2 = yieldsDate known' d.2)
    (hbranches : ∀ b ∈ branches es, thenYields known b = thenYields known' b) :
    switchYields known (.keyed es) = switchYields known' (.keyed es) := by
  rw [switchYields, switchYields, branchesYield_eq, branchesYield_eq, any_eq_any hbranches,
    keyYields_congr h]

end Operand

/-- Only the fields that an expression mentions decide whether it yields a date. -/
theorem yieldsDate_eq_of_agreeOn (e : Expression) (h : AgreeOn known known' e) :
    yieldsDate known e = yieldsDate known' e := by
  -- The alternatives of a choice stand below its operand, so the induction is on the size.
  induction hsize : sizeOf e using Nat.strongRecOn generalizing e with
  | ind size ih =>
    subst hsize
    match e with
    | .scalar v => rfl
    | .fieldRef path => exact h path .ref
    | .array xs => rfl
    | .keyed [] => rfl
    | .keyed (a :: b :: es) => rfl
    | .keyed [(op, operand)] =>
      have hoperand : AgreeOn known known' operand := h.entry List.mem_cons_self
      have hlt : sizeOf operand < sizeOf (Expression.keyed [(op, operand)]) :=
        sizeOf_entry_lt (d := (op, operand)) List.mem_cons_self
      have hbelow (x : Expression) (hx : sizeOf x < sizeOf operand)
          (hon : AgreeOn known known' x) : yieldsDate known x = yieldsDate known' x :=
        ih _ (hx.trans hlt) x hon rfl
      rw [yieldsDate, yieldsDate]
      cases operand with
      | scalar v => rfl
      | fieldRef path => rfl
      | array xs =>
        have hitems : ∀ x ∈ xs, yieldsDate known x = yieldsDate known' x :=
          fun x hx => hbelow x (sizeOf_item_lt hx) (hoperand.item hx)
        rw [ifNullYields_eq hitems, condYields_array_eq hitems]
        rfl
      | keyed es =>
        have hentries : ∀ d ∈ es, yieldsDate known d.2 = yieldsDate known' d.2 :=
          fun d hd => hbelow d.2 (sizeOf_entry_lt hd) (hoperand.entry hd)
        have hbranches : ∀ b ∈ branches es, thenYields known b = thenYields known' b := by
          intro b hb
          obtain ⟨bs, hentry, hb⟩ := mem_branches hb
          unfold thenYields
          cases b with
          | keyed fields =>
            rw [Expression.get?_keyed]
            cases hfind : find? "then" fields with
            | none => rfl
            | some e =>
              have hmem := Expression.mem_of_find? hfind
              exact hbelow e (((sizeOf_entry_lt hmem).trans (sizeOf_item_lt hb)).trans
                (sizeOf_entry_lt hentry)) (((hoperand.entry hentry).item hb).entry hmem)
          | _ => rfl
        rw [condYields_keyed_eq hentries, switchYields_eq hentries hbranches]
        rfl

end Agreement

/-- A definition that does not mention a field ignores whether it holds dates. -/
theorem ignores_of_not_mentions {e : Expression} {name : String} (h : ¬ Mentions name e) :
    Ignores e name := by
  intro known known' hknown
  refine yieldsDate_eq_of_agreeOn e fun m hm => hknown m ?_
  rintro rfl
  exact h hm

/-- Two stages that differ in the order of the keys of the spec, or of the document that a new root
is. -/
inductive Reordered : Stage → Stage → Prop
  | spec {operator} {es es' : List (String × Expression)} (keys : (es.map (·.1)).Nodup)
      (order : es.Perm es') : Reordered ⟨operator, .keyed es⟩ ⟨operator, .keyed es'⟩
  | root {es es' : List (String × Expression)} (order : es.Perm es') :
      Reordered ⟨"$replaceRoot", .keyed [("newRoot", .keyed es)]⟩
        ⟨"$replaceRoot", .keyed [("newRoot", .keyed es')]⟩

section Order

variable {es es' : List (String × Expression)}

theorem definitions_eq_flatMap (path : String) (es : List (String × Expression)) :
    definitions path es = es.flatMap fun d => definitionsOf path d.1 d.2 := by
  induction es with
  | nil => rfl
  | cons d es ih => rw [definitions, ih, List.flatMap_cons]

theorem definitions_perm (h : es.Perm es') (path : String) :
    (definitions path es).Perm (definitions path es') := by
  rw [definitions_eq_flatMap, definitions_eq_flatMap]
  exact h.flatMap_right _

theorem groupDefinitions_eq_flatMap (es : List (String × Expression)) :
    groupDefinitions es =
      es.flatMap fun d => if d.1 = "_id" then definitionsOf "" d.1 d.2 else [d] := by
  induction es with
  | nil => rfl
  | cons d es ih => rw [groupDefinitions, ih, List.flatMap_cons]

theorem groupDefinitions_perm (h : es.Perm es') :
    (groupDefinitions es).Perm (groupDefinitions es') := by
  rw [groupDefinitions_eq_flatMap, groupDefinitions_eq_flatMap]
  exact h.flatMap_right _

theorem find?_perm (keys : (es.map (·.1)).Nodup) (h : es.Perm es') (key : String) :
    find? key es = find? key es' := by
  induction h with
  | nil => rfl
  | cons d _ ih =>
    rw [Expression.find?_cons, Expression.find?_cons, ih (List.nodup_cons.mp keys).2]
  | swap d c es =>
    have hne : c.1 ≠ d.1 := fun heq =>
      (List.nodup_cons.mp keys).1 (List.mem_cons.mpr (Or.inl heq))
    simp only [Expression.find?_cons]
    by_cases hc : c.1 = key
    · rw [if_pos hc, if_pos hc, if_neg fun hd => hne (hc.trans hd.symm)]
    · rw [if_neg hc, if_neg hc]
  | trans hfirst _ ih ih' => exact (ih keys).trans (ih' ((hfirst.map _).nodup_iff.mp keys))

theorem eq_of_perm_of_short (h : es.Perm es') (hshort : es.length < 2) : es = es' := by
  match es, hshort with
  | [], _ => exact (List.nil_perm.mp h).symm
  | [d], _ => exact List.singleton_perm.mp h

/-- A mapping with several entries is no operator call, so healing keeps it. -/
theorem heal_keyed_of_two_le (known : String → Bool) (force : Bool) (h : 2 ≤ es.length) :
    heal known force (.keyed es) = healedParts known force es := by
  match es, h with
  | _ :: _ :: _, _ =>
    rw [heal_keyed]
    rfl

theorem rootDefinitions_of_two_le (h : 2 ≤ es.length) :
    rootDefinitions (.keyed es) = definitions "" es := by
  match es, h with
  | _ :: _ :: _, _ => rfl

theorem stageDefinitions_perm (operator : String) (hlong : 2 ≤ es.length)
    (keys : (es.map (·.1)).Nodup) (h : es.Perm es') :
    (stageDefinitions ⟨operator, .keyed es⟩).Perm (stageDefinitions ⟨operator, .keyed es'⟩) := by
  unfold stageDefinitions
  dsimp only
  split
  · exact definitions_perm h ""
  split
  · exact groupDefinitions_perm h
  split
  · rw [Expression.get?_keyed, Expression.get?_keyed, find?_perm keys h]
  split
  · rw [rootDefinitions_of_two_le hlong, rootDefinitions_of_two_le (h.length_eq ▸ hlong)]
    exact definitions_perm h ""
  · exact List.Perm.refl _

/-- Healed, two stages that differ in the order of their keys define the same. -/
theorem Reordered.definitions_perm {s s' : Stage} (h : Reordered s s') (known : String → Bool)
    (force : Bool) :
    (stageDefinitions (healStage known force s)).Perm
      (stageDefinitions (healStage known force s')) := by
  cases h with
  | @spec operator es es' keys order =>
    by_cases hlong : 2 ≤ es.length
    · unfold healStage
      dsimp only
      rw [heal_keyed_of_two_le known force hlong,
        heal_keyed_of_two_le known force (order.length_eq ▸ hlong)]
      refine stageDefinitions_perm operator ?_ ?_ (order.map _)
      · rwa [List.length_map]
      · rwa [List.map_map]
    · rw [eq_of_perm_of_short order (by omega)]
  | @root es es' order =>
    by_cases hlong : 2 ≤ es.length
    · have hroot (es : List (String × Expression)) (hlong : 2 ≤ es.length) :
          stageDefinitions (healStage known force
            ⟨"$replaceRoot", .keyed [("newRoot", .keyed es)]⟩) =
              definitions "" (es.map fun d => (d.1, heal known force d.2)) := by
        have hheal : heal known force (.keyed [("newRoot", .keyed es)]) =
            .keyed [("newRoot", healedParts known force es)] := by
          rw [heal_keyed, healedParts_call, heal_keyed_of_two_le known force hlong]
          rfl
        unfold healStage
        dsimp only
        rw [hheal]
        exact rootDefinitions_of_two_le (by rwa [List.length_map])
      rw [hroot es hlong, hroot es' (order.length_eq ▸ hlong)]
      exact Dates.definitions_perm (order.map _) ""
    · rw [eq_of_perm_of_short order (by omega)]

theorem Reordered.operator {s s' : Stage} (h : Reordered s s') : s.operator = s'.operator := by
  cases h <;> rfl

end Order

section Later

variable {force : Bool} {index : Nat} {p p' : Progress}

/-- From this stage on, two runs cannot be told apart: whatever the stages are, they heal alike, are
reported on alike, and leave alike sets. -/
structure Agree (force : Bool) (index : Nat) (p p' : Progress) : Prop where
  fields : p.fields.Alike p'.fields
  output : ∀ vs, (healStages force index p vs).2 = (healStages force index p' vs).2
  later_fields : ∀ vs,
    (healStages force index p vs).1.fields.Alike (healStages force index p' vs).1.fields
  later_diagnostics : ∀ vs, ∃ later,
    (healStages force index p vs).1.diagnostics = p.diagnostics ++ later ∧
      (healStages force index p' vs).1.diagnostics = p'.diagnostics ++ later

theorem step_alike (h : p.fields.Alike p'.fields) (s : Stage) :
    (p.step force index s).1.fields.Alike (p'.step force index s).1.fields := by
  unfold Progress.step
  dsimp only
  rw [h.contains]
  exact alike_propagate h index _

theorem healStages_alike (h : p.fields.Alike p'.fields) (vs : List Value) :
    (healStages force index p vs).2 = (healStages force index p' vs).2 ∧
      (healStages force index p vs).1.fields.Alike (healStages force index p' vs).1.fields ∧
      ∃ later, (healStages force index p vs).1.diagnostics = p.diagnostics ++ later ∧
        (healStages force index p' vs).1.diagnostics = p'.diagnostics ++ later := by
  induction vs generalizing index p p' with
  | nil => exact ⟨rfl, h, [], (List.append_nil _).symm, (List.append_nil _).symm⟩
  | cons v vs ih =>
    cases hs : Stage.ofValue index v with
    | error m =>
      rw [healStages_cons_of_error hs, healStages_cons_of_error hs]
      exact ⟨rfl, h, [], (List.append_nil _).symm, (List.append_nil _).symm⟩
    | ok s =>
      have hstep : (p.step force index s).1.fields.Alike (p'.step force index s).1.fields :=
        step_alike h s
      obtain ⟨hout, hfields, later, hdiag, hdiag'⟩ := @ih (index + 1) _ _ hstep
      rw [healStages_cons_of_ok hs, healStages_cons_of_ok hs]
      refine ⟨?_, hfields, diagnoseStage p.fields.contains force index s ++ later, ?_, ?_⟩
      · rw [hout, h.contains]
      · rw [← List.append_assoc]
        exact hdiag
      · rw [h.contains, ← List.append_assoc]
        exact hdiag'

theorem agree_of_alike (h : p.fields.Alike p'.fields) : Agree force index p p' where
  fields := h
  output vs := (healStages_alike h vs).1
  later_fields vs := (healStages_alike h vs).2.1
  later_diagnostics vs := (healStages_alike h vs).2.2

end Later

/-- Definitions that do not read one another are judged by the set before their stage, and then the
order of the keys changes neither the set after the stage nor anything that comes later. -/
theorem definitions_judged_before_stage {s : Stage} {p : Progress} (force : Bool) (index : Nat)
    (hdefines : s.operator ≠ "$unset")
    (hapart : Apart (stageDefinitions (healStage p.fields.contains force s))) :
    (∀ d ∈ stageDefinitions (healStage p.fields.contains force s), flag? (projects s) d.2 = none →
      (p.step force index s).1.fields.contains d.1 = yieldsDate p.fields.contains d.2) ∧
    ∀ s', Reordered s s' →
      Agree force (index + 1) (p.step force index s).1 (p.step force index s').1 := by
  have hfields {s : Stage} (h : s.operator ≠ "$unset") : (p.step force index s).1.fields =
      (stageDefinitions (healStage p.fields.contains force s)).foldl
        (judge (projects s) (sourceText index s.operator)) p.fields :=
    propagate_eq_foldl (s := healStage p.fields.contains force s) h index p.fields
  refine ⟨fun d hd hflag => ?_, fun s' hs => agree_of_alike ?_⟩
  · rw [hfields hdefines]
    exact hapart.contains_foldl hd hflag
  · have hprojects : projects s = projects s' := by
      unfold projects
      rw [hs.operator]
    rw [hfields hdefines, hfields (hs.operator ▸ hdefines), hprojects, hs.operator]
    exact hapart.foldl_perm (hs.definitions_perm _ force) (DateFields.Alike.refl _)

namespace Sample

/-- Both fields of an order hold dates. -/
def orderDates : Progress := .start (DateFields.ofNames ["due", "placed"] none)

def noted : String × Expression := ("due", .keyed [("$toUpper", .fieldRef "note")])

/-- A stage that writes a text over one field and copies another one. -/
def copied (field : String) : Stage := ⟨"$addFields", .keyed [noted, ("kept", .fieldRef field)]⟩

def copiedFirst (field : String) : Stage :=
  ⟨"$addFields", .keyed [("kept", .fieldRef field), noted]⟩

theorem reordered_copied (field : String) : Reordered (copied field) (copiedFirst field) :=
  .spec (by simp [noted]) (List.Perm.swap _ _ _)

theorem apart_copied_placed :
    Apart (stageDefinitions (healStage orderDates.fields.contains false (copied "placed"))) := by
  change Apart [noted, ("kept", .fieldRef "placed")]
  refine ⟨by decide, ?_⟩
  intro d hd c hc hne
  refine ignores_of_not_mentions fun hmentions => ?_
  rcases List.mem_cons.mp hd with rfl | hd
  · -- The text is made of a field that the stage does not define.
    rcases List.mem_cons.mp hc with rfl | hc
    · exact hne rfl
    · rw [List.mem_singleton.mp hc] at hmentions
      rcases hmentions with _ | ⟨hmem, hinside⟩ | _
      rw [List.mem_singleton.mp hmem] at hinside
      exact absurd (eq_of_mentions_fieldRef hinside) (by decide)
  · rw [List.mem_singleton.mp hd] at hmentions hne
    rcases List.mem_cons.mp hc with rfl | hc
    · exact absurd (eq_of_mentions_fieldRef hmentions) (by decide)
    · exact hne (congrArg Prod.fst (List.mem_singleton.mp hc))

end Sample

theorem definitions_judged_before_stage_copied :
    (Sample.orderDates.step false 0 (Sample.copied "placed")).1.fields.contains "kept" = true ∧
      Agree false 1 (Sample.orderDates.step false 0 (Sample.copied "placed")).1
        (Sample.orderDates.step false 0 (Sample.copiedFirst "placed")).1 := by
  obtain ⟨hjudged, hagree⟩ := definitions_judged_before_stage false 0 (by decide)
    Sample.apart_copied_placed
  exact ⟨hjudged ("kept", .fieldRef "placed") (List.mem_cons_of_mem _ List.mem_cons_self) rfl,
    hagree _ (Sample.reordered_copied "placed")⟩

/-- A definition that reads the name of an earlier one is judged by what that one left, so the order
of the keys decides. -/
theorem definition_judged_by_key_order :
    ((stageDefinitions (Sample.copied "due")).map (·.1)).Nodup ∧
      yieldsDate Sample.orderDates.fields.contains (.fieldRef "due") = true ∧
      (Sample.orderDates.step false 0 (Sample.copied "due")).1.fields.contains "kept" = false ∧
      Reordered (Sample.copied "due") (Sample.copiedFirst "due") ∧
      (Sample.orderDates.step false 0 (Sample.copiedFirst "due")).1.fields.contains "kept" = true := by
  refine ⟨by decide, by decide, by decide, Sample.reordered_copied "due", by decide⟩

end Inquiry.Dates
