import Inquiry.Proofs.Dates.HealedDefinitions
import Inquiry.Proofs.Expression.Spelling

/-!
# Scalars that healing looks at

Of a scalar, healing asks whether it names the date type, whether it is a date, and what text it is. A
change of scalars that keeps the answers goes through healing untouched: the changed tree heals to the
changed healed tree, with the same reports, and its definitions yield dates as before. Only the flags
of a projection tell more.
-/
namespace Inquiry.Dates

open Expression (find? mapScalars mapScalars_array mapScalars_fieldRef mapScalars_keyed
  mapScalars_scalar)

/-- A change of scalars that keeps what healing asks of them. -/
structure Unseen (f : Value → Value) : Prop where
  target : ∀ v, isDateTarget (.scalar (f v)) = isDateTarget (.scalar v)
  date : ∀ v, scalarIsDate (f v) = scalarIsDate v
  text : ∀ v, (f v).str? = v.str?

variable {f : Value → Value} {known : String → Bool} {force : Bool}

theorem unwrapSingle_mapScalars (e : Expression) :
    (mapScalars f e).unwrapSingle = mapScalars f e.unwrapSingle := by
  cases e with
  | array xs => rcases xs with _ | ⟨x, _ | ⟨y, rest⟩⟩ <;> simp [Expression.unwrapSingle]
  | _ => simp [Expression.unwrapSingle]

theorem call?_mapScalars (e : Expression) :
    (mapScalars f e).call? = e.call?.map fun c => (c.1, mapScalars f c.2) := by
  cases e with
  | keyed es =>
    rw [mapScalars_keyed]
    rcases es with _ | ⟨⟨key, x⟩, _ | ⟨d, rest⟩⟩
    · rfl
    · rw [List.map_singleton, Expression.call?, Expression.call?]
      split <;> rfl
    · rfl
  | _ => simp [Expression.call?]

theorem operator?_mapScalars (e : Expression) : (mapScalars f e).operator? = e.operator? := by
  rw [Expression.operator?, Expression.operator?, call?_mapScalars, Option.map_map]
  rfl

theorem get?_mapScalars (key : String) (e : Expression) :
    (mapScalars f e).get? key = (e.get? key).map (mapScalars f) := by
  cases e with
  | keyed es => rw [mapScalars_keyed, Expression.get?_keyed, Expression.get?_keyed, Expression.find?_map]
  | _ => simp [Expression.get?]

theorem unwrapField?_mapScalars (e : Expression) :
    unwrapField? (mapScalars f e) = unwrapField? e := by
  cases e with
  | fieldRef path => rw [mapScalars_fieldRef]
  | scalar v => rw [mapScalars_scalar]; rfl
  | array xs => rw [mapScalars_array]; rfl
  | keyed es =>
    have hcall := call?_mapScalars (f := f) (.keyed es)
    rw [mapScalars_keyed] at hcall ⊢
    rw [unwrapField?, unwrapField?, hcall]
    · cases (Expression.keyed es).call? with
      | none => rfl
      | some c =>
        obtain ⟨op, operand⟩ := c
        rw [Option.map_some]
        dsimp only
        by_cases hop : op = "$toString"
        · subst hop
          simp only [unwrapSingle_mapScalars]
          cases operand.unwrapSingle <;> simp
        · simp [hop]
    · simp
    · simp

theorem isDateTarget_mapScalars (hf : Unseen f) (e : Expression) :
    isDateTarget (mapScalars f e) = isDateTarget e := by
  cases e with
  | scalar v => rw [mapScalars_scalar, hf.target]
  | fieldRef path => rw [mapScalars_fieldRef]
  | keyed es => rw [mapScalars_keyed]; rfl
  | array xs => rw [mapScalars_array]; rfl

theorem conversionSource?_mapScalars (hf : Unseen f) (op : String) (operand : Expression) :
    conversionSource? op (mapScalars f operand) = conversionSource? op operand := by
  unfold conversionSource?
  have hfield (x : Option Expression) :
      (x.map (mapScalars f)).bind unwrapField? = x.bind unwrapField? := by
    cases x with
    | none => rfl
    | some e => exact unwrapField?_mapScalars e
  rw [unwrapSingle_mapScalars, unwrapField?_mapScalars, get?_mapScalars, get?_mapScalars,
    get?_mapScalars, hfield, hfield]
  cases operand.get? "to" with
  | none => rfl
  | some target =>
    rw [Option.map_some]
    dsimp only
    rw [isDateTarget_mapScalars hf]

theorem redundantSource?_mapScalars (hf : Unseen f) (e : Expression) :
    redundantSource? known force (mapScalars f e) = redundantSource? known force e := by
  unfold redundantSource?
  rw [call?_mapScalars]
  cases e.call? with
  | none => rfl
  | some c =>
    rw [Option.map_some]
    dsimp only
    rw [conversionSource?_mapScalars hf]

theorem collapse_mapScalars (hf : Unseen f) (e : Expression) :
    collapse known force (mapScalars f e) = mapScalars f (collapse known force e) := by
  unfold collapse
  rw [redundantSource?_mapScalars hf]
  cases redundantSource? known force e with
  | none => rfl
  | some path => exact (mapScalars_fieldRef path).symm

theorem heal_mapScalars (hf : Unseen f) (e : Expression) :
    heal known force (mapScalars f e) = mapScalars f (heal known force e) := by
  induction e with
  | scalar v => rw [mapScalars_scalar, heal_scalar, heal_scalar, mapScalars_scalar]
  | fieldRef path => rw [mapScalars_fieldRef, heal_fieldRef, mapScalars_fieldRef]
  | array xs ih =>
    rw [mapScalars_array, heal_array, heal_array, mapScalars_array, List.map_map, List.map_map]
    exact congrArg Expression.array (List.map_congr_left ih)
  | keyed es ih =>
    have hparts : healedParts known force (es.map fun d => (d.1, mapScalars f d.2)) =
        mapScalars f (healedParts known force es) := by
      rw [healedParts, healedParts, mapScalars_keyed, List.map_map, List.map_map]
      congr 1
      apply List.map_congr_left
      intro d hd
      exact congrArg (Prod.mk d.1) (ih d hd)
    rw [mapScalars_keyed, heal_keyed, heal_keyed, hparts, collapse_mapScalars hf]

theorem partField?_mapScalars (operand : Expression) :
    partField? (mapScalars f operand) = partField? operand := by
  unfold partField?
  rw [unwrapSingle_mapScalars]
  cases operand.unwrapSingle with
  | scalar v => rw [mapScalars_scalar]; rfl
  | fieldRef path => rw [mapScalars_fieldRef]
  | array xs => rw [mapScalars_array]; rfl
  | keyed es =>
    have hoperator := operator?_mapScalars (f := f) (.keyed es)
    have hdate := get?_mapScalars (f := f) "date" (.keyed es)
    rw [mapScalars_keyed] at hoperator hdate ⊢
    dsimp only
    rw [hoperator, hdate]
    cases (Expression.keyed es).get? "date" with
    | none => rfl
    | some date => cases date <;> simp

theorem mismatch_mapScalars (stage : Nat) (path : String) (e : Expression) :
    mismatch known stage path (mapScalars f e) = mismatch known stage path e := by
  unfold mismatch
  rw [call?_mapScalars]
  cases e.call? with
  | none => rfl
  | some c =>
    rw [Option.map_some]
    dsimp only
    rw [partField?_mapScalars]

theorem diagnoseNode_mapScalars (hf : Unseen f) (stage : Nat) (path : String) (e : Expression) :
    diagnoseNode known force stage path (mapScalars f e) =
      diagnoseNode known force stage path e := by
  rw [diagnoseNode, diagnoseNode, redundantSource?_mapScalars hf, operator?_mapScalars,
    mismatch_mapScalars]

theorem diagnose_mapScalars (hf : Unseen f) (stage : Nat) (path : String) (e : Expression) :
    diagnose known force stage path (mapScalars f e) = diagnose known force stage path e := by
  induction e generalizing path with
  | scalar v => rw [mapScalars_scalar, diagnose, diagnose]
  | fieldRef p => rw [mapScalars_fieldRef]
  | array xs ih =>
    rw [mapScalars_array, diagnose, diagnose]
    generalize 0 = i
    induction xs generalizing i with
    | nil => rfl
    | cons x xs ihxs =>
      obtain ⟨hx, hxs⟩ := List.forall_mem_cons.mp ih
      rw [List.map_cons, diagnoseItems, diagnoseItems, hx, ihxs hxs]
  | keyed es ih =>
    have hentries : diagnoseEntries known force stage path
        (es.map fun d => (d.1, mapScalars f d.2)) = diagnoseEntries known force stage path es := by
      induction es with
      | nil => rfl
      | cons d es ihes =>
        obtain ⟨hd, hes⟩ := List.forall_mem_cons.mp ih
        rw [List.map_cons, diagnoseEntries, diagnoseEntries, hd, ihes hes]
    have hparts : Expression.keyed (healEntries known force
        (es.map fun d => (d.1, mapScalars f d.2))) =
          mapScalars f (.keyed (healEntries known force es)) := by
      rw [healEntries_eq_map, healEntries_eq_map, mapScalars_keyed, List.map_map, List.map_map]
      congr 1
      apply List.map_congr_left
      intro d _
      exact congrArg (Prod.mk d.1) (heal_mapScalars hf d.2)
    rw [mapScalars_keyed, diagnose, diagnose, hentries, hparts, diagnoseNode_mapScalars hf]

section Yields

mutual

theorem yieldsDate_mapScalars (hf : Unseen f) :
    ∀ e, yieldsDate known (mapScalars f e) = yieldsDate known e
  | .scalar v => by rw [mapScalars_scalar, yieldsDate, yieldsDate, hf.date]
  | .fieldRef path => by rw [mapScalars_fieldRef]
  | .array xs => by rw [mapScalars_array]; rfl
  | .keyed [] => by rw [mapScalars_keyed]; rfl
  | .keyed [(op, operand)] => by
    rw [mapScalars_keyed, List.map_singleton, yieldsDate, yieldsDate,
      ifNullYields_mapScalars hf operand, condYields_mapScalars hf operand,
      switchYields_mapScalars hf operand, get?_mapScalars, Option.any_map]
    congr 3
    exact funext (isDateTarget_mapScalars hf)
  | .keyed (_ :: _ :: _) => by rw [mapScalars_keyed]; rfl

theorem ifNullYields_mapScalars (hf : Unseen f) :
    ∀ e, ifNullYields known (mapScalars f e) = ifNullYields known e
  | .scalar v => by rw [mapScalars_scalar]; rfl
  | .fieldRef path => by rw [mapScalars_fieldRef]
  | .array xs => by rw [mapScalars_array, ifNullYields, ifNullYields, anyYields_mapScalars hf xs]
  | .keyed es => by rw [mapScalars_keyed]; rfl

theorem condYields_mapScalars (hf : Unseen f) :
    ∀ e, condYields known (mapScalars f e) = condYields known e
  | .scalar v => by rw [mapScalars_scalar]; rfl
  | .fieldRef path => by rw [mapScalars_fieldRef]
  | .array [test, yes, no] => by
    rw [mapScalars_array]
    show condYields known (.array [_, _, _]) = _
    rw [condYields, condYields, yieldsDate_mapScalars hf yes, yieldsDate_mapScalars hf no]
  | .array [] | .array [_] | .array [_, _] | .array (_ :: _ :: _ :: _ :: _) => by
    rw [mapScalars_array]
    rfl
  | .keyed es => by
    rw [mapScalars_keyed, condYields, condYields, keyYields_mapScalars hf "then" es,
      keyYields_mapScalars hf "else" es]

theorem switchYields_mapScalars (hf : Unseen f) :
    ∀ e, switchYields known (mapScalars f e) = switchYields known e
  | .scalar v => by rw [mapScalars_scalar]; rfl
  | .fieldRef path => by rw [mapScalars_fieldRef]
  | .array xs => by rw [mapScalars_array]; rfl
  | .keyed es => by
    rw [mapScalars_keyed, switchYields, switchYields, branchesYield_mapScalars hf es,
      keyYields_mapScalars hf "default" es]

theorem anyYields_mapScalars (hf : Unseen f) :
    ∀ xs, anyYields known (xs.map (mapScalars f)) = anyYields known xs
  | [] => rfl
  | x :: xs => by
    rw [List.map_cons, anyYields, anyYields, yieldsDate_mapScalars hf x,
      anyYields_mapScalars hf xs]

theorem keyYields_mapScalars (hf : Unseen f) (key : String) :
    ∀ es, keyYields known key (es.map fun d => (d.1, mapScalars f d.2)) = keyYields known key es
  | [] => rfl
  | (k, e) :: es => by
    rw [List.map_cons, keyYields, keyYields, yieldsDate_mapScalars hf e,
      keyYields_mapScalars hf key es]

theorem branchesYield_mapScalars (hf : Unseen f) :
    ∀ es, branchesYield known (es.map fun d => (d.1, mapScalars f d.2)) = branchesYield known es
  | [] => rfl
  | (k, .array bs) :: es => by
    rw [List.map_cons, mapScalars_array, branchesYield, branchesYield,
      anyThenYields_mapScalars hf bs, branchesYield_mapScalars hf es]
  | (k, .scalar v) :: es | (k, .fieldRef path) :: es | (k, .keyed fields) :: es => by
    simp only [List.map_cons, mapScalars_scalar, mapScalars_fieldRef, mapScalars_keyed,
      branchesYield, branchesYield_mapScalars hf es]

theorem anyThenYields_mapScalars (hf : Unseen f) :
    ∀ bs, anyThenYields known (bs.map (mapScalars f)) = anyThenYields known bs
  | [] => rfl
  | .keyed es :: bs => by
    rw [List.map_cons, mapScalars_keyed, anyThenYields, anyThenYields,
      keyYields_mapScalars hf "then" es, anyThenYields_mapScalars hf bs]
  | .scalar v :: bs | .fieldRef path :: bs | .array xs :: bs => by
    simp only [List.map_cons, mapScalars_scalar, mapScalars_fieldRef, mapScalars_array,
      anyThenYields, anyThenYields_mapScalars hf bs]

end

end Yields

theorem keepsDocuments_mapScalars : KeepsDocuments (mapScalars f) where
  document es _ := mapScalars_keyed es
  other e h := by
    cases e with
    | scalar v => rw [mapScalars_scalar]; rfl
    | fieldRef path => rw [mapScalars_fieldRef]; rfl
    | array xs => rw [mapScalars_array]; rfl
    | keyed es => rw [mapScalars_keyed, isDocument_map, h]

/-- A stage with its scalars changed defines the same names, by the changed expressions. -/
theorem stageDefinitions_mapScalars (s : Stage) :
    stageDefinitions (s.mapScalars f) =
      (stageDefinitions s).map fun d => (d.1, mapScalars f d.2) := by
  obtain ⟨operator, spec⟩ := s
  unfold Stage.mapScalars
  dsimp only
  cases spec with
  | keyed es => rw [mapScalars_keyed, keepsDocuments_mapScalars.stageDefinitions_eq]
  | _ =>
    rw [stageDefinitions_of_not_keyed (by simp), stageDefinitions_of_not_keyed (by simp),
      List.map_nil]

theorem unsetNames_scalar (v : Value) : unsetNames (.scalar v) = v.str?.toList := by
  cases v <;> rfl

theorem unsetNames_array (xs : List Expression) :
    unsetNames (.array xs) = xs.flatMap fun
      | .scalar v => v.str?.toList
      | _ => [] := by
  induction xs with
  | nil => rfl
  | cons x xs ih =>
    rw [List.flatMap_cons, ← ih, unsetNames, unsetNames, List.filterMap_cons]
    cases x with
    | scalar v => cases v <;> rfl
    | _ => rfl

theorem unsetNames_mapScalars (hf : Unseen f) (e : Expression) :
    unsetNames (mapScalars f e) = unsetNames e := by
  cases e with
  | scalar v => rw [mapScalars_scalar, unsetNames_scalar, unsetNames_scalar, hf.text]
  | fieldRef path => rw [mapScalars_fieldRef]
  | keyed es => rw [mapScalars_keyed]; rfl
  | array xs =>
    rw [mapScalars_array, unsetNames_array, unsetNames_array, List.flatMap_map]
    refine List.flatMap_congr fun x _ => ?_
    cases x <;> simp [hf.text]

theorem healStage_mapScalars (hf : Unseen f) (s : Stage) :
    healStage known force (s.mapScalars f) = (healStage known force s).mapScalars f :=
  congrArg (Stage.mk s.operator) (heal_mapScalars hf s.spec)

theorem diagnoseStage_mapScalars (hf : Unseen f) (index : Nat) (s : Stage) :
    diagnoseStage known force index (s.mapScalars f) = diagnoseStage known force index s := by
  have hroot (s : Stage) : (s.mapScalars f).toExpression = mapScalars f s.toExpression := by
    rw [Stage.toExpression, Stage.toExpression, mapScalars_keyed, List.map_singleton]
    rfl
  rw [diagnoseStage, diagnoseStage, healStage_mapScalars hf, hroot, mismatch_mapScalars]
  exact congrArg (· ++ _) (diagnose_mapScalars hf index s.operator s.spec)

end Inquiry.Dates
