import Inquiry.Proofs.Dates.Scalars

/-!
# Integers and doubles

The number of the date type and the zero that drops a field are known in every spelling, and so two
pipelines that differ in the spelling of whole numbers run alike: with the same reports, the same date
fields after each stage, and outputs that differ in the spelling alone. The one exception are the
flags by which a projection keeps a field: an integer keeps what is known of it, a double does not.
-/
namespace Inquiry.Dates

open Expression (mapScalars mapScalars_array mapScalars_fieldRef mapScalars_keyed mapScalars_scalar)
open Value (Respells integral isNumeral_respell respell wholeNumber?_respell)

variable {g : Value → Value} {known : String → Bool} {force : Bool}

theorem isDateTarget_number {v : Value} (h : v.isNumeral = true) :
    isDateTarget (.scalar v) = (v.wholeNumber? == some 9) := by
  cases v with
  | int | int64 | float => rfl
  | _ => cases h

theorem scalarIsDate_number {v : Value} (h : v.isNumeral = true) : scalarIsDate v = false := by
  cases v with
  | int | int64 | float => rfl
  | _ => cases h

theorem str?_number {v : Value} (h : v.isNumeral = true) : v.str? = none := by
  cases v with
  | int | int64 | float => rfl
  | _ => cases h

/-- What is asked of a scalar is the same of the respelled one if it is the same of all numbers that
are equal, and looks at nothing inside of a container. -/
theorem apply_respell {α : Type} (hg : Respells g) {ask : Value → α}
    (number : ∀ v w, v.isNumeral = true → w.isNumeral = true → v.wholeNumber? = w.wholeNumber? →
      ask v = ask w)
    (list : ∀ xs ys, ask (.list xs) = ask (.list ys))
    (tuple : ∀ xs ys, ask (.tuple xs) = ask (.tuple ys))
    (dict : ∀ es fs, ask (.dict es) = ask (.dict fs)) (v : Value) :
    ask (respell g v) = ask v := by
  cases hv : v.isNumeral with
  | true =>
    exact number _ _ ((isNumeral_respell hg v).trans hv) hv (wholeNumber?_respell hg v)
  | false =>
    cases v with
    | int | int64 | float => cases hv
    | list xs => exact list _ xs
    | tuple xs => exact tuple _ xs
    | dict es => exact dict _ es
    | _ => exact congrArg ask (hg.eq_self rfl)

theorem unseen_respell (hg : Respells g) : Unseen (respell g) where
  target := by
    let ask : Value → Bool := fun v => isDateTarget (.scalar v)
    have number (v w : Value) (hv : v.isNumeral = true) (hw : w.isNumeral = true)
        (heq : v.wholeNumber? = w.wholeNumber?) : ask v = ask w := by
      show isDateTarget (.scalar v) = isDateTarget (.scalar w)
      rw [isDateTarget_number hv, isDateTarget_number hw, heq]
    exact apply_respell hg number (fun _ _ => rfl) (fun _ _ => rfl) (fun _ _ => rfl)
  date := apply_respell hg
    (fun v w hv hw _ => by rw [scalarIsDate_number hv, scalarIsDate_number hw])
    (fun _ _ => rfl) (fun _ _ => rfl) (fun _ _ => rfl)
  text := apply_respell hg (fun v w hv hw _ => by rw [str?_number hv, str?_number hw])
    (fun _ _ => rfl) (fun _ _ => rfl) (fun _ _ => rfl)

def isNumeral : Expression → Bool
  | .scalar v => v.isNumeral
  | _ => false

/-- A whole number other than zero. -/
def isInclusion : Expression → Bool
  | .scalar v => v.isNumeral && v.wholeNumber?.any (· ≠ 0)
  | _ => false

def keepsField (d : String × Expression) : Bool := isInclusion d.2

/-- The flags by which a projection keeps fields. -/
def inclusions (s : Stage) : List (String × Expression) :=
  if projects s then (stageDefinitions s).filter keepsField else []

theorem isNumeral_mapScalars (hg : Respells g) (e : Expression) :
    isNumeral (mapScalars (respell g) e) = isNumeral e := by
  cases e with
  | scalar v => rw [mapScalars_scalar, isNumeral, isNumeral, isNumeral_respell hg]
  | _ => simp [isNumeral]

theorem isInclusion_mapScalars (hg : Respells g) (e : Expression) :
    isInclusion (mapScalars (respell g) e) = isInclusion e := by
  cases e with
  | scalar v =>
    rw [mapScalars_scalar, isInclusion, isInclusion, isNumeral_respell hg, wholeNumber?_respell hg]
  | _ => simp [isInclusion]

theorem isInclusion_heal (e : Expression) : isInclusion (heal known force e) = isInclusion e := by
  refine apply_heal (a := false) (fun e he => ?_) e
  cases e with
  | scalar v => exact absurd rfl (he v)
  | _ => rfl

/-- A number that keeps no field drops it, in every spelling. -/
theorem verdict_of_isNumeral {e : Expression} (h : isNumeral e = true)
    (hzero : isInclusion e = false) : verdict true known e = some false := by
  cases e with
  | scalar v =>
    cases v with
    | int n | int64 n =>
      have hn : n = 0 := by simpa [isInclusion, Value.isNumeral, Value.wholeNumber?] using hzero
      subst hn
      rfl
    | float x => rfl
    | _ => cases h
  | _ => cases h

/-- What is no number has one spelling for a projection. -/
theorem projectionFlag?_mapScalars (hg : Respells g) {e : Expression} (h : isNumeral e = false) :
    projectionFlag? (mapScalars (respell g) e) = projectionFlag? e := by
  cases e with
  | scalar v =>
    rw [mapScalars_scalar]
    cases v with
    | int | int64 | float => cases h
    | list | tuple | dict => rfl
    | _ => exact congrArg (fun v => projectionFlag? (.scalar v)) (hg.eq_self rfl)
  | fieldRef path => rw [mapScalars_fieldRef]
  | keyed es => rw [mapScalars_keyed]; rfl
  | array xs => rw [mapScalars_array]; rfl

/-- Two spellings of an expression are judged alike, unless it is a flag that keeps its field. -/
theorem verdict_congr (hg : Respells g) {e e' : Expression}
    (h : mapScalars (respell g) e = mapScalars (respell g) e') {projected : Bool}
    (hflag : projected = true → isInclusion e = true → e = e') :
    verdict projected known e = verdict projected known e' := by
  have hyields : yieldsDate known e = yieldsDate known e' := by
    rw [← yieldsDate_mapScalars (unseen_respell hg), h, yieldsDate_mapScalars (unseen_respell hg)]
  cases projected with
  | false => rw [verdict_of_no_flag rfl, verdict_of_no_flag rfl, hyields]
  | true =>
    have hinclusion : isInclusion e = isInclusion e' := by
      rw [← isInclusion_mapScalars hg, h, isInclusion_mapScalars hg]
    have hnumeral : isNumeral e = isNumeral e' := by
      rw [← isNumeral_mapScalars hg, h, isNumeral_mapScalars hg]
    cases hkept : isInclusion e with
    | true => rw [hflag rfl hkept]
    | false =>
      cases hnumber : isNumeral e with
      | true =>
        rw [verdict_of_isNumeral hnumber hkept,
          verdict_of_isNumeral (hnumeral ▸ hnumber) (hinclusion ▸ hkept)]
      | false =>
        have hsame : projectionFlag? e = projectionFlag? e' := by
          rw [← projectionFlag?_mapScalars hg hnumber, h,
            projectionFlag?_mapScalars hg (hnumeral ▸ hnumber)]
        rw [verdict, verdict, flag?, flag?, if_pos rfl, if_pos rfl, hsame, hyields]

theorem filter_keepsField_cons {d c : String × Expression} {ds cs : List (String × Expression)}
    (hkeeps : keepsField d = keepsField c)
    (h : (d :: ds).filter keepsField = (c :: cs).filter keepsField) :
    (keepsField d = true → d = c) ∧ ds.filter keepsField = cs.filter keepsField := by
  cases hkept : keepsField d with
  | true =>
    rw [List.filter_cons_of_pos hkept, List.filter_cons_of_pos (hkeeps ▸ hkept)] at h
    obtain ⟨hhead, htail⟩ := List.cons.inj h
    exact ⟨fun _ => hhead, htail⟩
  | false =>
    rw [List.filter_cons_of_neg (by simp [hkept]),
      List.filter_cons_of_neg (by simp [← hkeeps, hkept])] at h
    exact ⟨fun hpos => absurd hpos Bool.false_ne_true, h⟩

/-- Definitions that differ in the spelling of numbers settle the same, if the flags that keep fields
are the same. -/
theorem foldl_judge_congr (hg : Respells g) {ds ds' : List (String × Expression)}
    (h : (ds.map fun d => (d.1, mapScalars (respell g) d.2)) =
      ds'.map fun d => (d.1, mapScalars (respell g) d.2)) {projected : Bool}
    (hflags : projected = true → ds.filter keepsField = ds'.filter keepsField)
    (source : String) (F : DateFields) :
    ds.foldl (judge projected source) F = ds'.foldl (judge projected source) F := by
  induction ds generalizing ds' F with
  | nil =>
    rw [List.map_eq_nil_iff.mp h.symm]
  | cons d ds ih =>
    cases ds' with
    | nil => cases h
    | cons c cs =>
      rw [List.map_cons, List.map_cons] at h
      obtain ⟨hhead, htail⟩ := List.cons.inj h
      obtain ⟨hname, hspelled⟩ := Prod.mk.inj hhead
      have hkeeps : keepsField d = keepsField c := by
        rw [keepsField, ← isInclusion_mapScalars hg, hspelled, isInclusion_mapScalars hg, keepsField]
      have hjudge : judge projected source F d = judge projected source F c := by
        rw [judge, judge, hname, verdict_congr hg hspelled]
        intro hprojected hkept
        exact congrArg Prod.snd ((filter_keepsField_cons hkeeps (hflags hprojected)).1 hkept)
      rw [List.foldl_cons, List.foldl_cons, hjudge]
      apply ih htail
      intro hprojected
      exact (filter_keepsField_cons hkeeps (hflags hprojected)).2

variable {s t : Stage}

theorem mapScalars_eq_fieldRef {f : Value → Value} {e : Expression} {path : String}
    (h : mapScalars f e = .fieldRef path) : e = .fieldRef path := by
  cases e with
  | fieldRef p => rwa [mapScalars_fieldRef] at h
  | _ => simp at h

theorem inclusions_of_fieldRef {path : String} (h : s.spec = .fieldRef path) :
    inclusions s = [] := by
  obtain ⟨operator, spec⟩ := s
  obtain rfl : spec = .fieldRef path := h
  rw [inclusions, stageDefinitions_of_not_keyed (by simp)]
  split <;> rfl

/-- Healing leaves the flags as they are, unless the whole spec gives way to a field. -/
theorem inclusions_healStage (known : String → Bool) (force : Bool) (s : Stage) :
    inclusions (healStage known force s) = inclusions s ∨
      ∃ path, (healStage known force s).spec = .fieldRef path := by
  by_cases hgone : ∃ es f, s.spec = .keyed es ∧ heal known force (.keyed es) = .fieldRef f
  · obtain ⟨es, f, hspec, hheal⟩ := hgone
    refine Or.inr ⟨f, ?_⟩
    rw [healStage, hspec, hheal]
  · refine Or.inl ?_
    have hprojects : projects (healStage known force s) = projects s := rfl
    unfold inclusions
    rw [hprojects, stageDefinitions_healStage fun es f hspec hheal => hgone ⟨es, f, hspec, hheal⟩]
    split
    · rw [List.filter_map]
      have hkept : (keepsField ∘ fun d : String × Expression => (d.1, heal known force d.2)) =
          keepsField := funext fun d => isInclusion_heal d.2
      rw [hkept]
      -- A flag is a scalar, which healing keeps.
      refine (List.map_congr_left fun d hd => ?_).trans (List.map_id _)
      obtain ⟨key, e⟩ := d
      have hflag := (List.mem_filter.mp hd).2
      cases e with
      | scalar v => exact congrArg (Prod.mk key) (heal_scalar known force v)
      | _ => cases hflag
    · rfl

theorem operator_spelled (h : s.mapScalars (respell g) = t.mapScalars (respell g)) :
    s.operator = t.operator := by
  show (s.mapScalars (respell g)).operator = (t.mapScalars (respell g)).operator
  rw [h]

theorem spec_spelled (h : s.mapScalars (respell g) = t.mapScalars (respell g)) :
    mapScalars (respell g) s.spec = mapScalars (respell g) t.spec := by
  show (s.mapScalars (respell g)).spec = (t.mapScalars (respell g)).spec
  rw [h]

/-- Two spellings of a stage define the same names by two spellings of the same expressions. -/
theorem stageDefinitions_spelled (h : s.mapScalars (respell g) = t.mapScalars (respell g)) :
    ((stageDefinitions s).map fun d => (d.1, mapScalars (respell g) d.2)) =
      (stageDefinitions t).map fun d => (d.1, mapScalars (respell g) d.2) := by
  rw [← stageDefinitions_mapScalars, h, stageDefinitions_mapScalars]

theorem propagate_spelled (hg : Respells g)
    (h : s.mapScalars (respell g) = t.mapScalars (respell g)) (hflags : inclusions s = inclusions t)
    (index : Nat) (F : DateFields) : propagate index s F = propagate index t F := by
  have hoperator : s.operator = t.operator := operator_spelled h
  have hspec : mapScalars (respell g) s.spec = mapScalars (respell g) t.spec := spec_spelled h
  by_cases hunset : s.operator = "$unset"
  · rw [propagate_of_unset hunset, propagate_of_unset (hoperator ▸ hunset),
      ← unsetNames_mapScalars (unseen_respell hg), hspec,
      unsetNames_mapScalars (unseen_respell hg)]
  · have hprojects : projects s = projects t := by rw [projects, projects, hoperator]
    rw [propagate_eq_foldl hunset, propagate_eq_foldl (hoperator ▸ hunset), hprojects, hoperator]
    refine foldl_judge_congr hg (stageDefinitions_spelled h) (fun hprojected => ?_) _ F
    unfold inclusions at hflags
    rwa [hprojects, hprojected, if_pos rfl, if_pos rfl] at hflags

theorem inclusions_spelled_of_fieldRef {path : String}
    (h : s.mapScalars (respell g) = t.mapScalars (respell g)) (hs : s.spec = .fieldRef path) :
    inclusions s = inclusions t := by
  have hspec := spec_spelled h
  rw [hs, mapScalars_fieldRef] at hspec
  have ht : t.spec = .fieldRef path := mapScalars_eq_fieldRef hspec.symm
  rw [inclusions_of_fieldRef hs, inclusions_of_fieldRef ht]

/-- Healing two spellings of a stage leaves them with the same flags. -/
theorem inclusions_healStage_spelled (hflags : inclusions s = inclusions t)
    (h : (healStage known force s).mapScalars (respell g) =
      (healStage known force t).mapScalars (respell g)) :
    inclusions (healStage known force s) = inclusions (healStage known force t) := by
  rcases inclusions_healStage known force s with hs | ⟨path, hs⟩
  · rcases inclusions_healStage known force t with ht | ⟨path, ht⟩
    · rw [hs, ht, hflags]
    · exact (inclusions_spelled_of_fieldRef h.symm ht).symm
  · exact inclusions_spelled_of_fieldRef h hs

theorem step_spelled (hg : Respells g)
    (h : s.mapScalars (respell g) = t.mapScalars (respell g)) (hflags : inclusions s = inclusions t)
    (p : Progress) (index : Nat) :
    (p.step force index s).1 = (p.step force index t).1 ∧
      (p.step force index s).2.mapScalars (respell g) =
        (p.step force index t).2.mapScalars (respell g) := by
  have hf := unseen_respell hg
  have hheal : (healStage p.fields.contains force s).mapScalars (respell g) =
      (healStage p.fields.contains force t).mapScalars (respell g) := by
    rw [← healStage_mapScalars hf, h, healStage_mapScalars hf]
  have hreports : diagnoseStage p.fields.contains force index s =
      diagnoseStage p.fields.contains force index t := by
    rw [← diagnoseStage_mapScalars hf, h, diagnoseStage_mapScalars hf]
  have hkept : inclusions (healStage p.fields.contains force s) =
      inclusions (healStage p.fields.contains force t) := inclusions_healStage_spelled hflags hheal
  refine ⟨?_, hheal⟩
  unfold Progress.step
  dsimp only
  rw [propagate_spelled hg hheal hkept, hreports]

/-- Two stages that keep fields by the same flags, if they are projections. -/
def SameFlags (v w : Value) : Prop :=
  ∀ index s t, Stage.ofValue index v = .ok s → Stage.ofValue index w = .ok t →
    inclusions s = inclusions t

/-- Two outcomes that differ in the spelling of numbers only. What is no stage is refused by the name
of its type. -/
inductive SpelledAlike (g : Value → Value) :
    Except Malformed (List Value) → Except Malformed (List Value) → Prop
  | output {out out'} (same : out.map (respell g) = out'.map (respell g)) :
      SpelledAlike g (.ok out) (.ok out')
  | fault (m) : SpelledAlike g (.error m) (.error m)
  | notStage (index typeName typeName') :
      SpelledAlike g (.error (.notStage index typeName)) (.error (.notStage index typeName'))

theorem SpelledAlike.cons {x y : Except Malformed (List Value)} (h : SpelledAlike g x y)
    {v w : Value} (hv : respell g v = respell g w) :
    SpelledAlike g (x.map (v :: ·)) (y.map (w :: ·)) := by
  cases h with
  | output same =>
    refine .output ?_
    rw [List.map_cons, List.map_cons, hv, same]
  | fault m => exact .fault m
  | notStage index typeName typeName' => exact .notStage index typeName typeName'

/-- Two spellings of a stage are read as two spellings of its tree, or refused alike. -/
theorem ofValue_spelled (hg : Respells g) {v w : Value} (h : respell g v = respell g w)
    (index : Int) :
    (∃ s t, Stage.ofValue index v = .ok s ∧ Stage.ofValue index w = .ok t ∧
        s.mapScalars (respell g) = t.mapScalars (respell g)) ∨
      ∃ m m', Stage.ofValue index v = .error m ∧ Stage.ofValue index w = .error m' ∧
        SpelledAlike g (.error m) (.error m') := by
  have hdict : v.isDict = w.isDict := by
    rw [← Value.isDict_respell hg, h, Value.isDict_respell hg]
  cases hv : v.isDict with
  | true =>
    have hread : (Stage.ofValue index v).map (Stage.mapScalars (respell g)) =
        (Stage.ofValue index w).map (Stage.mapScalars (respell g)) := by
      rw [← Stage.ofValue_respell hg index hv, h, Stage.ofValue_respell hg index (hdict ▸ hv)]
    cases hs : Stage.ofValue index v with
    | ok s =>
      rw [hs] at hread
      obtain ⟨t, ht, hsame⟩ := Expression.ok_of_map_ok hread.symm
      exact Or.inl ⟨s, t, rfl, ht, hsame.symm⟩
    | error m =>
      rw [hs] at hread
      cases ht : Stage.ofValue index w with
      | ok t =>
        rw [ht] at hread
        cases hread
      | error m' =>
        rw [ht] at hread
        cases hread
        exact Or.inr ⟨m, m, rfl, rfl, .fault m⟩
  | false =>
    exact Or.inr ⟨_, _, Stage.ofValue_of_not_dict index hv,
      Stage.ofValue_of_not_dict index (hdict ▸ hv), .notStage index _ _⟩

theorem healStages_spelled (hg : Respells g) {vs ws : List Value}
    (h : vs.map (respell g) = ws.map (respell g)) (hflags : List.Forall₂ SameFlags vs ws)
    (p : Progress) (index : Nat) :
    (healStages force index p vs).1 = (healStages force index p ws).1 ∧
      SpelledAlike g (healStages force index p vs).2 (healStages force index p ws).2 := by
  induction hflags generalizing p index with
  | nil => exact ⟨rfl, .output rfl⟩
  | @cons v w vs ws hstage hstages ih =>
    rw [List.map_cons, List.map_cons] at h
    obtain ⟨hhead, htail⟩ := List.cons.inj h
    rcases ofValue_spelled hg hhead index with ⟨s, t, hs, ht, hst⟩ | ⟨m, m', hs, ht, hfault⟩
    · obtain ⟨hprogress, hhealed⟩ :=
        @step_spelled g force s t hg hst (hstage index s t hs ht) p index
      obtain ⟨hrest, hout⟩ := ih htail (p.step force index t).1 (index + 1)
      have hwritten : respell g (healStage p.fields.contains force s).toValue =
          respell g (healStage p.fields.contains force t).toValue := by
        rw [← Stage.toValue_mapScalars hg, ← Stage.toValue_mapScalars hg]
        exact congrArg Stage.toValue hhealed
      rw [healStages_cons_of_ok hs, healStages_cons_of_ok ht, hprogress]
      exact ⟨hrest, hout.cons hwritten⟩
    · rw [healStages_cons_of_error hs, healStages_cons_of_error ht]
      exact ⟨rfl, hfault⟩

/-- Integers and doubles are treated alike, but for the flags by which a projection keeps a field.
Two pipelines that differ only in the spelling of whole numbers, with the same such flags, leave the
same reports and date fields after every stage, and end with outputs that differ in the spelling only,
or with the same fault. -/
theorem healPipeline_spelled (hg : Respells g) {stages stages' : List Value}
    (h : stages.map (respell g) = stages'.map (respell g))
    (hflags : List.Forall₂ SameFlags stages stages') (forced : List String) (start : Progress)
    (collection : String) :
    (∀ n, (healPipeline forced start collection (.list (stages.take n))).1 =
        (healPipeline forced start collection (.list (stages'.take n))).1) ∧
      SpelledAlike g (healPipeline forced start collection (.list stages)).2
        (healPipeline forced start collection (.list stages')).2 := by
  refine ⟨fun n => ?_, (healStages_spelled hg h hflags start 0).2⟩
  have htake : (stages.take n).map (respell g) = (stages'.take n).map (respell g) := by
    rw [List.map_take, List.map_take, h]
  exact (healStages_spelled hg htake (List.forall₂_take n hflags) start 0).1

/-- A projection of one field by a number. -/
def flagged (name : String) (v : Value) : Stage := ⟨"$project", .keyed [(name, .scalar v)]⟩

/-- An integer other than zero keeps what is known of a field. Every double drops the field, also the
one that equals the integer. -/
theorem fields_step_flagged {name : String} (hname : isOperatorName name = false) (p : Progress)
    (index : Nat) :
    (∀ n : Int, n ≠ 0 →
        (p.step force index (flagged name (.int n))).1.fields = p.fields) ∧
      ∀ x : Float,
        (p.step force index (flagged name (.float x))).1.fields = p.fields.untrack name := by
  have hheal (v : Value) : healStage p.fields.contains force (flagged name v) = flagged name v := by
    have hcall : (Expression.keyed [(name, .scalar v)]).call? = none := by
      rw [Expression.call?, hname]
      rfl
    rw [healStage, flagged, heal_keyed_of_no_call hcall, healedParts_call, heal_scalar]
  have hfields (v : Value) : (p.step force index (flagged name v)).1.fields =
      judge true (sourceText index "$project") p.fields (name, .scalar v) := by
    unfold Progress.step
    dsimp only
    rw [hheal, propagate_eq_foldl (by show "$project" ≠ "$unset"; decide)]
    show (definitions "" [(name, Expression.scalar v)]).foldl _ p.fields = _
    rw [definitions, definitions, definitionsOf_of_not_document rfl, String.empty_append]
    rfl
  constructor
  · intro n hn
    have hflag : verdict true p.fields.contains (.scalar (.int n)) = none := by
      rw [verdict, flag?, if_pos rfl, projectionFlag?, bne_iff_ne.mpr hn]
    rw [hfields, judge, hflag]
    rfl
  · intro x
    rw [hfields]
    rfl

namespace Sample

def dueDate : Progress := .start (DateFields.ofNames ["due"] none)

/-- A report by month that keeps the date by one number, drops a note by another and has a third one
for the date type. -/
def monthly (kept dropped dateType : Value) : List Value :=
  [.doc [("$project", .doc [("due", kept), ("note", dropped),
      ("placed", .doc [("$convert", .doc [("input", .str "$text"), ("to", dateType)])])])],
    .doc [("$group", .doc [("_id", .doc [("$month", .str "$due")])])]]

theorem map_respell_monthly (kept dropped dateType : Value) :
    (monthly kept dropped dateType).map (respell integral) =
      monthly (respell integral kept) (respell integral dropped) (respell integral dateType) := rfl

/-- The projection as it is read. -/
def projection (kept dropped dateType : Value) : Stage :=
  ⟨"$project", .keyed [("due", .scalar kept), ("note", .scalar dropped),
    ("placed", .keyed [("$convert", .keyed [("input", .fieldRef "text"), ("to", .scalar dateType)])])]⟩

theorem inclusions_projection {kept dropped : Value} (hkept : isInclusion (.scalar kept) = true)
    (hdropped : isInclusion (.scalar dropped) = false) (dateType : Value) :
    inclusions (projection kept dropped dateType) = [("due", .scalar kept)] := by
  have hdue : keepsField ("due", .scalar kept) = true := hkept
  have hnote : ¬ keepsField ("note", .scalar dropped) = true := by
    show ¬ isInclusion (.scalar dropped) = true
    simp [hdropped]
  show [("due", .scalar kept), ("note", .scalar dropped), ("placed", _)].filter keepsField = _
  rw [List.filter_cons_of_pos hdue, List.filter_cons_of_neg hnote]
  rfl

end Sample

theorem healPipeline_spelled_monthly :
    let run := fun stages => healPipeline [] Sample.dueDate "orders" (.list stages)
    let integers := Sample.monthly (.int 1) (.int 0) (.int 9)
    let doubles := Sample.monthly (.int 1) (.float 0.0) (.float 9.0)
    (∀ n, (run (integers.take n)).1 = (run (doubles.take n)).1) ∧
      SpelledAlike integral (run integers).2 (run doubles).2 := by
  have hzero : respell integral (.float 0.0) = .int 0 :=
    Value.respell_integral_double (by decide +kernel)
  have hnine : respell integral (.float 9.0) = .int 9 :=
    Value.respell_integral_double (by decide +kernel)
  have hspelled : (Sample.monthly (.int 1) (.int 0) (.int 9)).map (respell integral) =
      (Sample.monthly (.int 1) (.float 0.0) (.float 9.0)).map (respell integral) := by
    rw [Sample.map_respell_monthly, Sample.map_respell_monthly, hzero, hnine]
    rfl
  have hdropped : isInclusion (.scalar (.float 0.0)) = false := by decide +kernel
  refine healPipeline_spelled Value.respells_integral hspelled ?_ [] Sample.dueDate "orders"
  refine .cons ?_ (.cons ?_ .nil)
  · intro index s t hs ht
    cases hs
    cases ht
    exact (Sample.inclusions_projection rfl rfl (.int 9)).trans
      (Sample.inclusions_projection rfl hdropped (.float 9.0)).symm
  · intro index s t hs ht
    cases hs
    cases ht
    rfl

/-- The equal double in the place of the flag takes the date away, and its month is reported. -/
theorem date_lost_by_double_flag :
    let run := fun stages => healPipeline [] Sample.dueDate "orders" (.list stages)
    let integer := Sample.monthly (.int 1) (.int 0) (.int 9)
    let double := Sample.monthly (.float 1.0) (.int 0) (.int 9)
    integer.map (respell integral) = double.map (respell integral) ∧
      (run (integer.take 1)).1.fields.contains "due" = true ∧
      (run integer).1.diagnostics = [] ∧
      (run (double.take 1)).1.fields.contains "due" = false ∧
      (run double).1.diagnostics = [⟨.operatorMismatch, 1, "$group._id", "$month", "due"⟩] :=
  ⟨rfl, rfl, rfl, rfl, rfl⟩

end Inquiry.Dates
