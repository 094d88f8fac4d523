import Inquiry.Proofs.Dates.Documents
import Inquiry.Proofs.Dates.Reached

/-!
# The status of a field that a stage defines

A document defines its fields, and a field that is a document again has fields under dotted names. What
a stage settles are the fields that are no such documents: each of them is in the set after the stage
just if its expression yields a date. A document that is taken apart into its fields is passed over, so
its own name keeps the status that it had, and no document brings a name into the set.
-/
namespace Inquiry.Dates

open Expression (Canonical canonical_call)

/-- The document with the entries `es` has a field of that name, defined by the expression. -/
inductive HasField : List (String × Expression) → String → Expression → Prop
  | entry {es name e} (mem : (name, e) ∈ es) : HasField es name e
  | inner {es key fields name e} (mem : (key, .keyed fields) ∈ es)
      (document : (Expression.keyed fields).isDocument = true) (field : HasField fields name e) :
      HasField es (key ++ "." ++ name) e

/-- The stage defines the field of that name by the expression. -/
inductive Defines : Stage → String → Expression → Prop
  | added {op es name e} (op_eq : op = "$addFields" ∨ op = "$set") (field : HasField es name e) :
      Defines ⟨op, .keyed es⟩ name e
  | grouped {es name e} (mem : (name, e) ∈ es) : Defines ⟨"$group", .keyed es⟩ name e
  /-- Only the key of a group is taken apart. -/
  | groupKey {es fields name e} (mem : ("_id", .keyed fields) ∈ es)
      (document : (Expression.keyed fields).isDocument = true) (field : HasField fields name e) :
      Defines ⟨"$group", .keyed es⟩ ("_id." ++ name) e
  | newRoot {spec fields name e} (root : spec.get? "newRoot" = some (.keyed fields))
      (document : (Expression.keyed fields).isDocument = true) (field : HasField fields name e) :
      Defines ⟨"$replaceRoot", spec⟩ name e
  | replaced {fields name e} (document : (Expression.keyed fields).isDocument = true)
      (field : HasField fields name e) : Defines ⟨"$replaceWith", .keyed fields⟩ name e

variable {es : List (String × Expression)} {name path n : String} {e : Expression}

/-- A field that is no document is a definition of its document. -/
theorem HasField.mem_definitions (h : HasField es name e) (leaf : e.isDocument = false)
    (path : String) : (path ++ name, e) ∈ definitions path es := by
  induction h generalizing path with
  | @entry es name e mem =>
    rw [definitions_eq_flatMap, List.mem_flatMap]
    refine ⟨(name, e), mem, ?_⟩
    rw [definitionsOf_of_not_document leaf]
    exact List.mem_singleton_self _
  | @inner es key fields name e mem document field ih =>
    rw [definitions_eq_flatMap, List.mem_flatMap]
    refine ⟨(key, .keyed fields), mem, ?_⟩
    rw [definitionsOf_document document]
    simpa only [String.append_assoc] using ih leaf (path ++ key ++ ".")

/-- Every definition of a document is one of its fields. -/
theorem exists_hasField {es : List (String × Expression)} (h : (n, e) ∈ definitions path es) :
    ∃ name, n = path ++ name ∧ HasField es name e := by
  -- A document is taken apart at a path of its own, so the induction is on the size.
  induction hsize : sizeOf (Expression.keyed es) using Nat.strongRecOn generalizing es path with
  | ind size ih =>
    subst hsize
    rw [definitions_eq_flatMap, List.mem_flatMap] at h
    obtain ⟨⟨key, x⟩, hmem, hx⟩ := h
    cases hdoc : x.isDocument with
    | true =>
      obtain ⟨fields, rfl⟩ := exists_keyed_of_isDocument hdoc
      rw [definitionsOf_document hdoc] at hx
      obtain ⟨name, rfl, hfield⟩ := ih _ (sizeOf_entry_lt hmem) hx rfl
      exact ⟨key ++ "." ++ name, by simp only [String.append_assoc], .inner hmem hdoc hfield⟩
    | false =>
      rw [definitionsOf_of_not_document hdoc, List.mem_singleton] at hx
      cases hx
      exact ⟨key, rfl, .entry hmem⟩

theorem hasField_of_mem_definitions (h : (n, e) ∈ definitions "" es) : HasField es n e := by
  obtain ⟨name, rfl, hfield⟩ := exists_hasField h
  rwa [String.empty_append]

theorem Defines.projects {t : Stage} (h : Defines t name e) : projects t = false := by
  cases h with
  | added op_eq field => rcases op_eq with rfl | rfl <;> rfl
  | grouped mem => rfl
  | groupKey mem document field => rfl
  | newRoot root document field => rfl
  | replaced document field => rfl

theorem stageDefinitions_group (es : List (String × Expression)) :
    stageDefinitions ⟨"$group", .keyed es⟩ =
      es.flatMap fun d => if d.1 = "_id" then definitionsOf "" d.1 d.2 else [d] :=
  groupDefinitions_eq_flatMap es

theorem mem_stageDefinitions_group (mem : (name, e) ∈ es) (leaf : e.isDocument = false) :
    (name, e) ∈ stageDefinitions ⟨"$group", .keyed es⟩ := by
  rw [stageDefinitions_group, List.mem_flatMap]
  refine ⟨(name, e), mem, ?_⟩
  rw [definitionsOf_of_not_document leaf, String.empty_append, ite_self]
  exact List.mem_singleton_self _

/-- What a stage defines by anything but a document, it settles. -/
theorem Defines.mem_stageDefinitions {t : Stage} (h : Defines t name e)
    (leaf : e.isDocument = false) : (name, e) ∈ stageDefinitions t := by
  cases h with
  | added op_eq field =>
    have hmem := field.mem_definitions leaf ""
    rw [String.empty_append] at hmem
    rcases op_eq with rfl | rfl <;> exact hmem
  | grouped mem => exact mem_stageDefinitions_group mem leaf
  | @groupKey es fields name e mem document field =>
    rw [stageDefinitions_group, List.mem_flatMap]
    refine ⟨("_id", .keyed fields), mem, ?_⟩
    rw [if_pos rfl, definitionsOf_document document]
    exact field.mem_definitions leaf "_id."
  | @newRoot spec fields name e root document field =>
    have hmem := field.mem_definitions leaf ""
    rw [String.empty_append, ← rootDefinitions_document document] at hmem
    have hroot : stageDefinitions ⟨"$replaceRoot", spec⟩ = rootDefinitions (.keyed fields) := by
      simp [stageDefinitions, root]
    rwa [hroot]
  | @replaced fields name e document field =>
    have hmem := field.mem_definitions leaf ""
    rwa [String.empty_append, ← rootDefinitions_document document] at hmem

theorem hasField_of_mem_rootDefinitions {root : Expression} (h : (n, e) ∈ rootDefinitions root) :
    ∃ fields, root = .keyed fields ∧ root.isDocument = true ∧ HasField fields n e := by
  cases hdoc : root.isDocument with
  | true =>
    obtain ⟨fields, rfl⟩ := exists_keyed_of_isDocument hdoc
    rw [rootDefinitions_document hdoc] at h
    exact ⟨fields, rfl, rfl, hasField_of_mem_definitions h⟩
  | false =>
    rw [rootDefinitions_of_not_document hdoc] at h
    cases h

theorem defines_group (mem : (name, e) ∈ stageDefinitions ⟨"$group", .keyed es⟩) :
    Defines ⟨"$group", .keyed es⟩ name e := by
  rw [stageDefinitions_group, List.mem_flatMap] at mem
  obtain ⟨⟨key, x⟩, hmem, hx⟩ := mem
  dsimp only at hx
  cases hdoc : x.isDocument with
  | true =>
    split at hx
    · rename_i hkey
      obtain rfl : key = "_id" := hkey
      obtain ⟨fields, rfl⟩ := exists_keyed_of_isDocument hdoc
      rw [definitionsOf_document hdoc] at hx
      obtain ⟨name, rfl, hfield⟩ := exists_hasField hx
      exact .groupKey hmem hdoc hfield
    · rw [List.mem_singleton] at hx
      cases hx
      exact .grouped hmem
  | false =>
    rw [definitionsOf_of_not_document hdoc, String.empty_append, ite_self, List.mem_singleton] at hx
    cases hx
    exact .grouped hmem

/-- What a stage settles, it defines, unless it is a projection. -/
theorem defines_of_mem_stageDefinitions {t : Stage} (hprojects : projects t = false)
    (h : (name, e) ∈ stageDefinitions t) : Defines t name e := by
  obtain ⟨op, spec⟩ := t
  have hproject : op ≠ "$project" := of_decide_eq_false hprojects
  by_cases hadd : op = "$addFields" ∨ op = "$set"
  · cases spec with
    | keyed es =>
      rw [stageDefinitions, if_pos (by tauto)] at h
      exact .added hadd (hasField_of_mem_definitions h)
    | _ =>
      rw [stageDefinitions_of_not_keyed (by simp)] at h
      cases h
  · rw [stageDefinitions, if_neg (by tauto)] at h
    dsimp only at h
    split at h
    · rename_i hgroup
      obtain rfl : op = "$group" := hgroup
      cases spec with
      | keyed es => exact defines_group h
      | _ => cases h
    split at h
    · rename_i hroot
      obtain rfl : op = "$replaceRoot" := hroot
      split at h
      · rename_i root hfind
        obtain ⟨fields, rfl, hdoc, hfield⟩ := hasField_of_mem_rootDefinitions h
        exact .newRoot hfind hdoc hfield
      · cases h
    split at h
    · rename_i hroot
      obtain rfl : op = "$replaceWith" := hroot
      obtain ⟨fields, rfl, hdoc, hfield⟩ := hasField_of_mem_rootDefinitions h
      exact .replaced hdoc hfield
    · cases h

/-- The last definition of a name, if there is one. -/
theorem last_definition (name : String) (ds : List (String × Expression)) :
    (∀ d ∈ ds, name ≠ d.1) ∨
      ∃ earlier e later, ds = earlier ++ (name, e) :: later ∧ ∀ d ∈ later, name ≠ d.1 := by
  induction ds with
  | nil => exact Or.inl (by simp)
  | cons d ds ih =>
    rcases ih with hnone | ⟨earlier, e, later, rfl, hlater⟩
    · by_cases hd : name = d.1
      · exact Or.inr ⟨[], d.2, ds, by rw [hd]; rfl, hnone⟩
      · exact Or.inl (List.forall_mem_cons.mpr ⟨hd, hnone⟩)
    · exact Or.inr ⟨d :: earlier, e, later, rfl, hlater⟩

/-- The last definition of the name yields a date, judged by the set that those before it left. -/
def DefinedAsDate (index : Nat) (t : Stage) (f : DateFields) (name : String) : Prop :=
  ∃ earlier e later, Defines t name e ∧ stageDefinitions t = earlier ++ (name, e) :: later ∧
    (∀ d ∈ later, name ≠ d.1) ∧
    yieldsDate (earlier.foldl (judge false (sourceText index t.operator)) f).contains e = true

variable {index : Nat} {f : DateFields}

/-- A field that a stage defines is in the set after it as a date, or because the stage passed it over
as a document and it was in the set before. -/
theorem Defines.contains_propagate {t : Stage} (h : Defines t name e)
    (hafter : (propagate index t f).contains name = true) :
    DefinedAsDate index t f name ∨
      (e.isDocument = true ∧ (name, e) ∉ stageDefinitions t ∧ f.contains name = true) := by
  have hunset : t.operator ≠ "$unset" := by
    cases h with
    | added op_eq field => rcases op_eq with rfl | rfl <;> simp
    | _ => simp
  rw [propagate_eq_foldl hunset, h.projects] at hafter
  rcases last_definition name (stageDefinitions t) with hnone | ⟨earlier, e', later, hds, hlater⟩
  · rw [contains_foldl_judge_of_not_mem hnone] at hafter
    have hpassed : (name, e) ∉ stageDefinitions t := fun hmem => hnone _ hmem rfl
    refine Or.inr ⟨?_, hpassed, hafter⟩
    by_contra hleaf
    exact hpassed (h.mem_stageDefinitions (Bool.eq_false_iff.mpr hleaf))
  · rw [hds, contains_foldl_judge (d := (name, e')) rfl hlater] at hafter
    have hmem : (name, e') ∈ stageDefinitions t := by
      rw [hds]
      exact List.mem_append_right _ List.mem_cons_self
    exact Or.inl ⟨earlier, e', later, defines_of_mem_stageDefinitions h.projects hmem, hds, hlater,
      hafter⟩

theorem contains_settleAll {source : String} {verdicts : List (String × Option Bool)}
    (h : (f.settleAll source verdicts).contains name = true) :
    (name, some true) ∈ verdicts ∨ f.contains name = true := by
  induction verdicts generalizing f with
  | nil => exact Or.inr h
  | cons v verdicts ih =>
    rcases ih h with hmem | hthere
    · exact Or.inl (List.mem_cons_of_mem v hmem)
    · obtain ⟨n, verdict⟩ := v
      by_cases hn : name = n
      · subst hn
        rcases verdict with - | - | -
        · exact Or.inr hthere
        · rw [DateFields.contains_settle] at hthere
          cases hthere
        · exact Or.inl List.mem_cons_self
      · rw [DateFields.contains_settle_of_ne hn] at hthere
        exact Or.inr hthere

/-- A name is in the set after a stage because the stage introduced it or because it was there. -/
theorem contains_propagate {s : Stage} (h : (propagate index s f).contains name = true) :
    Introduces index s f name ∨ f.contains name = true := by
  rw [propagate_eq_settleAll] at h
  exact (contains_settleAll h).imp_left introduces_of_verdict

variable {force : Bool} {p : Progress}

theorem contains_healStages {vs : List Value}
    (h : (healStages force index p vs).1.fields.contains name = true) :
    p.fields.contains name = true ∨ ∃ i before s, Reaches force index p vs i before s ∧
      Introduces (index + i) (healStage before.fields.contains force s) before.fields name := by
  induction vs generalizing index p with
  | nil => exact Or.inl h
  | cons v vs ih =>
    cases ht : Stage.ofValue index v with
    | error m =>
      rw [healStages_cons_of_error ht] at h
      exact Or.inl h
    | ok t =>
      rw [healStages_cons_of_ok ht] at h
      rcases ih h with hthere | ⟨i, before, s, hreaches, hintroduces⟩
      · rcases contains_propagate hthere with hintroduces | hthere
        · exact Or.inr ⟨0, p, t, reaches_zero_iff.mpr ⟨ht, rfl⟩, hintroduces⟩
        · exact Or.inl hthere
      · rw [Nat.add_assoc, Nat.add_comm 1] at hintroduces
        exact Or.inr ⟨i + 1, before, s, reaches_succ_iff.mpr ⟨t, ht, hreaches⟩, hintroduces⟩

/-- A field that a stage defines is a date after the stage only if its last definition yields one, or
if it is a document that the stage takes apart and was a date before. Documents make no dates: a name
that is in the set after a run was there when the run began, or a stage that the run came to defined
it by an expression that yields a date. -/
theorem tracked_field_defined_as_date (forced : List String) (collection : String) (p : Progress)
    (vs : List Value) :
    (∀ i before s, Reaches (forced.contains collection) 0 p vs i before s →
      let t := healStage before.fields.contains (forced.contains collection) s
      let after := (healPipeline forced p collection (.list (vs.take (i + 1)))).1.fields
      ∀ name e, Defines t name e → after.contains name = true →
        DefinedAsDate i t before.fields name ∨
          (e.isDocument = true ∧ (name, e) ∉ stageDefinitions t ∧
            before.fields.contains name = true)) ∧
    (∀ name, (healPipeline forced p collection (.list vs)).1.fields.contains name = true →
      p.fields.contains name = true ∨
        ∃ i before s, Reaches (forced.contains collection) 0 p vs i before s ∧
          Introduces i (healStage before.fields.contains (forced.contains collection) s)
            before.fields name) := by
  refine ⟨fun i before s hreaches => ?_, fun name hname => ?_⟩
  · intro t after name e hdefines hafter
    have hfields : after = propagate i t before.fields := by
      have htake := hreaches.fields_take_succ
      rwa [Nat.zero_add] at htake
    rw [hfields] at hafter
    exact hdefines.contains_propagate hafter
  · rcases contains_healStages hname with hstart | ⟨i, before, s, hreaches, hintroduces⟩
    · exact Or.inl hstart
    · rw [Nat.zero_add] at hintroduces
      exact Or.inr ⟨i, before, s, hreaches, hintroduces⟩

private def ordered : Progress := .start (.ofNames ["orderDate"] none)

private def groupedBy (key : Expression) : Stage := ⟨"$group", .keyed [("_id", key)]⟩

private def monthOf (date : String) : Expression :=
  .keyed [("month", .keyed [("$month", .fieldRef date)])]

private theorem ofValue_groupedBy_month (index : Int) (date : String)
    (h : fieldPath? ("$" ++ date) = some date) :
    Stage.ofValue index (groupedBy (monthOf date)).toValue = .ok (groupedBy (monthOf date)) := by
  have hmonth : Canonical (monthOf date) :=
    canonical_call (by decide) (canonical_call (by decide) (.fieldRef h))
  have hspec : Canonical (.keyed [("_id", monthOf date)]) := canonical_call (by decide) hmonth
  exact Stage.ofValue_toValue_call (by decide) (by decide) hspec index

theorem tracked_field_defined_as_date_month :
    Reaches false 0 ordered [(groupedBy (monthOf "orderDate")).toValue] 0 ordered
      (groupedBy (monthOf "orderDate")) ∧
    Defines (groupedBy (monthOf "orderDate")) "_id" (monthOf "orderDate") ∧
    (healPipeline [] ordered "orders"
      (.list [(groupedBy (monthOf "orderDate")).toValue])).1.fields.contains "_id" = false := by
  have hreaches : Reaches false 0 ordered [(groupedBy (monthOf "orderDate")).toValue] 0 ordered
      (groupedBy (monthOf "orderDate")) :=
    reaches_zero_iff.mpr ⟨ofValue_groupedBy_month _ _ (by decide), rfl⟩
  have hdefines : Defines (groupedBy (monthOf "orderDate")) "_id" (monthOf "orderDate") :=
    .grouped List.mem_cons_self
  refine ⟨hreaches, hdefines, ?_⟩
  rw [Bool.eq_false_iff]
  intro hafter
  rcases (tracked_field_defined_as_date [] "orders" ordered _).1 0 ordered _ hreaches "_id" _
    hdefines hafter with ⟨earlier, e, later, -, hds, -⟩ | ⟨-, -, hbefore⟩
  · -- The stage settles the month of its key and nothing else.
    have hmem : ("_id", e) ∈ earlier ++ ("_id", e) :: later :=
      List.mem_append_right _ List.mem_cons_self
    rw [← hds] at hmem
    have hname : "_id" ∈ (stageDefinitions (healStage ordered.fields.contains false
        (groupedBy (monthOf "orderDate")))).map Prod.fst := List.mem_map_of_mem hmem
    exact absurd hname (by decide)
  · exact absurd hbefore (by decide)

/-- A key that was a date stays one when the orders are grouped by a document. -/
theorem regrouped_key_stays_date :
    ∃ before, Reaches false 0 ordered
        [(groupedBy (.fieldRef "orderDate")).toValue, (groupedBy (monthOf "_id")).toValue] 1 before
        (groupedBy (monthOf "_id")) ∧
      Defines (healStage before.fields.contains false (groupedBy (monthOf "_id"))) "_id"
        (monthOf "_id") ∧
      (monthOf "_id").isDocument = true ∧ yieldsDate before.fields.contains (monthOf "_id") = false ∧
      (healPipeline [] ordered "orders" (.list [(groupedBy (.fieldRef "orderDate")).toValue,
        (groupedBy (monthOf "_id")).toValue])).1.fields.contains "_id" = true := by
  have hread : Stage.ofValue ((0 : Nat) : Int) (groupedBy (.fieldRef "orderDate")).toValue =
      .ok (groupedBy (.fieldRef "orderDate")) :=
    Stage.ofValue_toValue (by decide) (by decide) _
  refine ⟨(ordered.step false 0 (groupedBy (.fieldRef "orderDate"))).1, ?_, ?_, rfl, rfl, ?_⟩
  · exact reaches_succ_iff.mpr ⟨_, hread,
      reaches_zero_iff.mpr ⟨ofValue_groupedBy_month _ _ (by decide), rfl⟩⟩
  · exact .grouped List.mem_cons_self
  · decide +kernel

end Inquiry.Dates
