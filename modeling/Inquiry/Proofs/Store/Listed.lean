import Inquiry.Proofs.Recommendation.Slots
import Inquiry.Proofs.Service.Runs

/-!
# Which collections are offered

Schemas are read of collections that the store lists and that are not the system's, and when names are
requested, of those among them. Each schema is the one that its collection is described by.
-/
namespace Inquiry.Store

open Traced

variable {db : Database} {requested : Value} {name : String}

/-- A collection that a question may use. -/
structure Offered (db : Database) (requested : Value) (name : String) : Prop where
  /-- The store lists it. -/
  listed : ∃ names, db.names = .ok names ∧ name ∈ names
  /-- It is not the system's. -/
  user : isSystem name = false
  /-- It is requested, unless everything is. -/
  requested : requested.isNull = false → ∃ parts, Rows.parts requested = .ok parts ∧ .str name ∈ parts

theorem metadataFault_result {α : Type} (action : String) (collection : Option String)
    (f : Failure) : ∃ e, (metadataFault action collection f : Traced α).result = .error e := by
  cases f <;> exact ⟨_, rfl⟩

theorem collections_ok {available : List String} (h : (collections db).result = .ok available) :
    ∃ names, db.names = .ok names ∧
      ∀ name ∈ available, name ∈ names ∧ isSystem name = false := by
  unfold collections at h
  cases hnames : db.names with
  | error f =>
    rw [hnames] at h
    obtain ⟨e, he⟩ := metadataFault_result (α := List String) "listing collections" none f
    cases he.symm.trans h
  | ok names =>
    rw [hnames] at h
    cases h
    refine ⟨names, rfl, fun name hname => ?_⟩
    simpa using (List.mem_filter.mp (List.mem_mergeSort.mp hname))

theorem describeAll_ok {names : List String} {schemas : Schemas}
    (h : (describeAll db names).result = .ok schemas) :
    ∀ entry ∈ schemas, entry.1 ∈ names ∧ (describe db entry.1).result = .ok entry.2 := by
  induction names generalizing schemas with
  | nil =>
    cases h
    simp
  | cons name names ih =>
    obtain ⟨schema, hschema, hrest⟩ := bind_result_ok_iff.mp h
    obtain ⟨rest, hothers, hdone⟩ := bind_result_ok_iff.mp hrest
    cases hdone
    refine List.forall_mem_cons.mpr ⟨⟨List.mem_cons_self, hschema⟩, fun entry hentry => ?_⟩
    obtain ⟨hmem, hdescribe⟩ := ih hothers entry hentry
    exact ⟨List.mem_cons_of_mem name hmem, hdescribe⟩

theorem mapM_asKey_ok {parts keys : List Value} (h : parts.mapM Rows.asKey = .ok keys) :
    keys = parts := by
  induction parts generalizing keys with
  | nil =>
    cases h
    rfl
  | cons v parts ih =>
    rw [List.mapM_cons] at h
    obtain ⟨w, hv, hrest⟩ := bind_eq_ok_iff.mp h
    obtain ⟨ws, hparts, hdone⟩ := bind_eq_ok_iff.mp hrest
    cases hdone
    rw [Recommendation.Cache.eq_of_asKey hv, ih hparts]

theorem mem_of_mem_distinct {keys kept : List Value} {v : Value}
    (h : v ∈ keys.foldl (fun kept v => if kept.any (·.same v) then kept else kept ++ [v]) kept) :
    v ∈ kept ∨ v ∈ keys := by
  induction keys generalizing kept with
  | nil => exact Or.inl h
  | cons key keys ih =>
    rw [List.foldl_cons] at h
    rcases ih h with h | h
    · split at h
      · exact Or.inl h
      · rcases List.mem_append.mp h with h | h
        · exact Or.inl h
        · exact Or.inr (List.mem_cons.mpr (Or.inl (List.mem_singleton.mp h)))
    · exact Or.inr (List.mem_cons_of_mem key h)

/-- What is asked for is among the parts of the request. -/
theorem distinctNames_ok {names : List Value} (h : distinctNames requested = .ok names) :
    ∃ parts, Rows.parts requested = .ok parts ∧ ∀ v ∈ names, v ∈ parts := by
  unfold distinctNames at h
  obtain ⟨parts, hparts, hrest⟩ := bind_eq_ok_iff.mp h
  obtain ⟨keys, hkeys, hdone⟩ := bind_eq_ok_iff.mp hrest
  cases hdone
  obtain rfl := mapM_asKey_ok hkeys
  refine ⟨keys, hparts, fun v hv => ?_⟩
  exact (mem_of_mem_distinct hv).resolve_left List.not_mem_nil

theorem mem_foundNames {available : List String} {names : List Value}
    (h : name ∈ foundNames available names) : name ∈ available ∧ .str name ∈ names := by
  obtain ⟨hname, havailable⟩ := List.mem_filter.mp h
  obtain ⟨v, hv, hstr⟩ := List.mem_filterMap.mp hname
  refine ⟨by simpa using havailable, ?_⟩
  cases v with
  | str s =>
    cases hstr
    exact hv
  | _ => cases hstr

theorem schemasOf_ok {available : List String} {names : List Value} {schemas : Schemas}
    (h : (schemasOf db available names).result = .ok schemas) :
    ∀ entry ∈ schemas, entry.1 ∈ available ∧ .str entry.1 ∈ names ∧
      (describe db entry.1).result = .ok entry.2 := by
  obtain ⟨_, -, h⟩ := bind_result_ok_iff.mp h
  split at h
  · cases h
  · intro entry hentry
    obtain ⟨hfound, hdescribe⟩ := describeAll_ok h entry hentry
    obtain ⟨havailable, hname⟩ := mem_foundNames hfound
    exact ⟨havailable, hname, hdescribe⟩

/-- Every schema that is read is that of a collection on offer. -/
theorem schemas_ok {read : Schemas} (h : (schemas db requested).result = .ok read) :
    ∀ entry ∈ read, Offered db requested entry.1 ∧
      (describe db entry.1).result = .ok entry.2 := by
  obtain ⟨available, havailable, h⟩ := bind_result_ok_iff.mp h
  obtain ⟨names, hnames, hlisted⟩ := collections_ok havailable
  intro entry hentry
  split at h
  · rename_i hnull
    split at h
    · cases h
    · obtain ⟨hmem, hdescribe⟩ := describeAll_ok h entry hentry
      obtain ⟨hlist, huser⟩ := hlisted entry.1 hmem
      refine ⟨⟨⟨names, hnames, hlist⟩, huser, fun hgiven => ?_⟩, hdescribe⟩
      rw [hnull] at hgiven
      cases hgiven
  · split at h
    · cases h
    · rename_i asked hasked
      obtain ⟨hmem, hname, hdescribe⟩ := schemasOf_ok h entry hentry
      obtain ⟨hlist, huser⟩ := hlisted entry.1 hmem
      obtain ⟨parts, hparts, hsub⟩ := distinctNames_ok hasked
      exact ⟨⟨⟨names, hnames, hlist⟩, huser, fun _ => ⟨parts, hparts, hsub _ hname⟩⟩, hdescribe⟩

end Inquiry.Store
