import Mathlib.Data.List.Perm.Subperm
import Inquiry.Chart.Drawing
import Inquiry.Proofs.Value.Documents

/-!
# Documents can be drawn

What a chart that was built is made of, and why nothing stands in the way of one when the rows are
documents: every dimension can be looked for in them, and the zoom, which is shown only for more
categories than the threshold allows, is a part of a whole.
-/
namespace Inquiry.Chart

variable {threshold : Int} {hint : Hint} {result first : Value} {rows : List Value}
  {interpretation : Option String} {c : Chart}

/-- What a chart is assembled from. -/
structure Source (threshold : Int) (hint : Hint) (result first : Value) (rows : List Value)
    (interpretation : Option String) (c : Chart) : Prop where
  clear : obstacle? hint first rows = none
  assembled : ∃ zoom source,
    zoomFor (Roles.decideFrom hint first).layout
        ((Roles.decideFrom hint first).categoryData rows) threshold = .ok zoom ∧
      sourceRows result = .ok source ∧
      c = assemble hint (Roles.decideFrom hint first)
        ((Roles.decideFrom hint first).categoryData rows) source zoom interpretation

theorem build_ok_iff : build threshold hint result first rows interpretation = .ok c ↔
    Source threshold hint result first rows interpretation c := by
  unfold build
  constructor
  · intro h
    cases hclear : obstacle? hint first rows with
    | some d =>
      rw [hclear] at h
      cases h
    | none =>
      rw [hclear] at h
      dsimp only at h
      split at h
      · cases h
      · rename_i zoom hzoom
        split at h
        · cases h
        · rename_i source hsource
          exact ⟨hclear, zoom, source, hzoom, hsource, (Except.ok.inj h).symm⟩
  · rintro ⟨hclear, zoom, source, hzoom, hsource, rfl⟩
    rw [hclear]
    dsimp only
    rw [hzoom, hsource]

/-- A recommended chart of some rows is built from the hint, or from the one that stands in for it. -/
theorem ofResult_list (first : Value) (rest : List Value) (hint : Option Hint) :
    ofResult threshold hint (.list (first :: rest)) interpretation true =
      (build threshold (hint.getD Hint.default) (.list (first :: rest)) first (first :: rest)
        interpretation).map some := rfl

def IsRow (row : Value) : Prop := ∃ es : List (String × Value), row = .doc es

theorem partDefect?_dict (es : List (Value × Value)) (name : String) :
    partDefect? (.dict es) (.str name) = none := by
  have hfound := Rows.defect?_dict es name
  rw [Rows.defect?] at hfound
  rw [partDefect?]
  cases hlookup : Rows.lookup (.dict es) (.str name) with
  | error d =>
    rw [hlookup] at hfound
    cases hfound
  | ok v => cases v <;> rfl

/-- The dimensions are texts, whether they are asked for or taken from the row. -/
theorem askedParts_row {row : Value} (h : IsRow row) :
    ∃ names : List String, askedParts hint row = .ok (names.map .str) := by
  obtain ⟨es, rfl⟩ := h
  unfold askedParts
  split
  · refine ⟨(es.map (·.1)).filter fun name => !(Value.str name).same (.str "_id"), ?_⟩
    rw [Value.doc, Rows.parts, Except.map, List.map_map]
    have hkeys : es.map ((fun e : Value × Value => e.1) ∘ fun f => (Value.str f.1, f.2)) =
        (es.map (·.1)).map .str := by
      rw [List.map_map]
      rfl
    rw [hkeys, List.filter_map]
    rfl
  · exact ⟨hint.dimensions, rfl⟩

theorem droppedDefect?_texts (names : List String) (index : Nat) :
    droppedDefect? index (names.map .str) = none := by
  induction names generalizing index with
  | nil => rfl
  | cons name names ih => exact ih (index + 1)

theorem dimensionDefect?_row {row : Value} (h : IsRow row) : dimensionDefect? hint row = none := by
  obtain ⟨names, hnames⟩ := @askedParts_row hint row h
  obtain ⟨es, rfl⟩ := h
  rw [dimensionDefect?, hnames]
  dsimp only
  rw [← List.map_take, ← List.map_drop, droppedDefect?_texts, Option.or_none, Option.or_eq_none_iff,
    List.findSome?_eq_none_iff, List.findSome?_eq_none_iff]
  constructor
  · intro part hpart
    obtain ⟨name, -, rfl⟩ := List.mem_map.mp hpart
    exact partDefect?_dict _ name
  · intro part hpart
    obtain ⟨name, -, rfl⟩ := List.mem_map.mp hpart
    rfl

theorem obstacle?_rows {rest : List Value} (h : ∀ row ∈ first :: rest, IsRow row) :
    obstacle? hint first (first :: rest) = none := by
  rw [obstacle?, dimensionDefect?_row (h first List.mem_cons_self), Option.none_or, dataDefect?,
    Option.bind_eq_none_iff]
  intro c _
  rw [List.findSome?_eq_none_iff]
  intro row hrow
  obtain ⟨es, rfl⟩ := h row hrow
  exact Rows.defect?_dict _ c

theorem sourceRows_rows (h : ∀ row ∈ rows, IsRow row) : sourceRows (.list rows) = .ok rows := by
  have hkeys : ∀ row ∈ rows, ∃ es, row = .dict es ∧ Value.TextKeys es := by
    intro row hrow
    obtain ⟨fields, rfl⟩ := h row hrow
    exact ⟨_, rfl, Value.textKeys_doc fields⟩
  rw [sourceRows, Shape.list_document_eq hkeys]
  rfl

theorem log2_mono {m n : Nat} (h : m ≤ n) : m.log2 ≤ n.log2 := by
  by_cases hm : m = 0
  · rw [hm]
    exact Nat.zero_le _
  · have hn : n < 2 ^ (n.log2 + 1) := Nat.lt_log2_self
    have hlt : m.log2 < n.log2 + 1 := (Nat.log2_lt hm).mpr (Nat.lt_of_le_of_lt h hn)
    omega

/-- A part of a whole is no larger than a double can be. -/
theorem nearest?_part {num : Int} {den : Nat} (hnum : 0 ≤ num) (hlt : num < den) :
    ∃ x, Decimal.nearest? num den = some x := by
  unfold Decimal.nearest?
  by_cases hzero : num = 0
  · exact ⟨0.0, if_pos hzero⟩
  · rw [if_neg hzero]
    have hlog : num.natAbs.log2 ≤ den.log2 := log2_mono (by omega)
    have hexponent : Decimal.mantissaExponent num.natAbs den ≤ -52 := by
      unfold Decimal.mantissaExponent
      dsimp only
      split <;> omega
    generalize Decimal.mantissaExponent num.natAbs den = e at hexponent
    dsimp only
    split
    · rename_i hcarry
      rw [if_neg (by dsimp only; omega)]
      exact ⟨_, rfl⟩
    · rw [if_neg (by dsimp only; omega)]
      exact ⟨_, rfl⟩

theorem nodup_eraseDups (l : List String) : l.eraseDups.Nodup := by
  induction hlength : l.length using Nat.strongRecOn generalizing l with
  | ind n ih =>
    subst hlength
    cases l with
    | nil => exact List.nodup_nil
    | cons s l =>
      have hshorter := List.length_filter_le (fun t => !t == s) l
      rw [List.eraseDups_cons, List.nodup_cons]
      exact ⟨by simp, ih _ (Nat.lt_succ_of_le hshorter) _ rfl⟩

theorem distinctCount_le (values : List Value) : distinctCount values ≤ values.length := by
  have hsome : (values.map Json.compact).eraseDups ⊆ values.map Json.compact :=
    fun s hs => List.mem_eraseDups.mp hs
  have hcount := ((nodup_eraseDups _).subperm hsome).length_le
  rwa [List.length_map] at hcount

theorem zoomFor_ok {layout : Layout} {data : List Value} (hthreshold : 0 ≤ threshold)
    (hkeys : ∀ v ∈ data, Json.badKey? v = none) :
    ∃ zoom, zoomFor layout data threshold = .ok zoom := by
  unfold zoomFor
  cases categoryDirection? layout with
  | none => exact ⟨none, rfl⟩
  | some direction =>
    dsimp only
    rw [Json.badKey?_list_iff.mpr hkeys]
    dsimp only
    by_cases hfew : (distinctCount data : Int) ≤ threshold
    · exact ⟨none, if_pos hfew⟩
    · rw [if_neg hfew]
      have hcount := distinctCount_le data
      obtain ⟨part, hpart⟩ := @nearest?_part threshold data.length hthreshold (by omega)
      rw [zoomFinish, if_neg (by omega), hpart]
      exact ⟨_, rfl⟩

theorem badKey?_categoryData (r : Roles) (h : ∀ row ∈ rows, Json.badKey? row = none) :
    ∀ v ∈ r.categoryData rows, Json.badKey? v = none := by
  intro v hv
  unfold Roles.categoryData at hv
  split at hv
  · split at hv
    · cases hv
    · obtain ⟨row, hrow, rfl⟩ := List.mem_map.mp hv
      exact Json.badKey?_nested (h row hrow)
  · cases hv

/-- Nothing but the zoom stands between documents and their chart. -/
theorem build_of_rows {rest : List Value} (hrows : ∀ row ∈ first :: rest, IsRow row) :
    build threshold hint (.list (first :: rest)) first (first :: rest) interpretation =
      (zoomFor (Roles.decideFrom hint first).layout
        ((Roles.decideFrom hint first).categoryData (first :: rest)) threshold).map fun zoom =>
          assemble hint (Roles.decideFrom hint first)
            ((Roles.decideFrom hint first).categoryData (first :: rest)) (first :: rest) zoom
            interpretation := by
  rw [build, obstacle?_rows hrows]
  dsimp only
  split
  · rename_i f hzoom
    rw [hzoom]
    rfl
  · rename_i zoom hzoom
    rw [sourceRows_rows hrows, hzoom]
    rfl

/-- Documents that JSON has a form for can be drawn, with the rows as they are. -/
theorem build_rows {rest : List Value} (hthreshold : 0 ≤ threshold)
    (hrows : ∀ row ∈ first :: rest, IsRow row)
    (hkeys : ∀ row ∈ first :: rest, Json.badKey? row = none) :
    ∃ c, build threshold hint (.list (first :: rest)) first (first :: rest) interpretation =
      .ok c ∧ c.rows = first :: rest := by
  obtain ⟨zoom, hzoom⟩ := @zoomFor_ok threshold (Roles.decideFrom hint first).layout _ hthreshold
    (badKey?_categoryData (Roles.decideFrom hint first) hkeys)
  rw [build_of_rows hrows, hzoom]
  exact ⟨_, rfl, rfl⟩

end Inquiry.Chart
