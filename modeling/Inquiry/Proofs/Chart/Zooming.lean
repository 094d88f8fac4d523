import Inquiry.Proofs.Chart.Roles
import Inquiry.Proofs.Decimal.Percent
import Inquiry.Proofs.Value.Entries

/-!
# The zoom of a chart

Rows of JSON can always be drawn, and a zoom stands where there are more categories than the threshold
allows: it starts at zero and ends at a hundred percent at most. Only a threshold below zero lets a
zoom come up where no category is left to divide by.
-/
namespace Inquiry.Chart

open Value (IsJson)

variable {threshold : Int} {data rows : List Value} {layout : Layout} {zoom : Option Zoom}

theorem badKey?_of_isJson {v : Value} (h : v.IsJson) : Json.badKey? v = none := by
  induction h with
  | list items ih => exact Json.badKey?_list_iff.mpr ih
  | dict keys members ih =>
    refine Json.badKey?_dict_iff.mpr fun e he => ⟨?_, ih e he⟩
    obtain ⟨key, hkey⟩ := keys e he
    rw [hkey]
    rfl
  | _ => rfl

theorem isRow_of_isJson {row : Value} (h : row.IsJson) (hdict : row.isDict = true) : IsRow row := by
  match row, hdict with
  | .dict es, _ => exact Value.exists_doc_of_textKeys h.keys

theorem percentOf_bounds {part : Float} (h : part.toModel.unpack.Unsigned) :
    0.0 ≤ percentOf part ∧ percentOf part ≤ 100.0 := by
  have hproduct : (part * 100.0).toModel.unpack.Unsigned := by
    have hhundred : (100.0 : Float).toModel.unpack.Unsigned := rfl
    exact (h.mul hhundred).unpack_pack
  unfold percentOf
  dsimp only
  split_ifs with hlt
  · obtain ⟨b, hb, hpart⟩ := Decimal.exists_isPart hproduct hlt
    exact Decimal.roundTo_two_le_hundred hb hpart
  · obtain ⟨b, hb, hpart⟩ := Decimal.exists_isPart_hundred
    exact Decimal.roundTo_two_le_hundred hb hpart

theorem zoomFinish_bounds {count : Nat} {finish : Float} (hthreshold : 0 ≤ threshold)
    (h : zoomFinish threshold count = .ok finish) : 0.0 ≤ finish ∧ finish ≤ 100.0 := by
  unfold zoomFinish at h
  split at h
  · cases h
  · rename_i hcount
    split at h
    · rename_i part hpart
      obtain rfl := Except.ok.inj h
      exact percentOf_bounds (Decimal.unsigned_nearest? hthreshold (by omega) hpart)
    · cases h

theorem zoomFor_isSome_iff (h : zoomFor layout data threshold = .ok zoom) :
    zoom.isSome = true ↔
      (categoryDirection? layout).isSome = true ∧ threshold < distinctCount data := by
  rcases zoomFor_cases h with ⟨rfl, hnone | hfew⟩ | ⟨direction, finish, hdirection, hmany, -, rfl⟩
  · simp [hnone]
  · simp [hfew]
  · simp [hdirection, hmany]

theorem zoomFor_bounds {z : Zoom} (hthreshold : 0 ≤ threshold)
    (h : zoomFor layout data threshold = .ok (some z)) : 0.0 ≤ z.finish ∧ z.finish ≤ 100.0 := by
  rcases zoomFor_cases h with ⟨hnone, -⟩ | ⟨direction, finish, -, -, hfinish, hz⟩
  · cases hnone
  · obtain rfl := Option.some.inj hz
    exact zoomFinish_bounds hthreshold hfinish

/-- A zoom stands along the categories if more of them differ than the threshold allows, and shows a
part of the whole from its start on. -/
structure ZoomFits (threshold : Int) (rows : List Value) (c : Chart) : Prop where
  shown_iff : ∃ data, ListsCategory c.category rows (some data) ∧
    (c.zoom.isSome = true ↔
      (categoryDirection? c.layout).isSome = true ∧ threshold < distinctCount data)
  range : ∀ z ∈ c.zoom, z.toValue.get? "start" = some (.float 0.0) ∧
    z.toValue.get? "end" = some (.float z.finish) ∧ 0.0 ≤ z.finish ∧ z.finish ≤ 100.0

theorem zoom_range (z : Zoom) : z.toValue.get? "start" = some (.float 0.0) ∧
    z.toValue.get? "end" = some (.float z.finish) := by
  obtain ⟨axis, finish⟩ := z
  cases axis <;> exact ⟨rfl, rfl⟩

theorem zoomFits_of_build {hint : Hint} {result first : Value} {interpretation : Option String}
    {c : Chart} (hthreshold : 0 ≤ threshold)
    (h : build threshold hint result first rows interpretation = .ok c) :
    ZoomFits threshold rows c := by
  obtain ⟨-, zoom, source, hzoom, -, rfl⟩ := build_ok_iff.mp h
  refine ⟨⟨_, listsCategory_data _ rows, zoomFor_isSome_iff hzoom⟩, fun z hz => ?_⟩
  obtain rfl : zoom = some z := hz
  obtain ⟨hstart, hend⟩ := zoom_range z
  exact ⟨hstart, hend, zoomFor_bounds hthreshold hzoom⟩

private def idOnly : Value := .doc [("_id", .int 1)]

private theorem isJson_of_mem_idOnly : ∀ row ∈ [idOnly], row.IsJson ∧ row.isDict = true := by
  intro row hrow
  rw [List.mem_singleton.mp hrow]
  exact ⟨.dict (by simp [Value.TextKeys]) (by simp [IsJson.int]), rfl⟩

/-- Without a category there is nothing to divide by, and a threshold below zero is exceeded by
nothing. -/
theorem ofResult_idOnly (h : threshold < 0) :
    ofResult threshold none (.list [idOnly]) none true = .error (.defect .divisionByZero) := by
  have hzoom : zoomFor .vertical [] threshold = .error (.defect .divisionByZero) := by
    have hcount : ¬ ((distinctCount [] : Nat) : Int) ≤ threshold := by
      change ¬ (0 : Int) ≤ threshold
      omega
    unfold zoomFor
    dsimp only [categoryDirection?]
    rw [Json.badKey?_list_iff.mpr (by simp)]
    dsimp only
    rw [if_neg hcount]
    rfl
  have hclear : obstacle? Hint.default idOnly [idOnly] = none :=
    obstacle?_rows fun row hrow => ⟨_, List.mem_singleton.mp hrow⟩
  have hlayout : (Roles.decideFrom Hint.default idOnly).layout = .vertical := rfl
  have hdata : (Roles.decideFrom Hint.default idOnly).categoryData [idOnly] = [] := rfl
  have hbuild : build threshold Hint.default (.list [idOnly]) idOnly [idOnly] none =
      .error (.defect .divisionByZero) := by
    unfold build
    rw [hclear]
    dsimp only
    rw [hlayout, hdata, hzoom]
  rw [ofResult_list, Option.getD_none, hbuild]
  rfl

/-- Every hint and every list of JSON rows give a chart with a zoom that fits, just if the threshold is
not below zero. -/
theorem zoom_fits_iff (threshold : Int) :
    (∀ (hint : Option Hint) (rows : List Value) (interpretation : Option String), rows ≠ [] →
      (∀ row ∈ rows, row.IsJson ∧ row.isDict = true) →
      ∃ c, ofResult threshold hint (.list rows) interpretation true = .ok (some c) ∧
        ZoomFits threshold rows c) ↔ 0 ≤ threshold := by
  constructor
  · intro hall
    by_contra hnegative
    obtain ⟨c, hc, -⟩ := hall none [idOnly] none (List.cons_ne_nil _ _) isJson_of_mem_idOnly
    rw [ofResult_idOnly (by omega)] at hc
    cases hc
  · intro hthreshold hint rows interpretation hne hrows
    obtain ⟨first, rest, rfl⟩ := List.exists_cons_of_ne_nil hne
    have hdocs : ∀ row ∈ first :: rest, IsRow row := fun row hrow =>
      isRow_of_isJson (hrows row hrow).1 (hrows row hrow).2
    have hkeys : ∀ row ∈ first :: rest, Json.badKey? row = none := fun row hrow =>
      badKey?_of_isJson (hrows row hrow).1
    obtain ⟨c, hbuild, -⟩ := build_rows hthreshold hdocs hkeys
    refine ⟨c, ?_, zoomFits_of_build hthreshold hbuild⟩
    rw [ofResult_list, hbuild]
    rfl

/-- There is no chart of rows without a category, though nothing is wrong with them. -/
theorem no_chart_without_categories : (∀ row ∈ [idOnly], row.IsJson ∧ row.isDict = true) ∧
    ofResult (-1) none (.list [idOnly]) none true = .error (.defect .divisionByZero) :=
  ⟨isJson_of_mem_idOnly, ofResult_idOnly (by decide)⟩

end Inquiry.Chart
