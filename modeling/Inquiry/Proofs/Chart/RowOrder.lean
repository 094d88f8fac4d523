import Mathlib.Data.List.Perm.Basic
import Inquiry.Proofs.Chart.Hinted
import Inquiry.Proofs.Chart.Zooming

/-!
# The order of rows

A hint that names dimensions gives the same chart for the same rows in any order, but for what follows
the rows one by one: they themselves and the data along the axis of the categories. The first row
counts only for the warnings about dimensions that it does not have.
-/
namespace Inquiry.Chart

variable {hint : Hint} {r : Roles} {threshold : Int} {interpretation : Option String}
  {first first' : Value} {rows rows' rest rest' data data' labels labels' : List Value}
  {layout : Layout} {zoom : Option Zoom}

/-- An axis without its data. -/
def Axis.bare (a : Axis) : Axis := { a with data := a.data.map fun _ => [] }

/-- A chart without its rows, their data and the warnings. -/
def skeleton (c : Chart) : Chart :=
  { c with
    axes := c.axes.map fun axes => (axes.1.bare, axes.2.bare)
    rows := []
    warnings := [] }

/-- The warnings about the dimensions that the first row does not have. -/
def missingWarnings (dimensions : List String) : List Value → List String
  | [] => []
  | first :: _ => (dimensions.filter (isMissing first)).map missingWarning

/-- A chart that lists rows in their order, with a warning for each dimension that the first one does
not have, and some others. -/
structure Lists (rows : List Value) (others : List String) (c : Chart) : Prop where
  source : c.rows = rows
  data : ∀ d, categoryDirection? c.layout = some d →
    ∃ axes, c.axes = some axes ∧ ListsCategory c.category rows (d.of axes).data
  warnings : c.warnings = missingWarnings c.dimensions rows ++ others

/-- Two outcomes for two lists of rows: the same fault, no chart, or one chart but for the rows. -/
inductive SameUpToOrder (rows rows' : List Value) :
    Except Fault (Option Chart) → Except Fault (Option Chart) → Prop
  | failed (f : Fault) : SameUpToOrder rows rows' (.error f) (.error f)
  | missing : SameUpToOrder rows rows' (.ok none) (.ok none)
  | drawn {c c' : Chart} {others : List String} (skeleton : c.skeleton = c'.skeleton)
      (h : Lists rows others c) (h' : Lists rows' others c') :
      SameUpToOrder rows rows' (.ok (some c)) (.ok (some c'))

theorem longestLabel_perm (h : labels.Perm labels') :
    longestLabel labels = longestLabel labels' := by
  refine h.foldl_eq' (fun v _ w _ n => ?_) 0
  omega

theorem distinctCount_perm (h : data.Perm data') : distinctCount data = distinctCount data' := by
  have htexts := h.map Json.compact
  have hdistinct := (List.perm_ext_iff_of_nodup (nodup_eraseDups (data.map Json.compact))
    (nodup_eraseDups (data'.map Json.compact))).mpr fun s => by
      rw [List.mem_eraseDups, List.mem_eraseDups, htexts.mem_iff]
  exact hdistinct.length_eq

theorem zoomFor_perm (hkeys : ∀ v ∈ data, Json.badKey? v = none) (h : data.Perm data') :
    zoomFor layout data threshold = zoomFor layout data' threshold := by
  have hkeys' : ∀ v ∈ data', Json.badKey? v = none := fun v hv => hkeys v (h.mem_iff.mpr hv)
  rw [zoomFor, zoomFor, Json.badKey?_list_iff.mpr hkeys, Json.badKey?_list_iff.mpr hkeys',
    distinctCount_perm h, h.length_eq]

/-- The first row has no part in the roles, its warnings apart, if the dimensions are named. -/
theorem decideFrom_of_dimensions (h : hint.dimensions ≠ []) (first first' : Value) :
    Roles.decideFrom hint first' = { Roles.decideFrom hint first with
      warnings := (Roles.decideFrom hint first').warnings } := by
  simp only [Roles.decideFrom, askedDimensions_of_named h]

theorem categoryData_perm (r : Roles) (h : rows.Perm rows') :
    (r.categoryData rows).Perm (r.categoryData rows') := by
  unfold Roles.categoryData
  split
  · split
    · exact .refl _
    · exact h.map _
  · exact .refl _

theorem axesFor_bare (h : longestLabel data = longestLabel data') :
    (axesFor r data).map (fun axes => (axes.1.bare, axes.2.bare)) =
      (axesFor r data').map fun axes => (axes.1.bare, axes.2.bare) := by
  unfold axesFor
  cases r.layout with
  | vertical => rw [h]; rfl
  | _ => rfl

theorem gridFor_eq (h : longestLabel data = longestLabel data') (zoomed : Bool) :
    gridFor layout data zoomed = gridFor layout data' zoomed := by
  cases layout with
  | vertical => rw [gridFor, gridFor, h]
  | _ => rfl

theorem skeleton_assemble {warnings : List String} {source source' : List Value}
    (h : longestLabel data = longestLabel data') :
    (assemble hint r data source zoom interpretation).skeleton =
      (assemble hint { r with warnings := warnings } data' source' zoom interpretation).skeleton := by
  have haxes : (axesFor r data).map (fun axes => (axes.1.bare, axes.2.bare)) =
      (axesFor { r with warnings := warnings } data').map fun axes =>
        (axes.1.bare, axes.2.bare) := axesFor_bare h
  have hgrid : gridFor r.layout data zoom.isSome = gridFor r.layout data' zoom.isSome :=
    gridFor_eq h _
  unfold skeleton assemble
  dsimp only
  rw [haxes, hgrid]
  rfl

/-- The warnings of a hint that do not hang on the rows. -/
def hintWarnings (hint : Hint) : List String :=
  (if maxDimensions < hint.dimensions.length then
    [excessWarning (hint.dimensions.drop maxDimensions)] else []) ++ axisWarnings hint

theorem warnings_decideFrom_of_dimensions (h : hint.dimensions ≠ []) (first : Value)
    (rest : List Value) :
    (Roles.decideFrom hint first).warnings =
      missingWarnings (Roles.decideFrom hint first).dimensions (first :: rest) ++
        hintWarnings hint := by
  rw [warnings_decideFrom, dimensions_decideFrom, askedDimensions_of_named h, missingWarnings,
    hintWarnings, dimensionWarnings, List.append_assoc]

theorem lists_assemble {others : List String}
    (h : r.warnings = missingWarnings r.dimensions rows ++ others) :
    Lists rows others (assemble hint r (r.categoryData rows) rows zoom interpretation) := by
  refine ⟨rfl, fun d hd => ?_, h⟩
  obtain ⟨axes, haxes, -, hdata, -⟩ := axesFor_along hd
  refine ⟨axes, haxes, ?_⟩
  rw [hdata]
  exact listsCategory_data r rows

theorem sameUpToOrder_build (h : hint.dimensions ≠ [])
    (hrows : ∀ row ∈ first :: rest, IsRow row)
    (hkeys : ∀ row ∈ first :: rest, Json.badKey? row = none)
    (hperm : (first :: rest).Perm (first' :: rest')) :
    SameUpToOrder (first :: rest) (first' :: rest')
      ((build threshold hint (.list (first :: rest)) first (first :: rest) interpretation).map some)
      ((build threshold hint (.list (first' :: rest')) first' (first' :: rest')
        interpretation).map some) := by
  have hrows' : ∀ row ∈ first' :: rest', IsRow row := fun row hrow =>
    hrows row (hperm.mem_iff.mpr hrow)
  have hwarnings := warnings_decideFrom_of_dimensions h first rest
  have hwarnings' := warnings_decideFrom_of_dimensions h first' rest'
  have hroles := decideFrom_of_dimensions h first first'
  rw [build_of_rows hrows, build_of_rows hrows']
  -- From here on all that counts of the two roles is that they differ in their warnings alone.
  generalize Roles.decideFrom hint first = r at *
  generalize Roles.decideFrom hint first' = r' at *
  have hlayout : r'.layout = r.layout := by rw [hroles]
  have hdata : (r.categoryData (first :: rest)).Perm (r'.categoryData (first' :: rest')) := by
    rw [hroles]
    exact categoryData_perm r hperm
  rw [hlayout, ← zoomFor_perm (badKey?_categoryData r hkeys) hdata]
  cases zoomFor r.layout (r.categoryData (first :: rest)) threshold with
  | error f => exact .failed f
  | ok zoom =>
    refine .drawn ?_ (lists_assemble hwarnings) (lists_assemble hwarnings')
    rw [hroles]
    exact skeleton_assemble (longestLabel_perm (hroles ▸ hdata))

/-- The same rows of JSON in another order give the same chart, but for the rows, their data and the
warnings about what the first row does not have. There is one for every threshold from zero on; below
zero, what keeps one order from a chart keeps the other one from it. -/
theorem chart_of_reordered_rows (threshold : Int) (hint : Hint) (interpretation : Option String)
    (recommended : Bool) (rows rows' : List Value) (hdimensions : hint.dimensions ≠ [])
    (hrows : ∀ row ∈ rows, row.IsJson ∧ row.isDict = true) (hperm : rows.Perm rows') :
    SameUpToOrder rows rows' (ofResult threshold (some hint) (.list rows) interpretation recommended)
        (ofResult threshold (some hint) (.list rows') interpretation recommended) ∧
      (recommended = true → rows ≠ [] → 0 ≤ threshold →
        ∃ c, ofResult threshold (some hint) (.list rows) interpretation recommended =
          .ok (some c)) := by
  have hdocs : ∀ row ∈ rows, IsRow row := fun row hrow =>
    isRow_of_isJson (hrows row hrow).1 (hrows row hrow).2
  have hkeys : ∀ row ∈ rows, Json.badKey? row = none := fun row hrow =>
    badKey?_of_isJson (hrows row hrow).1
  cases recommended with
  | false => exact ⟨.missing, nofun⟩
  | true =>
    match rows, rows', hperm with
    | [], [], _ => exact ⟨.missing, fun _ hne => absurd rfl hne⟩
    | [], _ :: _, hperm => exact absurd hperm.length_eq (by simp)
    | _ :: _, [], hperm => exact absurd hperm.length_eq (by simp)
    | first :: rest, first' :: rest', hperm =>
      rw [ofResult_list, ofResult_list, Option.getD_some]
      refine ⟨sameUpToOrder_build hdimensions hdocs hkeys hperm, fun _ _ hthreshold => ?_⟩
      obtain ⟨c, hbuild, -⟩ := build_rows hthreshold hdocs hkeys
      rw [hbuild]
      exact ⟨c, rfl⟩

private def byRegion : Hint := { Hint.default with dimensions := ["region", "totalSales"] }

/-- A region without sales. -/
private def unsold : Value := .doc [("region", .str "East")]

private def sold : Value := .doc [("region", .str "West"), ("totalSales", .int 95)]

private theorem isJson_of_mem_unsold_sold :
    ∀ row ∈ [unsold, sold], row.IsJson ∧ row.isDict = true := by
  have hunsold : unsold.IsJson := .dict (Value.textKeys_doc _) (by simp [Value.IsJson.str])
  have hsold : sold.IsJson :=
    .dict (Value.textKeys_doc _) (by simp [Value.IsJson.str, Value.IsJson.int])
  simpa using ⟨⟨hunsold, rfl⟩, hsold, rfl⟩

theorem chart_of_reordered_rows_regions : byRegion.dimensions ≠ [] ∧
    (∀ row ∈ [unsold, sold], row.IsJson ∧ row.isDict = true) ∧ [unsold, sold].Perm [sold, unsold] ∧
    ∃ c c' others, ofResult 1 (some byRegion) (.list [unsold, sold]) none true = .ok (some c) ∧
      ofResult 1 (some byRegion) (.list [sold, unsold]) none true = .ok (some c') ∧
      c.skeleton = c'.skeleton ∧ Lists [unsold, sold] others c ∧ Lists [sold, unsold] others c' := by
  have hdimensions : byRegion.dimensions ≠ [] := List.cons_ne_nil _ _
  have hperm : [unsold, sold].Perm [sold, unsold] := .swap _ _ _
  obtain ⟨hsame, hdrawn⟩ := chart_of_reordered_rows 1 byRegion none true _ _ hdimensions
    isJson_of_mem_unsold_sold hperm
  obtain ⟨c, hc⟩ := hdrawn rfl (List.cons_ne_nil _ _) (by decide)
  refine ⟨hdimensions, isJson_of_mem_unsold_sold, hperm, c, ?_⟩
  rw [hc] at hsame ⊢
  generalize ofResult 1 (some byRegion) (.list [sold, unsold]) none true = outcome at hsame ⊢
  cases hsame with
  | drawn skeleton h h' => exact ⟨_, _, rfl, rfl, skeleton, h, h'⟩

/-- Only the order that starts without sales is warned about them. -/
example : missingWarnings byRegion.dimensions [unsold, sold] =
      ["Dimension 'totalSales' is not present in the result rows"] ∧
    missingWarnings byRegion.dimensions [sold, unsold] = [] := by
  decide +kernel

end Inquiry.Chart
