import Mathlib.Tactic.SplitIfs
import Inquiry.Proofs.Chart.Drawable

/-!
# The roles of a chart

The layout says where the category and the value go. The kind of the hint and the two axis types it
declares decide the layout, each of the five exactly when they ask for it. Axes, encodings and zoom are
made from the layout one by one, and here they are shown to agree: each layout is one of three kinds,
and every part of the chart is of that kind.
-/
namespace Inquiry.Chart

def Direction.other : Direction → Direction
  | .x => .y
  | .y => .x

/-- The end of a series that lies along an axis, and the start of what a zoom calls the axis. -/
def Direction.letter : Direction → String
  | .x => "x"
  | .y => "y"

def Direction.of (d : Direction) (axes : Axis × Axis) : Axis :=
  match d with
  | .x => axes.1
  | .y => axes.2

/-- The entry that binds an end of a series to a field, unless the field is missing or empty. -/
def bound (place : String) : Option String → List (String × String)
  | some name => if name = "" then [] else [(place, name)]
  | none => []

/-- The whole list of the values of a category: one for each row. -/
structure ListsCategory (category : Option String) (rows : List Value) (data : Option (List Value)) :
    Prop where
  named : ∀ name, category = some name → name ≠ "" →
    data = some (rows.map fun row => Rows.nested row name)
  missing : category = none ∨ category = some "" → data = some []

/-- A chart without a plane. -/
structure IsRadial (c : Chart) : Prop where
  axes : c.axes = none
  grid : c.grid = none
  zoom : c.zoom = none
  encode : ∀ s ∈ c.series, s.encode = bound "itemName" c.category ++ bound "value" c.value

/-- A chart of values against values. -/
structure IsScatter (c : Chart) : Prop where
  axes : ∃ axes, c.axes = some axes ∧ ∀ d : Direction,
    (d.of axes).kind = .value ∧ (d.of axes).data = none
  zoom : c.zoom = none
  encode : ∀ s ∈ c.series, s.encode = bound "x" c.category ++ bound "y" c.value

/-- A chart with its category along one axis and its value along the other one. -/
structure IsAlong (d : Direction) (rows : List Value) (c : Chart) : Prop where
  axes : ∃ axes, c.axes = some axes ∧
    (d.of axes).kind = .category ∧ ListsCategory c.category rows (d.of axes).data ∧
    (d.other.of axes).kind = .value ∧ (d.other.of axes).data = none
  zoom : ∀ z, c.zoom = some z →
    z.toValue.get? (d.letter ++ "AxisIndex") = some (.int 0) ∧
      z.toValue.get? (d.other.letter ++ "AxisIndex") = none
  encode : ∀ s ∈ c.series, s.encode = bound d.letter c.category ++ bound d.other.letter c.value

/-- Values along x and categories along y. -/
def Sideways (hint : Hint) : Prop :=
  hint.xAxisType = some "value" ∧ hint.yAxisType = some "category"

/-- Values along x and along y, where a type for y that is left open counts as values. -/
def TwoValues (hint : Hint) : Prop :=
  hint.xAxisType = some "value" ∧
    (hint.yAxisType = none ∨ hint.yAxisType = some "" ∨ hint.yAxisType = some "value")

/-- Axes, encodings and zoom go by one layout, which the hint decides. -/
structure RolesAgree (hint : Hint) (rows : List Value) (c : Chart) : Prop where
  radial_iff : c.layout = .radial ↔ Text.lower hint.kind = "pie"
  scatter_iff : c.layout = .scatter ↔ TwoValues hint ∧ Text.lower hint.kind ≠ "pie"
  radial : c.layout = .radial → IsRadial c
  scatter : c.layout = .scatter → IsScatter c
  along : c.layout ≠ .radial → c.layout ≠ .scatter →
    ∃ d, IsAlong d rows c ∧ (d = .y ↔ Sideways hint)
  horizontal_iff : c.layout = .horizontal ↔ Sideways hint ∧ kindOf hint = "bar"
  transposed_iff : c.layout = .transposed ↔
    Sideways hint ∧ kindOf hint ≠ "bar" ∧ Text.lower hint.kind ≠ "pie"
  vertical_iff : c.layout = .vertical ↔
    ¬ Sideways hint ∧ ¬ TwoValues hint ∧ Text.lower hint.kind ≠ "pie"
  dimensions : c.dimensions = c.category.toList ++ c.value.toList

variable {hint : Hint} {rows data : List Value} {r : Roles} {zoom : Option Zoom} {threshold : Int}

theorem kindOf_eq_pie_iff : kindOf hint = "pie" ↔ Text.lower hint.kind = "pie" := by
  unfold kindOf textOr
  dsimp only
  split
  · rename_i hempty
    rw [String.isEmpty_iff.mp hempty]
    decide
  · exact Iff.rfl

/-- Only a type that is declared differs from the one that stands in for it. -/
theorem textOr_eq_iff {given : Option String} {other s : String} (hs : s ≠ "") (hother : other ≠ s) :
    textOr given other = s ↔ given = some s := by
  unfold textOr
  cases given with
  | none => simp [hother]
  | some t =>
    dsimp only
    split
    · rename_i hempty
      rw [String.isEmpty_iff.mp hempty, Option.some_inj]
      simp [hother, hs.symm]
    · rw [Option.some_inj]

theorem sideways_iff : Sideways hint ↔
    textOr hint.xAxisType "category" = "value" ∧ textOr hint.yAxisType "value" = "category" := by
  rw [Sideways, textOr_eq_iff (by decide) (by decide), textOr_eq_iff (by decide) (by decide)]

/-- A type that is left open is the one that stands in for it. -/
theorem textOr_self_iff {given : Option String} {s : String} :
    textOr given s = s ↔ given = none ∨ given = some "" ∨ given = some s := by
  unfold textOr
  cases given with
  | none => simp
  | some t =>
    dsimp only
    split
    · rename_i hempty
      rw [String.isEmpty_iff.mp hempty]
      simp
    · rename_i hgiven
      have ht : t ≠ "" := fun h => hgiven (String.isEmpty_iff.mpr h)
      simp [ht]

theorem twoValues_iff : TwoValues hint ↔
    textOr hint.xAxisType "category" = "value" ∧ textOr hint.yAxisType "value" = "value" := by
  rw [TwoValues, textOr_eq_iff (by decide) (by decide), textOr_self_iff]

section Layout

variable {kind xType yType : String}

/-- A kind and two axis types are those that ask for a layout. -/
def AsksFor (kind xType yType : String) : Layout → Prop
  | .radial => kind = "pie"
  | .scatter => (xType = "value" ∧ yType = "value") ∧ kind ≠ "pie"
  | .horizontal => (xType = "value" ∧ yType = "category") ∧ kind = "bar"
  | .transposed => (xType = "value" ∧ yType = "category") ∧ kind ≠ "bar" ∧ kind ≠ "pie"
  | .vertical =>
    ¬ (xType = "value" ∧ yType = "category") ∧ ¬ (xType = "value" ∧ yType = "value") ∧ kind ≠ "pie"

theorem layoutFor_eq_iff (layout : Layout) :
    (layoutFor kind xType yType).1 = layout ↔ AsksFor kind xType yType layout := by
  unfold layoutFor
  split_ifs with hpie hsideways hbar hvalues <;> cases layout <;> simp_all [AsksFor]

theorem layoutFor_radial_iff : (layoutFor kind xType yType).1 = .radial ↔ kind = "pie" :=
  layoutFor_eq_iff .radial

theorem layoutFor_direction_iff (h : kind ≠ "pie") :
    categoryDirection? (layoutFor kind xType yType).1 = some .y ↔
      xType = "value" ∧ yType = "category" := by
  unfold layoutFor
  rw [if_neg h]
  split_ifs with hsideways <;> simp_all [categoryDirection?]

end Layout

theorem layout_decideFrom (hint : Hint) (first : Value) : (Roles.decideFrom hint first).layout =
    (layoutFor (kindOf hint) (textOr hint.xAxisType "category")
      (textOr hint.yAxisType "value")).1 := by
  unfold Roles.decideFrom
  dsimp only

/-- A layout that is neither radial nor a scatter has an axis for its categories. -/
theorem exists_categoryDirection {layout : Layout} (hradial : layout ≠ .radial)
    (hscatter : layout ≠ .scatter) : ∃ d, categoryDirection? layout = some d := by
  cases layout with
  | vertical => exact ⟨.x, rfl⟩
  | horizontal => exact ⟨.y, rfl⟩
  | transposed => exact ⟨.y, rfl⟩
  | scatter => exact absurd rfl hscatter
  | radial => exact absurd rfl hradial

theorem listsCategory_data (r : Roles) (rows : List Value) :
    ListsCategory r.category rows (some (r.categoryData rows)) := by
  constructor
  · intro name hname hne
    rw [Roles.categoryData, hname]
    simp [hne]
  · rintro (h | h)
    · rw [Roles.categoryData, h]
    · rw [Roles.categoryData, h]
      rfl

theorem filterMap_bound (place place' : String) (field field' : Option String) :
    ([(place, field), (place', field')].filterMap fun (place, name) =>
      match name with
      | some n => if n.isEmpty then none else some (place, n)
      | none => none) = bound place field ++ bound place' field' := by
  have hbound (place : String) (field : Option String) :
      ([(place, field)].filterMap fun (place, name) =>
        match name with
        | some n => if n.isEmpty then none else some (place, n)
        | none => none) = bound place field := by
    cases field with
    | none => rfl
    | some name => by_cases hname : name = "" <;> simp [bound, hname]
  rw [← hbound, ← hbound, ← List.filterMap_append]
  rfl

theorem encode_radial (h : r.layout = .radial) :
    r.encode = bound "itemName" r.category ++ bound "value" r.value := by
  rw [Roles.encode, h]
  exact filterMap_bound _ _ _ _

theorem encode_scatter (h : r.layout = .scatter) :
    r.encode = bound "x" r.category ++ bound "y" r.value := by
  rw [Roles.encode, h]
  exact filterMap_bound _ _ _ _

theorem encode_along {d : Direction} (h : categoryDirection? r.layout = some d) :
    r.encode = bound d.letter r.category ++ bound d.other.letter r.value := by
  rw [Roles.encode]
  cases hlayout : r.layout <;> rw [hlayout] at h <;> cases h <;> exact filterMap_bound _ _ _ _

theorem encode_of_mem_seriesFor {kind : String} {encode : List (String × String)} {s : Series}
    (h : s ∈ seriesFor hint kind encode) : s.encode = encode := by
  unfold seriesFor at h
  split at h
  · rw [List.mem_singleton.mp h]
  · obtain ⟨t, -, rfl⟩ := List.mem_map.mp h
    rfl

/-- What a zoom is decided by: there is none without a direction or with few categories, and
otherwise it runs along the direction up to the part that is shown. -/
theorem zoomFor_cases {layout : Layout} (h : zoomFor layout data threshold = .ok zoom) :
    (zoom = none ∧
        (categoryDirection? layout = none ∨ (distinctCount data : Int) ≤ threshold)) ∨
      ∃ direction finish, categoryDirection? layout = some direction ∧
        threshold < distinctCount data ∧ zoomFinish threshold data.length = .ok finish ∧
        zoom = some ⟨direction, finish⟩ := by
  unfold zoomFor at h
  cases hdirection : categoryDirection? layout with
  | none =>
    rw [hdirection] at h
    obtain rfl := Except.ok.inj h
    exact Or.inl ⟨rfl, Or.inl rfl⟩
  | some direction =>
    rw [hdirection] at h
    cases hkey : Json.badKey? (.list data) with
    | some key =>
      rw [hkey] at h
      cases h
    | none =>
      rw [hkey] at h
      dsimp only at h
      by_cases hfew : (distinctCount data : Int) ≤ threshold
      · rw [if_pos hfew] at h
        obtain rfl := Except.ok.inj h
        exact Or.inl ⟨rfl, Or.inr hfew⟩
      · rw [if_neg hfew] at h
        cases hfinish : zoomFinish threshold data.length with
        | error d =>
          rw [hfinish] at h
          cases h
        | ok finish =>
          rw [hfinish] at h
          obtain rfl := Except.ok.inj h
          exact Or.inr ⟨direction, finish, rfl, by omega, rfl, rfl⟩

theorem zoomFor_none {layout : Layout} (h : categoryDirection? layout = none)
    (hzoom : zoomFor layout data threshold = .ok zoom) : zoom = none := by
  rcases zoomFor_cases hzoom with ⟨hnone, -⟩ | ⟨direction, -, hsome, -⟩
  · exact hnone
  · rw [h] at hsome
    cases hsome

theorem zoomFor_direction {layout : Layout} {d : Direction} {z : Zoom}
    (h : categoryDirection? layout = some d)
    (hzoom : zoomFor layout data threshold = .ok (some z)) : z.axis = d := by
  rcases zoomFor_cases hzoom with ⟨hnone, -⟩ | ⟨direction, finish, hsome, -, -, hz⟩
  · cases hnone
  · obtain rfl := Option.some.inj hz
    rw [h] at hsome
    exact (Option.some.inj hsome).symm

theorem zoom_names_axis (z : Zoom) :
    z.toValue.get? (z.axis.letter ++ "AxisIndex") = some (.int 0) ∧
      z.toValue.get? (z.axis.other.letter ++ "AxisIndex") = none := by
  obtain ⟨axis, finish⟩ := z
  cases axis <;> exact ⟨rfl, rfl⟩

theorem dimensions_eq (hint : Hint) (first : Value) :
    (Roles.decideFrom hint first).dimensions =
      (Roles.decideFrom hint first).category.toList ++
        (Roles.decideFrom hint first).value.toList := by
  rw [Roles.category, Roles.value]
  change (askedDimensions hint first).take 2 = ((askedDimensions hint first).take 2)[0]?.toList ++
    ((askedDimensions hint first).take 2)[1]?.toList
  match askedDimensions hint first with
  | [] => rfl
  | [_] => rfl
  | _ :: _ :: _ => rfl

variable {source : List Value} {interpretation : Option String}

theorem isRadial_assemble (h : r.layout = .radial)
    (hzoom : zoomFor r.layout data threshold = .ok zoom) :
    IsRadial (assemble hint r data source zoom interpretation) := by
  have hnone : zoom = none := zoomFor_none (by rw [h]; rfl) hzoom
  constructor
  · rw [assemble, axesFor, h]
  · change gridFor r.layout data zoom.isSome = none
    rw [h]
    rfl
  · exact hnone
  · intro s hs
    rw [encode_of_mem_seriesFor hs]
    exact encode_radial h

theorem isScatter_assemble (h : r.layout = .scatter)
    (hzoom : zoomFor r.layout data threshold = .ok zoom) :
    IsScatter (assemble hint r data source zoom interpretation) := by
  have hnone : zoom = none := zoomFor_none (by rw [h]; rfl) hzoom
  constructor
  · refine ⟨_, by rw [assemble, axesFor, h], ?_⟩
    rintro (- | -) <;> exact ⟨rfl, rfl⟩
  · exact hnone
  · intro s hs
    rw [encode_of_mem_seriesFor hs]
    exact encode_scatter h

theorem axesFor_along {d : Direction} (h : categoryDirection? r.layout = some d) :
    ∃ axes, axesFor r data = some axes ∧ (d.of axes).kind = .category ∧
      (d.of axes).data = some data ∧ (d.other.of axes).kind = .value ∧
      (d.other.of axes).data = none := by
  unfold axesFor
  cases hlayout : r.layout <;> rw [hlayout] at h <;> cases h <;>
    exact ⟨_, rfl, rfl, rfl, rfl, rfl⟩

theorem isAlong_assemble {d : Direction} (h : categoryDirection? r.layout = some d)
    (hzoom : zoomFor r.layout (r.categoryData rows) threshold = .ok zoom) :
    IsAlong d rows (assemble hint r (r.categoryData rows) source zoom interpretation) := by
  obtain ⟨axes, haxes, hkind, hdata, hother, hnone⟩ := @axesFor_along (r.categoryData rows) r d h
  constructor
  · refine ⟨axes, haxes, hkind, ?_, hother, hnone⟩
    rw [hdata]
    exact listsCategory_data r rows
  · intro z hz
    obtain rfl : zoom = some z := hz
    rw [← zoomFor_direction h hzoom]
    exact zoom_names_axis z
  · intro s hs
    rw [encode_of_mem_seriesFor hs]
    exact encode_along h

theorem rolesAgree_of_build {result first : Value} {c : Chart}
    (h : build threshold hint result first rows interpretation = .ok c) :
    RolesAgree hint rows c := by
  obtain ⟨-, zoom, source, hzoom, -, rfl⟩ := build_ok_iff.mp h
  have hlayout := layout_decideFrom hint first
  have hdimensions := dimensions_eq hint first
  generalize Roles.decideFrom hint first = r at hzoom hlayout hdimensions ⊢
  have hasks (layout : Layout) : r.layout = layout ↔ AsksFor (kindOf hint)
      (textOr hint.xAxisType "category") (textOr hint.yAxisType "value") layout := by
    rw [hlayout, layoutFor_eq_iff]
  constructor
  · exact (hasks .radial).trans kindOf_eq_pie_iff
  · refine (hasks .scatter).trans ?_
    rw [AsksFor, twoValues_iff, Ne, kindOf_eq_pie_iff]
  · exact fun hradial => isRadial_assemble hradial hzoom
  · exact fun hscatter => isScatter_assemble hscatter hzoom
  · intro hradial hscatter
    obtain ⟨d, hd⟩ : ∃ d, categoryDirection? r.layout = some d :=
      exists_categoryDirection hradial hscatter
    have hpie : kindOf hint ≠ "pie" := fun hkind => hradial ((hasks .radial).mpr hkind)
    refine ⟨d, isAlong_assemble hd hzoom, ?_⟩
    rw [sideways_iff, ← layoutFor_direction_iff hpie, ← hlayout, hd]
    simp
  · refine (hasks .horizontal).trans ?_
    rw [AsksFor, sideways_iff]
  · refine (hasks .transposed).trans ?_
    rw [AsksFor, sideways_iff, Ne, Ne, kindOf_eq_pie_iff]
  · refine (hasks .vertical).trans ?_
    rw [AsksFor, sideways_iff, twoValues_iff, Ne, kindOf_eq_pie_iff]
  · exact hdimensions

/-- In every chart that is recommended, the axes, the encodings of all series and the zoom agree on
the roles, and for documents that JSON has a form for there is such a chart, over the rows as they
are. -/
theorem ofResult_roles_agree (threshold : Int) (hint : Option Hint) (rows : List Value)
    (interpretation : Option String) (hthreshold : 0 ≤ threshold) (hrows : rows ≠ []) :
    (∀ c, ofResult threshold hint (.list rows) interpretation true = .ok (some c) →
      RolesAgree (hint.getD Hint.default) rows c) ∧
    ((∀ row ∈ rows, IsRow row) → (∀ row ∈ rows, Json.badKey? row = none) →
      ∃ c, ofResult threshold hint (.list rows) interpretation true = .ok (some c) ∧
        c.rows = rows) := by
  obtain ⟨first, rest, rfl⟩ := List.exists_cons_of_ne_nil hrows
  rw [ofResult_list]
  constructor
  · intro c hc
    cases hbuild : build threshold (hint.getD Hint.default) (.list (first :: rest)) first
        (first :: rest) interpretation with
    | error f =>
      rw [hbuild] at hc
      cases hc
    | ok c' =>
      rw [hbuild] at hc
      cases hc
      exact rolesAgree_of_build hbuild
  · intro hdocs hkeys
    obtain ⟨c, hbuild, hsource⟩ := build_rows hthreshold hdocs hkeys
    rw [hbuild]
    exact ⟨c, rfl, hsource⟩

/-- Bars that lie. -/
private def lyingBars : Hint :=
  { Hint.default with xAxisType := some "value", yAxisType := some "category",
                      dimensions := ["product", "sold"] }

private def sale (product : String) (sold : Int) : Value :=
  .doc [("product", .str product), ("sold", .int sold)]

/-- More products than the zoom allows, one of them twice. -/
private def sales : List Value := [sale "pen" 3, sale "ink" 5, sale "pen" 8]

private theorem isRow_of_mem_sales {row : Value} (h : row ∈ sales) :
    IsRow row ∧ Json.badKey? row = none := by
  have hsale (product : String) (sold : Int) :
      IsRow (sale product sold) ∧ Json.badKey? (sale product sold) = none := ⟨⟨_, rfl⟩, rfl⟩
  simp only [sales, List.mem_cons, List.not_mem_nil, or_false] at h
  rcases h with rfl | rfl | rfl
  · exact hsale "pen" 3
  · exact hsale "ink" 5
  · exact hsale "pen" 8

theorem ofResult_roles_agree_bars :
    ∃ c, ofResult 1 (some lyingBars) (.list sales) none true = .ok (some c) ∧ c.rows = sales ∧
      c.layout = .horizontal ∧ IsAlong .y sales c := by
  obtain ⟨hagree, hdrawn⟩ := ofResult_roles_agree 1 (some lyingBars) sales none (by decide)
    (by simp [sales])
  obtain ⟨c, hc, hrows⟩ := hdrawn (fun row h => (isRow_of_mem_sales h).1)
    fun row h => (isRow_of_mem_sales h).2
  have hroles : RolesAgree lyingBars sales c := hagree c hc
  have hsideways : Sideways lyingBars := ⟨rfl, rfl⟩
  have hlayout : c.layout = .horizontal := hroles.horizontal_iff.mpr ⟨hsideways, by decide⟩
  obtain ⟨d, halong, hd⟩ := hroles.along (by simp [hlayout]) (by simp [hlayout])
  rw [hd.mpr hsideways] at halong
  exact ⟨c, hc, hrows, hlayout, halong⟩

end Inquiry.Chart
