import Mathlib.Data.List.Forall2
import Inquiry.Proofs.Chart.Roles

/-!
# What a chart keeps of its hint

A chart takes dimensions, axis types and series from its hint, and changes some of them. A change of
the dimensions or of the axis types leaves a warning. The ends of a series are always written anew,
and its kind is the template's whatever the layout is; neither leaves one.
-/
namespace Inquiry.Chart

variable {hint : Hint} {rows : List Value} {threshold : Int} {result first : Value}
  {interpretation : Option String} {recommended : Bool} {c : Chart}

theorem build_of_ofResult {hint : Option Hint}
    (h : ofResult threshold hint result interpretation recommended = .ok (some c)) :
    ∃ first rows,
      build threshold (hint.getD Hint.default) result first rows interpretation = .ok c := by
  unfold ofResult at h
  split at h
  · split at h
    · cases h
    · rename_i first rows _
      refine ⟨first, rows, ?_⟩
      cases hbuild : build threshold (hint.getD Hint.default) result first rows interpretation with
      | error f =>
        rw [hbuild] at h
        cases h
      | ok c' =>
        rw [hbuild] at h
        cases h
        rfl
  · cases h

/-- The warnings about the axis types of a hint. -/
def axisWarnings (hint : Hint) : List String :=
  (layoutFor (kindOf hint) (textOr hint.xAxisType "category") (textOr hint.yAxisType "value")).2

/-- The first row names no dimension where the hint does. -/
theorem askedDimensions_of_named (h : hint.dimensions ≠ []) (first : Value) :
    askedDimensions hint first = hint.dimensions := if_neg (by simpa using h)

theorem dimensions_decideFrom (hint : Hint) (first : Value) :
    (Roles.decideFrom hint first).dimensions = (askedDimensions hint first).take maxDimensions :=
  rfl

theorem warnings_decideFrom (hint : Hint) (first : Value) :
    (Roles.decideFrom hint first).warnings =
      dimensionWarnings (askedDimensions hint first) first ++ axisWarnings hint := rfl

/-- What a chart has from the roles and from the templates of its hint. -/
structure Drawn (hint : Hint) (r : Roles) (c : Chart) : Prop where
  layout : c.layout = r.layout
  dimensions : c.dimensions = r.dimensions
  category : c.category = r.category
  value : c.value = r.value
  axes : ∃ data, c.axes = axesFor r data
  series : c.series = seriesFor hint (seriesKind r) r.encode
  warnings : c.warnings = r.warnings

theorem drawn_assemble (hint : Hint) (r : Roles) (data source : List Value) (zoom : Option Zoom)
    (interpretation : Option String) :
    Drawn hint r (assemble hint r data source zoom interpretation) :=
  ⟨rfl, rfl, rfl, rfl, ⟨data, rfl⟩, rfl, rfl⟩

theorem drawn_of_build
    (h : build threshold hint result first rows interpretation = .ok c) :
    Drawn hint (Roles.decideFrom hint first) c := by
  obtain ⟨-, zoom, source, -, -, rfl⟩ := build_ok_iff.mp h
  exact drawn_assemble hint _ _ source zoom interpretation

/-- The direction of the categories in a layout with axes. -/
def direction (hint : Hint) : Direction :=
  if hint.xAxisType = some "value" ∧ hint.yAxisType = some "category" then .y else .x

/-- The ends of every series of a chart with axes. -/
def ends (hint : Hint) (c : Chart) : List (String × String) :=
  bound (direction hint).letter c.category ++ bound (direction hint).other.letter c.value

theorem encode_decideFrom (h : kindOf hint ≠ "pie") : (Roles.decideFrom hint first).encode =
    bound (direction hint).letter (Roles.decideFrom hint first).category ++
      bound (direction hint).other.letter (Roles.decideFrom hint first).value := by
  have hlayout := layout_decideFrom hint first
  have hsideways : categoryDirection? (Roles.decideFrom hint first).layout = some .y ↔
      Sideways hint := by
    rw [hlayout, layoutFor_direction_iff h, sideways_iff]
  by_cases hy : Sideways hint
  · rw [show direction hint = .y from if_pos hy]
    exact encode_along (hsideways.mpr hy)
  · -- Without an axis for the categories they go along x all the same.
    rw [show direction hint = .x from if_neg hy]
    cases hdecided : (Roles.decideFrom hint first).layout with
    | radial => exact absurd (layoutFor_radial_iff.mp (hlayout ▸ hdecided)) h
    | scatter => exact encode_scatter hdecided
    | vertical => exact encode_along (congrArg categoryDirection? hdecided)
    | horizontal => exact absurd (hsideways.mp (congrArg categoryDirection? hdecided)) hy
    | transposed => exact absurd (hsideways.mp (congrArg categoryDirection? hdecided)) hy

theorem Drawn.encode_eq (h : Drawn hint (Roles.decideFrom hint first) c)
    (hkind : kindOf hint ≠ "pie") : (Roles.decideFrom hint first).encode = ends hint c := by
  rw [encode_decideFrom hkind, ends, h.category, h.value]

theorem Drawn.encode_of_mem (h : Drawn hint (Roles.decideFrom hint first) c)
    (hkind : kindOf hint ≠ "pie") : ∀ s ∈ c.series, s.encode = ends hint c := by
  intro s hs
  rw [h.series] at hs
  exact (encode_of_mem_seriesFor hs).trans (h.encode_eq hkind)

/-- Dimensions are not dropped without a warning. -/
theorem excessWarning_mem {asked : List String} (first : Value)
    (h : maxDimensions < asked.length) :
    excessWarning (asked.drop maxDimensions) ∈ dimensionWarnings asked first := by
  rw [dimensionWarnings, if_pos h]
  exact List.mem_append_right _ List.mem_cons_self

/-- The types of the two axes of a layout. -/
def Layout.axisKinds : Layout → Option (AxisKind × AxisKind)
  | .vertical => some (.category, .value)
  | .horizontal => some (.value, .category)
  | .transposed => some (.value, .category)
  | .scatter => some (.value, .value)
  | .radial => none

theorem axesFor_kinds (r : Roles) (data : List Value) :
    (axesFor r data).map (fun axes => (axes.1.kind, axes.2.kind)) = r.layout.axisKinds := by
  unfold axesFor
  cases r.layout <;> rfl

/-- A layout without a warning has the axes that it was asked for. -/
theorem layoutFor_unwarned {kind xType yType : String} (hkind : kind ≠ "pie")
    (h : (layoutFor kind xType yType).2 = []) :
    ∃ kinds, (layoutFor kind xType yType).1.axisKinds = some kinds ∧
      kinds.1.name = xType ∧ kinds.2.name = yType := by
  unfold layoutFor at h ⊢
  rw [if_neg hkind] at h ⊢
  split_ifs at h ⊢ with hsideways hbar hvalues hupright
  · exact ⟨_, rfl, hsideways.1.symm, hsideways.2.symm⟩
  · exact ⟨_, rfl, hvalues.1.symm, hvalues.2.symm⟩
  · exact ⟨_, rfl, hupright.1.symm, hupright.2.symm⟩

/-- An encoding as a hint writes it. -/
def written (encode : List (String × String)) : List (String × Value) :=
  encode.map fun e => (e.1, .str e.2)

/-- A series binds what its template binds, in whatever order, unless that binds nothing. -/
def KeepsEncode (t : SeriesTemplate) (s : Series) : Prop :=
  t.encode ≠ [] → t.encode.Perm (written s.encode)

def KeepsDimensions (hint : Hint) (c : Chart) : Prop :=
  hint.dimensions ≠ [] → c.dimensions = hint.dimensions

def KeepsAxes (hint : Hint) (c : Chart) : Prop :=
  ∃ axes, c.axes = some axes ∧ axes.1.kind.name = textOr hint.xAxisType "category" ∧
    axes.2.kind.name = textOr hint.yAxisType "value"

/-- Every series is built from the template in its place, if there are templates. -/
def KeepsSeries (hint : Hint) (c : Chart) : Prop :=
  hint.series ≠ [] → List.Forall₂ KeepsEncode hint.series c.series

theorem seriesFor_templates {kind : String} {encode : List (String × String)}
    (h : hint.series ≠ []) : ∃ draw : SeriesTemplate → Series,
      seriesFor hint kind encode = hint.series.map draw ∧
        ∀ t, (draw t).kind = textOr t.kind kind ∧ (draw t).encode = encode := by
  rw [seriesFor, if_neg (by simpa using h)]
  exact ⟨_, rfl, fun t => ⟨rfl, rfl⟩⟩

theorem Drawn.keepsDimensions (h : Drawn hint (Roles.decideFrom hint first) c) :
    KeepsDimensions hint c ∨
      excessWarning (hint.dimensions.drop maxDimensions) ∈ c.warnings := by
  by_cases hgiven : hint.dimensions = []
  · exact .inl fun hne => absurd hgiven hne
  have hasked := askedDimensions_of_named hgiven first
  rcases Nat.lt_or_ge maxDimensions hint.dimensions.length with hmany | hfew
  · right
    rw [h.warnings, warnings_decideFrom, hasked]
    exact List.mem_append_left _ (excessWarning_mem first hmany)
  · left
    intro _
    rw [h.dimensions, dimensions_decideFrom, hasked, List.take_of_length_le hfew]

theorem Drawn.keepsAxes (h : Drawn hint (Roles.decideFrom hint first) c)
    (hkind : kindOf hint ≠ "pie") :
    KeepsAxes hint c ∨ ∃ warning ∈ c.warnings, warning ∈ axisWarnings hint := by
  cases hwarned : axisWarnings hint with
  | cons warning others =>
    right
    refine ⟨warning, ?_, List.mem_cons_self⟩
    rw [h.warnings, warnings_decideFrom, hwarned]
    exact List.mem_append_right _ List.mem_cons_self
  | nil =>
    left
    obtain ⟨kinds, hkinds, hx, hy⟩ := layoutFor_unwarned hkind hwarned
    obtain ⟨data, haxes⟩ := h.axes
    rw [← layout_decideFrom hint first, ← axesFor_kinds _ data, Option.map_eq_some_iff] at hkinds
    obtain ⟨axes, hdata, rfl⟩ := hkinds
    exact ⟨axes, haxes.trans hdata, hx, hy⟩

theorem Drawn.keepsSeries_iff (h : Drawn hint (Roles.decideFrom hint first) c)
    (hkind : kindOf hint ≠ "pie") : KeepsSeries hint c ↔
      ∀ t ∈ hint.series, t.encode ≠ [] → t.encode.Perm (written (ends hint c)) := by
  by_cases hnone : hint.series = []
  · simp [KeepsSeries, hnone]
  obtain ⟨draw, hdraw, hparts⟩ := @seriesFor_templates hint
    (seriesKind (Roles.decideFrom hint first)) (Roles.decideFrom hint first).encode hnone
  have hends (t : SeriesTemplate) : (draw t).encode = ends hint c :=
    (hparts t).2.trans (h.encode_eq hkind)
  rw [KeepsSeries, h.series, hdraw, List.forall₂_map_right_iff, List.forall₂_same]
  simp only [KeepsEncode, hends, hnone, ne_eq, not_false_eq_true, true_implies]

/-- A chart with the dimensions, the axis types and the encodings of its hint. -/
structure Follows (hint : Hint) (c : Chart) : Prop where
  dimensions : KeepsDimensions hint c
  axes : KeepsAxes hint c
  series : KeepsSeries hint c

/-- Dimensions that are dropped and axis types that are changed leave a warning. The encodings of
templates leave none: a chart without a warning follows its hint exactly when every template that
binds something binds the roles where the layout puts them. -/
theorem unwarned_chart_follows_iff {hint : Option Hint}
    (hchart : ofResult threshold hint result interpretation recommended = .ok (some c))
    (hkind : Text.lower (hint.getD Hint.default).kind ≠ "pie") :
    (KeepsDimensions (hint.getD Hint.default) c ∨
      excessWarning ((hint.getD Hint.default).dimensions.drop maxDimensions) ∈ c.warnings) ∧
    (KeepsAxes (hint.getD Hint.default) c ∨
      ∃ warning ∈ c.warnings, warning ∈ axisWarnings (hint.getD Hint.default)) ∧
    (c.warnings = [] → (Follows (hint.getD Hint.default) c ↔
      ∀ t ∈ (hint.getD Hint.default).series, t.encode ≠ [] →
        t.encode.Perm (written (ends (hint.getD Hint.default) c)))) := by
  obtain ⟨first, rows, hbuild⟩ := build_of_ofResult hchart
  have hdrawn := drawn_of_build hbuild
  have hkind : kindOf (hint.getD Hint.default) ≠ "pie" := fun hpie =>
    hkind (kindOf_eq_pie_iff.mp hpie)
  have hdimensions := hdrawn.keepsDimensions
  have haxes := hdrawn.keepsAxes hkind
  refine ⟨hdimensions, haxes, fun hwarnings => ?_⟩
  rw [hwarnings] at hdimensions haxes
  rw [← hdrawn.keepsSeries_iff hkind]
  refine ⟨Follows.series, fun hseries => ⟨?_, ?_, hseries⟩⟩
  · simpa using hdimensions
  · simpa using haxes

private def region (name : String) (total : Int) : Value :=
  .doc [("region", .str name), ("totalSales", .int total)]

/-- Two rows, for hints with one template for both of their fields. -/
private def regions : List Value := [region "East" 120, region "West" 95]

private def templated (kind : String) (t : SeriesTemplate) : Hint :=
  { Hint.default with kind := kind, dimensions := ["region", "totalSales"], series := [t] }

/-- Bars along x and up y. -/
private def bars (along up : String) : SeriesTemplate :=
  ⟨some "bar", none, [("y", .str up), ("x", .str along)], []⟩

private def upright : Hint := templated "bar" (bars "region" "totalSales")

private def crossed : Hint := templated "bar" (bars "totalSales" "region")

theorem template_encode_kept :
    ∃ c, ofResult 10 (some upright) (.list regions) none true = .ok (some c) ∧
      c.warnings = [] ∧ Follows upright c := by
  refine ⟨_, rfl, rfl, ?_⟩
  have hfollows := (@unwarned_chart_follows_iff 10 (.list regions) none true _ (some upright) rfl
    (by decide)).2.2 rfl
  refine hfollows.mpr fun t ht _ => ?_
  obtain rfl := List.mem_singleton.mp ht
  exact .swap _ _ _

/-- A template that binds the ends the other way is overruled, and no warning tells. -/
theorem template_encode_overruled :
    ∃ c, ofResult 10 (some crossed) (.list regions) none true = .ok (some c) ∧
      Text.lower crossed.kind ≠ "pie" ∧ c.warnings = [] ∧ ¬ Follows crossed c := by
  refine ⟨_, rfl, by decide, rfl, fun h => ?_⟩
  have hseries := h.series (List.cons_ne_nil _ _)
  cases hseries with
  | cons hkeeps _ =>
    have hbound : ("y", Value.str "region") ∈
        [("x", Value.str "region"), ("y", Value.str "totalSales")] :=
      (hkeeps (List.cons_ne_nil _ _)).subset List.mem_cons_self
    simp at hbound

/-- Pies are drawn without a plane and nothing else is. -/
structure KindsAgree (c : Chart) : Prop where
  pie_iff : (∃ s ∈ c.series, s.kind = "pie") ↔ c.layout = .radial
  radial : c.layout = .radial → ∀ s ∈ c.series, s.kind = "pie"

theorem seriesFor_ne_nil {kind : String} {encode : List (String × String)} :
    seriesFor hint kind encode ≠ [] := by
  unfold seriesFor
  split
  · exact List.cons_ne_nil _ _
  · rename_i hgiven
    simpa using hgiven

theorem kindsAgree_iff (hseries : c.series ≠ []) :
    KindsAgree c ↔ ∀ s ∈ c.series, (s.kind = "pie" ↔ c.layout = .radial) := by
  constructor
  · rintro ⟨hpie, hradial⟩ s hs
    exact ⟨fun hkind => hpie.mp ⟨s, hs, hkind⟩, fun hlayout => hradial hlayout s hs⟩
  · intro h
    obtain ⟨s, hs⟩ := List.exists_mem_of_ne_nil _ hseries
    constructor
    · refine ⟨?_, fun hlayout => ⟨s, hs, (h s hs).mpr hlayout⟩⟩
      rintro ⟨s', hs', hkind⟩
      exact (h s' hs').mp hkind
    · exact fun hlayout s' hs' => (h s' hs').mpr hlayout

theorem seriesKind_eq_pie_iff :
    seriesKind (Roles.decideFrom hint first) = "pie" ↔ kindOf hint = "pie" := by
  have hlayout : (Roles.decideFrom hint first).layout = .radial ↔ kindOf hint = "pie" := by
    rw [layout_decideFrom, layoutFor_radial_iff]
  unfold seriesKind
  split
  · rename_i hradial
    simpa using hlayout.mp hradial
  · exact Iff.rfl

/-- A kind that stands in for none agrees with itself; one that is given has to agree. -/
theorem textOr_pie_iff {given : Option String} {other : String} {radial : Prop}
    (hother : other = "pie" ↔ radial) :
    (textOr given other = "pie" ↔ radial) ↔
      ∀ kind, given = some kind → kind ≠ "" → (kind = "pie" ↔ radial) := by
  cases given with
  | none => simpa [textOr] using hother
  | some kind =>
    by_cases hempty : kind = ""
    · simpa [textOr, hempty] using hother
    · simp [textOr, hempty]

theorem Drawn.layout_radial_iff (h : Drawn hint (Roles.decideFrom hint first) c) :
    c.layout = .radial ↔ Text.lower hint.kind = "pie" := by
  rw [h.layout, layout_decideFrom, layoutFor_radial_iff, kindOf_eq_pie_iff]

theorem Drawn.kindsAgree_iff (h : Drawn hint (Roles.decideFrom hint first) c) :
    KindsAgree c ↔ ∀ t ∈ hint.series, ∀ kind, t.kind = some kind → kind ≠ "" →
      (kind = "pie" ↔ Text.lower hint.kind = "pie") := by
  have hkind : seriesKind (Roles.decideFrom hint first) = "pie" ↔ Text.lower hint.kind = "pie" :=
    seriesKind_eq_pie_iff.trans kindOf_eq_pie_iff
  have hseries : c.series ≠ [] := by
    rw [h.series]
    exact seriesFor_ne_nil
  rw [Chart.kindsAgree_iff hseries, h.series]
  simp only [h.layout_radial_iff]
  by_cases hnone : hint.series = []
  · simpa [seriesFor, hnone] using hkind
  · obtain ⟨draw, hdraw, hparts⟩ := @seriesFor_templates hint
      (seriesKind (Roles.decideFrom hint first)) (Roles.decideFrom hint first).encode hnone
    rw [hdraw, List.forall_mem_map]
    simp only [hparts, textOr_pie_iff hkind]

theorem Drawn.axes_isSome {r : Roles} (h : Drawn hint r c) (hplane : c.layout ≠ .radial) :
    c.axes.isSome := by
  obtain ⟨data, haxes⟩ := h.axes
  have hkinds := congrArg Option.isSome (axesFor_kinds r data)
  rw [Option.isSome_map, ← haxes, ← h.layout] at hkinds
  rw [hkinds]
  cases hlayout : c.layout with
  | radial => exact absurd hlayout hplane
  | vertical => rfl
  | horizontal => rfl
  | transposed => rfl
  | scatter => rfl

/-- The series and the layout of a chart are of one kind exactly when every template that has a kind
has the one of the hint, as far as pies go. The kind of a template is taken to the letter, while the
hint's is read in any case. If they are, pies bind names and values without axes, and every other
series binds the two ends of axes. -/
theorem series_kinds_agree_iff {hint : Option Hint}
    (hchart : ofResult threshold hint result interpretation recommended = .ok (some c)) :
    (KindsAgree c ↔ ∀ t ∈ (hint.getD Hint.default).series, ∀ kind, t.kind = some kind → kind ≠ "" →
      (kind = "pie" ↔ Text.lower (hint.getD Hint.default).kind = "pie")) ∧
    (KindsAgree c → ∀ s ∈ c.series,
      (s.kind = "pie" → c.axes = none ∧
        s.encode = bound "itemName" c.category ++ bound "value" c.value) ∧
      (s.kind ≠ "pie" → c.axes.isSome ∧ s.encode = ends (hint.getD Hint.default) c)) := by
  obtain ⟨first, rows, hbuild⟩ := build_of_ofResult hchart
  have hdrawn := drawn_of_build hbuild
  have hroles := rolesAgree_of_build hbuild
  refine ⟨hdrawn.kindsAgree_iff, fun hagree s hs => ⟨fun hpie => ?_, fun hother => ?_⟩⟩
  · have hradial := hroles.radial (hagree.pie_iff.mp ⟨s, hs, hpie⟩)
    exact ⟨hradial.axes, hradial.encode s hs⟩
  · have hplane : c.layout ≠ .radial := fun hradial => hother (hagree.radial hradial s hs)
    have hkind : kindOf (hint.getD Hint.default) ≠ "pie" := fun hpie =>
      hplane (hroles.radial_iff.mpr (kindOf_eq_pie_iff.mp hpie))
    exact ⟨hdrawn.axes_isSome hplane, hdrawn.encode_of_mem hkind s hs⟩

private def slices : SeriesTemplate := ⟨some "pie", none, [], []⟩

private def slicedPie : Hint := templated "PIE" slices

private def slicedBars : Hint := templated "bar" slices

private def barredPie : Hint := templated "pie" (bars "region" "totalSales")

theorem series_kinds_agree_pie :
    ∃ c, ofResult 10 (some slicedPie) (.list regions) none true = .ok (some c) ∧ KindsAgree c := by
  refine ⟨_, rfl, ?_⟩
  have hagree :=
    (@series_kinds_agree_iff 10 (.list regions) none true _ (some slicedPie) rfl).1
  refine hagree.mpr fun t ht kind hkind _ => ?_
  obtain rfl := List.mem_singleton.mp ht
  obtain rfl := Option.some.inj hkind
  decide

/-- Slices of a bar chart lie between axes, and bars of a pie have none. -/
theorem template_kind_off_layout :
    (∃ c, ofResult 10 (some slicedBars) (.list regions) none true = .ok (some c) ∧
      c.axes.isSome ∧
      c.series = [⟨"pie", none, [("x", "region"), ("y", "totalSales")], []⟩] ∧
      ¬ KindsAgree c) ∧
    ∃ c, ofResult 10 (some barredPie) (.list regions) none true = .ok (some c) ∧
      c.axes = none ∧
      c.series = [⟨"bar", none, [("itemName", "region"), ("value", "totalSales")], []⟩] ∧
      ¬ KindsAgree c := by
  constructor
  · refine ⟨_, rfl, rfl, rfl, fun h => ?_⟩
    have hradial := h.pie_iff.mp ⟨_, List.mem_cons_self, rfl⟩
    cases hradial
  · refine ⟨_, rfl, rfl, rfl, fun h => ?_⟩
    have hpie := h.radial rfl _ List.mem_cons_self
    exact absurd hpie (by decide)

end Inquiry.Chart
