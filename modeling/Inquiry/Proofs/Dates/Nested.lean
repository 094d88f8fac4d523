import Inquiry.Proofs.Dates.Idempotence

/-!
# What becomes of the parts of a stage

Healing goes through every part of a stage with one set of names, nested pipelines included. A part
that is healed stays at its address, unless a conversion around it gives way to its field.
-/
namespace Inquiry.Dates

open Expression (child?_keyed_eq_some_iff part?_cons)

variable {known : String → Bool}

/-- A conversion above an address gave way to a known field. -/
def Absorbed (known : String → Bool) (e healed : Expression) (address : List Nat) : Prop :=
  ∃ above i below c f, address = above ++ i :: below ∧ e.part? above = some c ∧
    isConversion c = true ∧ healed.part? above = some (.fieldRef f) ∧ known f = true

/-- No conversion in a tree reads a known field. -/
def ReadsUnknown (known : String → Bool) (e : Expression) : Prop :=
  ∀ address c f, e.part? address = some c → Converts f c → known f = false

theorem Absorbed.below {e healed x x' : Expression} {i : Nat} {address : List Nat}
    (hx : e.child? i = some x) (hx' : healed.child? i = some x') (h : Absorbed known x x' address) :
    Absorbed known e healed (i :: address) := by
  obtain ⟨above, j, below, c, f, rfl, hc, hconv, hpart, hf⟩ := h
  refine ⟨i :: above, j, below, c, f, rfl, ?_, hconv, ?_, hf⟩
  · rw [part?_cons, hx]
    exact hc
  · rw [part?_cons, hx']
    exact hpart

/-- Nothing stands where a part was absorbed. -/
theorem Absorbed.part?_eq_none {e healed : Expression} {address : List Nat}
    (h : Absorbed known e healed address) : healed.part? address = none := by
  obtain ⟨above, i, below, -, f, rfl, -, -, hpart, -⟩ := h
  induction above generalizing healed with
  | nil =>
    cases hpart
    rfl
  | cons j above ih =>
    rw [part?_cons] at hpart
    obtain ⟨x, hx, hpart⟩ := Option.bind_eq_some_iff.mp hpart
    rw [List.cons_append, part?_cons, hx]
    exact ih hpart

theorem child?_healedParts {es : List (String × Expression)} {i : Nat} {x : Expression}
    (force : Bool) (h : (Expression.keyed es).child? i = some x) :
    (healedParts known force es).child? i = some (heal known force x) := by
  obtain ⟨key, hd⟩ := child?_keyed_eq_some_iff.mp h
  refine child?_keyed_eq_some_iff.mpr ⟨key, ?_⟩
  rw [List.getElem?_map, hd]
  rfl

/-- A part is healed at its address or is gone together with a conversion around it. -/
theorem part?_heal {e c : Expression} {address : List Nat} (h : e.part? address = some c) :
    (heal known false e).part? address = some (heal known false c) ∨
      Absorbed known e (heal known false e) address := by
  induction address generalizing e with
  | nil =>
    cases h
    exact Or.inl rfl
  | cons i address ih =>
    rw [part?_cons] at h
    obtain ⟨x, hx, hc⟩ := Option.bind_eq_some_iff.mp h
    -- As long as the node itself stays, the part has the fate that it has in its child.
    have descend : ∀ e', e'.child? i = some (heal known false x) →
        e'.part? (i :: address) = some (heal known false c) ∨
          Absorbed known e e' (i :: address) := by
      intro e' hx'
      rw [part?_cons, hx']
      rcases ih hc with hpart | habsorbed
      · exact Or.inl hpart
      · exact Or.inr (habsorbed.below hx hx')
    cases e with
    | scalar v => cases hx
    | fieldRef path => cases hx
    | array xs =>
      apply descend
      rw [heal_array, Expression.child?, List.getElem?_map]
      exact congrArg (Option.map (heal known false)) hx
    | keyed es =>
      rcases heal_keyed_cases known false es with hk | ⟨f, hk, hf, haccept⟩
      · rw [hk]
        exact descend _ (child?_healedParts false hx)
      · right
        rw [hk]
        exact ⟨[], i, address, _, f, rfl, rfl, isConversion_of_healedParts hf.isConversion, rfl,
          haccept.resolve_right (by decide)⟩

theorem ReadsUnknown.child {e x : Expression} {i : Nat} (h : ReadsUnknown known e)
    (hx : e.child? i = some x) : ReadsUnknown known x := by
  intro address c f hc hf
  apply h (i :: address) c f ?_ hf
  rw [part?_cons, hx]
  exact hc

/-- Healing leaves a tree as it is exactly when none of its conversions reads a known field. -/
theorem heal_eq_self_iff_readsUnknown {e : Expression} :
    heal known false e = e ↔ ReadsUnknown known e := by
  constructor
  · intro h address c f hc hf
    rw [Bool.eq_false_iff]
    intro hknown
    rcases @part?_heal known _ _ _ hc with hpart | habsorbed
    · rw [h, hc, hf.heal_eq known false (Or.inl hknown)] at hpart
      -- A conversion is no reference, so the part was changed.
      cases hpart
      cases hf
    · rw [h] at habsorbed
      rw [habsorbed.part?_eq_none] at hc
      cases hc
  · intro h
    induction e with
    | scalar v => exact heal_scalar known false v
    | fieldRef path => exact heal_fieldRef known false path
    | array xs ih =>
      have hxs : ∀ x ∈ xs, heal known false x = id x := by
        intro x hx
        obtain ⟨i, hi⟩ := List.mem_iff_getElem?.mp hx
        exact ih x hx (h.child hi)
      rw [heal_array, List.map_congr_left hxs, List.map_id]
    | keyed es ih =>
      have hes : ∀ d ∈ es, (d.1, heal known false d.2) = id d := by
        intro d hd
        obtain ⟨i, hi⟩ := List.mem_iff_getElem?.mp hd
        have hchild := h.child (child?_keyed_eq_some_iff.mpr ⟨d.1, hi⟩)
        exact Prod.ext rfl (ih d hd hchild)
      rw [heal_keyed, healedParts, List.map_congr_left hes, List.map_id]
      rcases collapse_eq_or known false (.keyed es) with hk | ⟨f, -, hf, haccept⟩
      · exact hk
      · have hunknown := h [] (.keyed es) f rfl hf
        rw [hunknown] at haccept
        simp at haccept

theorem operator?_heal {f : String} {e : Expression} (h : Converts f e)
    (hf : known f = false) : (heal known false e).operator? = e.operator? := by
  obtain ⟨op, operand, rfl, hop⟩ := h.operator
  have hheal := h.heal known false hf rfl
  rw [heal_keyed] at hheal ⊢
  rcases collapse_eq_or known false (healedParts known false [(op, operand)]) with hk | ⟨g, hk, -⟩
  · rw [hk, healedParts_call, Expression.operator?, Expression.operator?, Expression.call?,
      Expression.call?, if_pos (isOperatorName_of_conversion hop),
      if_pos (isOperatorName_of_conversion hop)]
    rfl
  · rw [hk] at hheal
    cases hheal

/-- What becomes of a conversion `c` that reads `f` and stands in `e`, once `e` is healed. -/
inductive Judged (known : String → Bool) (f : String) (c e healed : Expression)
    (address : List Nat) : Prop
  | absorbed (absorbed : Absorbed known e healed address)
  | removed (tracked : known f = true) (place : healed.part? address = some (.fieldRef f))
  /-- It is still a conversion of its field, by the same operator. -/
  | kept (untracked : known f = false) (c' : Expression) (place : healed.part? address = some c')
      (converts : Converts f c') (operator : c'.operator? = c.operator?)
      (unchanged : c' = c ↔ ReadsUnknown known c)

theorem judged_heal {e c : Expression} {address : List Nat} {f : String}
    (h : e.part? address = some c) (hf : Converts f c) :
    Judged known f c e (heal known false e) address := by
  rcases @part?_heal known _ _ _ h with hpart | habsorbed
  · cases hknown : known f with
    | true =>
      rw [hf.heal_eq known false (Or.inl hknown)] at hpart
      exact .removed hknown hpart
    | false =>
      exact .kept hknown _ hpart (hf.heal known false hknown rfl) (operator?_heal hf hknown)
        heal_eq_self_iff_readsUnknown
  · exact .absorbed habsorbed

private def orders : Schema := ⟨"orders", [("orderDate", "date"), ("total", "number")]⟩

/-- The legacy orders keep as a text what the orders keep as a date of the same name. -/
private def legacyOrders : Schema :=
  ⟨"orders_legacy", [("orderDate", "string"), ("shipped", "string")]⟩

private def parsed (field : String) : Expression :=
  .keyed [("$dateFromString", .keyed [("dateString", .fieldRef field)])]

private def legacyDates (ordered : Expression) : Expression :=
  .array [.keyed [("$project", .keyed [("ordered", ordered), ("sent", parsed "shipped")])]]

private def joinLegacy (ordered : Expression) : Stage :=
  ⟨"$lookup", .keyed [("from", .scalar (.str "orders_legacy")), ("pipeline", legacyDates ordered),
    ("as", .scalar (.str "legacy"))]⟩

private theorem ofValue_joinLegacy :
    Stage.ofValue (0 : Nat) (joinLegacy (parsed "orderDate")).toValue =
      .ok (joinLegacy (parsed "orderDate")) :=
  Stage.ofValue_toValue (by decide) (by decide) _

private theorem ofValue_joinLegacy_healed :
    Stage.ofValue (0 : Nat) (joinLegacy (.fieldRef "orderDate")).toValue =
      .ok (joinLegacy (.fieldRef "orderDate")) :=
  @ofValue_healStage (DateFields.seed (some orders)).contains false _ _ _ ofValue_joinLegacy 0

private theorem healPipeline_joinLegacy :
    healPipeline [] (.start (.seed (some orders))) "orders"
        (.list [(joinLegacy (parsed "orderDate")).toValue]) =
      (((Progress.start (.seed (some orders))).step false 0 (joinLegacy (parsed "orderDate"))).1,
        .ok [(joinLegacy (.fieldRef "orderDate")).toValue]) := by
  refine healPipeline_ok_iff.mpr ⟨_, rfl, healStages_cons_ok_iff.mpr
    ⟨_, [], ofValue_joinLegacy, healStages_nil_ok_iff.mpr ⟨rfl, rfl⟩, ?_⟩⟩
  rfl

/-- A nested pipeline is judged by the names of the date fields at its stage, whatever collection it
runs over. A conversion in it that reads one of these names gives way to the field, any other one
stays, and both go if a conversion around them gives way. The arguments that hold the pipeline may
be those of the stage itself, or stand at any place below them. -/
theorem nested_pipeline_judged_by_names (forced : List String) (collection : String)
    (p p' : Progress) (vs out : List Value) (hforced : forced.contains collection = false)
    (h : healPipeline forced p collection (.list vs) = (p', .ok out)) (i : Nat) (v : Value)
    (s : Stage) (hv : vs[i]? = some v) (hs : Stage.ofValue i v = .ok s) (place : List Nat)
    (args nested : Expression) (hargs : s.spec.part? place = some args)
    (hnested : args.get? "pipeline" = some nested) :
    let known := (healPipeline forced p collection (.list (vs.take i))).1.fields.contains
    ∃ w t, out[i]? = some w ∧ Stage.ofValue i w = .ok t ∧ t.operator = s.operator ∧
      (Absorbed known s.spec t.spec place ∨
        ∃ args' healed, t.spec.part? place = some args' ∧ args'.get? "pipeline" = some healed ∧
          (healed = nested ↔ ReadsUnknown known nested) ∧
          ∀ address c f, nested.part? address = some c → Converts f c →
            Judged known f c nested healed address) := by
  intro known
  obtain ⟨_, hvs, hrun⟩ := healPipeline_ok_iff.mp h
  cases hvs
  obtain ⟨s', hs', hout⟩ := healStages_getElem? hrun hv
  rw [Nat.zero_add, hs] at hs'
  cases hs'
  have hout : out[i]? = some (healStage known false s).toValue := by
    simpa only [known, healPipeline, hforced] using hout
  refine ⟨_, _, hout, ofValue_healStage hs i, rfl, ?_⟩
  rcases @part?_heal known _ _ _ hargs with hplace | habsorbed
  · exact Or.inr ⟨_, _, hplace, get?_heal known false (by decide) hnested,
      heal_eq_self_iff_readsUnknown, fun address c f hc hf => judged_heal hc hf⟩
  · exact Or.inl habsorbed

theorem nested_pipeline_judged_by_names_legacy :
    healPipeline [] (.start (.seed (some orders))) "orders"
        (.list [(joinLegacy (parsed "orderDate")).toValue]) =
      (((Progress.start (.seed (some orders))).step false 0 (joinLegacy (parsed "orderDate"))).1,
        .ok [(joinLegacy (.fieldRef "orderDate")).toValue]) ∧
    Judged (DateFields.seed (some orders)).contains "orderDate" (parsed "orderDate")
      (legacyDates (parsed "orderDate")) (legacyDates (.fieldRef "orderDate")) [0, 0, 0] ∧
    Judged (DateFields.seed (some orders)).contains "shipped" (parsed "shipped")
      (legacyDates (parsed "orderDate")) (legacyDates (.fieldRef "orderDate")) [0, 0, 1] := by
  obtain ⟨w, t, hw, ht, -, hplace⟩ := nested_pipeline_judged_by_names [] "orders" _ _ _ _
    (by decide) healPipeline_joinLegacy 0 _ _ rfl ofValue_joinLegacy [] _ _ rfl rfl
  cases hw
  rw [ofValue_joinLegacy_healed] at ht
  cases ht
  rcases hplace with ⟨above, i, below, c, f, haddress, -⟩ | ⟨args', healed, hargs, hhealed, -, hall⟩
  · simp at haddress
  · cases hargs
    cases hhealed
    exact ⟨healPipeline_joinLegacy, hall _ _ _ rfl (.dateFromString rfl .field),
      hall _ _ _ rfl (.dateFromString rfl .field)⟩

/-- A conversion of a field of another collection may be lost to a date field of the same name. -/
theorem nested_conversion_lost_by_name :
    ¬ ∀ (primary other : Schema) (p' : Progress) (vs out : List Value) (i : Nat) (v : Value)
        (s : Stage) (nested c : Expression) (address : List Nat) (f : String),
      healPipeline [] (.start (.seed (some primary))) primary.name (.list vs) = (p', .ok out) →
      vs[i]? = some v → Stage.ofValue i v = .ok s → s.operator = "$lookup" →
      s.spec.get? "from" = some (.scalar (.str other.name)) → other.name ≠ primary.name →
      s.spec.get? "pipeline" = some nested → nested.part? address = some c → Converts f c →
      (f, "string") ∈ other.fields →
      ∃ w t healed, out[i]? = some w ∧ Stage.ofValue i w = .ok t ∧
        t.spec.get? "pipeline" = some healed ∧ healed.part? address = some c := by
  intro h
  obtain ⟨w, t, healed, hw, ht, hhealed, hplace⟩ := h orders legacyOrders _ _ _ 0 _ _ _ _ [0, 0, 0]
    "orderDate" healPipeline_joinLegacy rfl ofValue_joinLegacy rfl rfl (by decide) rfl rfl
    (.dateFromString rfl .field) (by decide)
  cases hw
  rw [ofValue_joinLegacy_healed] at ht
  cases ht
  cases hhealed
  cases hplace

end Inquiry.Dates
