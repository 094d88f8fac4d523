import Inquiry.Proofs.Dates.Meaning
import Inquiry.Proofs.Dates.Places

/-!
# Conversions with a fallback

`$dateFromString` and `$convert` may name a value for documents where they get no text, or none of a
date. A conversion that gives way to its field takes this value with it. It gives way just if the field
is known or conversions are forced out, whatever its other arguments are, and where a known field holds
a date the fallback was not used.
-/
namespace Inquiry.Dates

open Expression (find? exists_child?_of_find? child?_keyed_eq_some_iff part?_cons)

variable {known : String → Bool} {force : Bool} {f : String}

/-- Each part that gives way to the field in a forced run does so in any run. -/
def GivesWayUnforced (known : String → Bool) (force : Bool) (f : String) (e : Expression) : Prop :=
  ∀ address x, e.part? address = some x → heal known force x = .fieldRef f →
    heal known false x = .fieldRef f

theorem GivesWayUnforced.child {e x : Expression} {i : Nat} (h : GivesWayUnforced known force f e)
    (hx : e.child? i = some x) : GivesWayUnforced known force f x := by
  intro address y hy
  apply h (i :: address) y
  rw [part?_cons, hx]
  exact hy

theorem heal_eq_single {x y : Expression} (h : heal known force x = .array [y]) :
    ∃ z, x = .array [z] ∧ heal known force z = y := by
  cases x with
  | scalar v =>
    rw [heal_scalar] at h
    cases h
  | fieldRef path =>
    rw [heal_fieldRef] at h
    cases h
  | array xs =>
    rw [heal_array] at h
    obtain ⟨z, rfl, hz⟩ := List.map_eq_singleton_iff.mp (Expression.array.inj h)
    exact ⟨z, rfl, hz⟩
  | keyed es =>
    rw [heal_keyed] at h
    rcases collapse_eq_or known force (healedParts known force es) with hc | ⟨g, hc, -⟩
    · rw [hc] at h
      cases h
    · rw [hc] at h
      cases h

theorem GivesWayUnforced.reads {e : Expression} (he : GivesWayUnforced known force f e)
    (h : Reads f (heal known force e)) : Reads f (heal known false e) := by
  generalize hheal : heal known force e = healed at h
  cases h with
  | field =>
    rw [he [] e rfl hheal]
    exact .field
  | text =>
    obtain ⟨x, rfl, hx⟩ := heal_eq_call hheal
    rw [heal_call known false (by decide), he [0] x rfl hx]
    exact .text
  | textOfItem =>
    obtain ⟨x, rfl, hx⟩ := heal_eq_call hheal
    obtain ⟨y, rfl, hy⟩ := heal_eq_single hx
    rw [heal_call known false (by decide), heal_array, List.map_cons, List.map_nil,
      he [0, 0] y rfl hy]
    exact .textOfItem

/-- What stands under an argument that reads the field, once the arguments are healed. -/
theorem GivesWayUnforced.argument {x r : Expression} {args : List (String × Expression)}
    {key : String} (hkey : isOperatorName key = false) (he : GivesWayUnforced known force f x)
    (hx : heal known force x = .keyed args) (hr : find? key args = some r) (reads : Reads f r) :
    ∃ args' r', heal known false x = .keyed args' ∧ find? key args' = some r' ∧ Reads f r' := by
  have hget := get?_heal_eq_map known force hkey x
  rw [hx, Expression.get?_keyed, hr] at hget
  match x, hget with
  | .keyed es, hget =>
    obtain ⟨y, hy, hheal⟩ := Option.map_eq_some_iff.mp hget.symm
    rw [Expression.get?_keyed] at hy
    obtain ⟨i, hi⟩ := exists_child?_of_find? hy
    rw [← hheal] at reads
    refine ⟨_, heal known false y, heal_arguments known false hkey hy, ?_, (he.child hi).reads reads⟩
    rw [Expression.find?_map, hy, Option.map_some]

theorem GivesWayUnforced.converts {op : String} {x : Expression}
    (he : GivesWayUnforced known force f x) (h : Converts f (.keyed [(op, heal known force x)])) :
    Converts f (.keyed [(op, heal known false x)]) := by
  generalize hheal : heal known force x = healed at h
  cases h with
  | toDate reads =>
    rw [← hheal] at reads
    exact .toDate (he.reads reads)
  | toDateItem reads =>
    obtain ⟨y, rfl, rfl⟩ := heal_eq_single hheal
    rw [heal_array, List.map_cons, List.map_nil]
    exact .toDateItem ((he.child (i := 0) rfl).reads reads)
  | dateFromString text reads =>
    obtain ⟨args', r, hargs, hr, hreads⟩ := he.argument (by decide) hheal text reads
    rw [hargs]
    exact .dateFromString hr hreads
  | @convert args target e kind date input reads =>
    obtain ⟨args', r, hargs, hr, hreads⟩ := he.argument (by decide) hheal input reads
    rw [hargs]
    have hto : isOperatorName "to" = false := by decide
    have hforced := get?_heal_eq_map known force hto x
    have hunforced := get?_heal_eq_map known false hto x
    rw [hheal, Expression.get?_keyed, kind] at hforced
    obtain ⟨t, ht, htarget⟩ := Option.map_eq_some_iff.mp hforced.symm
    -- The target is a scalar, so neither run changes it.
    match target, date, htarget with
    | .scalar v, date, htarget =>
      rw [heal_eq_scalar_iff] at htarget
      rw [hargs, ht, htarget] at hunforced
      have hkind := hunforced.trans (congrArg some (heal_scalar known false v))
      exact .convert hkind date hr hreads

theorem heal_eq_fieldRef_unforced (hf : known f = true) (e : Expression) :
    heal known force e = .fieldRef f → heal known false e = .fieldRef f := by
  induction e using Expression.parts_induction with
  | node e ih =>
    intro h
    cases e with
    | scalar v =>
      rw [heal_scalar] at h
      cases h
    | fieldRef path =>
      rw [heal_fieldRef] at h ⊢
      exact h
    | array xs =>
      rw [heal_array] at h
      cases h
    | keyed es =>
      obtain ⟨hconverts, -⟩ := heal_eq_fieldRef_iff.mp h
      obtain ⟨op, operand, hparts, -⟩ := hconverts.operator
      obtain ⟨x, rfl, -⟩ := healedParts_eq_call hparts
      have hx : GivesWayUnforced known force f x := fun address y hy => ih 0 address y hy
      exact heal_eq_fieldRef_iff.mpr ⟨hx.converts hconverts, Or.inl hf⟩

/-- The arguments that stand in for a date that a conversion cannot give. -/
def fallbackKeys : List String := ["onNull", "onError"]

universe u

/-- A conversion with a fallback gives way just if its healed arguments make it a conversion of a field
that is known, or of any field where conversions are forced out, and then the fallback is gone. Every
other one stays where it is, with its fallback healed under its key, unless a conversion above it gives
way. Where the names in the set hold dates, a conversion of one of them has the value of the field in
the first place, and does not use its fallback. -/
theorem fallback_dropped_iff_field_known (F : DateFields) (force : Bool) (path q op key : String)
    (e fallback : Expression) (address : List Nat) (args : List (String × Expression))
    (hplace : e.place? path address = some (q, .keyed [(op, .keyed args)]))
    (hkey : key ∈ fallbackKeys) (hfallback : find? key args = some fallback) :
    let parts := Expression.keyed [(op, healedParts F.contains force args)]
    let healed := heal F.contains force (.keyed [(op, .keyed args)])
    (Standing F.contains force path e address →
      (heal F.contains force e).place? path address = some (q, healed)) ∧
    (∀ f, healed = .fieldRef f ↔ Converts f parts ∧ (F.contains f = true ∨ force = true)) ∧
    ((∀ f, healed ≠ .fieldRef f) → healed = parts ∧
      (healedParts F.contains force args).get? key = some (heal F.contains force fallback)) ∧
    ∀ f, Converts f parts → F.contains f = true →
      ∀ (V : Type u) (M : Evaluation V) (IsDate : V → Prop), M.ReadsDates IsDate →
        (∀ g ∈ F.tracked, IsDate (M.field g)) → M.eval (.keyed [(op, .keyed args)]) = M.field f := by
  intro parts healed
  have hname : isOperatorName key = false := by
    have hall : ∀ key ∈ fallbackKeys, isOperatorName key = false := by decide
    exact hall key hkey
  have hparts : healedParts F.contains force [(op, .keyed args)] = parts := by
    rw [healedParts_call, heal_arguments F.contains force hname hfallback]
  have hgone : ∀ f, healed = .fieldRef f ↔
      Converts f parts ∧ (F.contains f = true ∨ force = true) := by
    intro f
    rw [← hparts]
    exact heal_eq_fieldRef_iff
  refine ⟨fun hstanding => ?_, hgone, fun hstays => ⟨?_, ?_⟩, ?_⟩
  · exact place?_heal_iff.mpr ⟨⟨_, hplace, rfl⟩, hstanding⟩
  · exact (heal_eq_healedParts F.contains force hstays).trans hparts
  · rw [healedParts, Expression.get?_keyed, Expression.find?_map, hfallback, Option.map_some]
  · intro f hconverts hf V M IsDate hreads hdates
    have hheal := heal_eq_fieldRef_unforced hf _ ((hgone f).mpr ⟨hconverts, Or.inl hf⟩)
    rw [← (eval_heal_of_dates M IsDate hreads F hdates).1, hheal, Evaluation.eval]

private def orderDayArguments : List (String × Expression) :=
  [("input", .fieldRef "orderDate"), ("to", .scalar (.str "date")), ("onNull", .scalar (.str "$$NOW"))]

/-- The day of an order, or that of the query for orders without a date. -/
private def orderDay : Expression := .keyed [("$convert", .keyed orderDayArguments)]

private def dated : DateFields := .ofNames ["orderDate"] none

private theorem converts_orderDay : Converts "orderDate" orderDay :=
  .convert rfl rfl rfl .field

theorem fallback_dropped_iff_field_known_orderDay :
    (heal dated.contains false (.keyed [("day", orderDay)])).place? "$addFields" [0] =
      some ("$addFields.day", .fieldRef "orderDate") ∧
    Sample.orders.eval orderDay = Sample.orders.field "orderDate" ∧
    (heal DateFields.empty.contains false (.keyed [("day", orderDay)])).place? "$addFields" [0] =
      some ("$addFields.day", orderDay) := by
  have hplace : (Expression.keyed [("day", orderDay)]).place? "$addFields" [0] =
      some ("$addFields.day", orderDay) := rfl
  have hstanding (F : DateFields) :
      Standing F.contains false "$addFields" (.keyed [("day", orderDay)]) [0] := by
    intro above i below q es f haddress hx hf
    cases above with
    | nil =>
      cases hx
      rw [heal_call F.contains false (by decide)] at hf
      cases hf
    | cons j above => simp at haddress
  obtain ⟨hdated, hgone, -, hvalue⟩ := fallback_dropped_iff_field_known.{0} dated false "$addFields"
    _ _ "onNull" _ _ _ _ hplace (by decide) rfl
  obtain ⟨hempty, -⟩ := fallback_dropped_iff_field_known.{0} .empty false "$addFields"
    _ _ "onNull" _ _ _ _ hplace (by decide) rfl
  have hfields : ∀ g ∈ dated.tracked, Sample.IsDay (Sample.orders.field g) := by
    intro g hg
    rw [show g = "orderDate" from List.mem_singleton.mp hg]
    exact ⟨_, rfl⟩
  have hsource : Converts "orderDate"
      (.keyed [("$convert", healedParts dated.contains false orderDayArguments)]) :=
    .convert rfl rfl rfl .field
  refine ⟨?_, ?_, hempty (hstanding .empty)⟩
  · rw [← (hgone "orderDate").mpr ⟨hsource, Or.inl (by decide)⟩]
    exact hdated (hstanding dated)
  · exact hvalue _ hsource (by decide) Value Sample.orders Sample.IsDay Sample.orders_readsDates
      hfields

/-- The conversion of a known field gives way to the field, and the fallback that it names is gone. -/
theorem fallback_lost_with_conversion :
    orderDay = .keyed [("$convert", .keyed orderDayArguments)] ∧ "onNull" ∈ fallbackKeys ∧
      find? "onNull" orderDayArguments = some (.scalar (.str "$$NOW")) ∧
      heal dated.contains false orderDay = .fieldRef "orderDate" :=
  ⟨rfl, by decide, rfl, converts_orderDay.heal_eq dated.contains false (Or.inl (by decide))⟩

end Inquiry.Dates
