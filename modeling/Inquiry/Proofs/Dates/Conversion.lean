import Inquiry.Dates.Healing
import Inquiry.Proofs.Expression.Tree

/-!
# Conversions that read a field

`Reads` and `Converts` list the spellings of a conversion to a date whose operand is a field. They do
not follow the tests of `redundantSource?`: that it finds exactly these nodes is proved here. Healing
acts on the items and the entries one by one, so it keeps the spelling of every such node.
-/
namespace Inquiry.Dates

open Expression (find?)

/-- The text or the date that a field holds: `$f`, or `$toString` of it, bare or as its only item. -/
inductive Reads (f : String) : Expression → Prop
  | field : Reads f (.fieldRef f)
  | text : Reads f (.keyed [("$toString", .fieldRef f)])
  | textOfItem : Reads f (.keyed [("$toString", .array [.fieldRef f])])

/-- A conversion to a date that reads the field `f`, whatever its other arguments are. -/
inductive Converts (f : String) : Expression → Prop
  | toDate {e} (reads : Reads f e) : Converts f (.keyed [("$toDate", e)])
  | toDateItem {e} (reads : Reads f e) : Converts f (.keyed [("$toDate", .array [e])])
  | dateFromString {args e} (text : find? "dateString" args = some e) (reads : Reads f e) :
      Converts f (.keyed [("$dateFromString", .keyed args)])
  | convert {args target e} (kind : find? "to" args = some target) (date : isDateTarget target = true)
      (input : find? "input" args = some e) (reads : Reads f e) :
      Converts f (.keyed [("$convert", .keyed args)])

theorem unwrapSingle_cases (e : Expression) : e = e.unwrapSingle ∨ e = .array [e.unwrapSingle] := by
  unfold Expression.unwrapSingle
  split
  · exact Or.inr rfl
  · exact Or.inl rfl

theorem Reads.unwrapSingle {f : String} {e : Expression} (h : Reads f e) : e.unwrapSingle = e := by
  cases h <;> rfl

theorem unwrapField?_eq_some_iff {f : String} {e : Expression} :
    unwrapField? e = some f ↔ Reads f e := by
  constructor
  · intro h
    unfold unwrapField? at h
    split at h
    · cases h
      exact .field
    · split at h
      · rename_i operand hcall
        obtain ⟨-, rfl⟩ := Expression.call?_eq_some_iff.mp hcall
        split at h
        · rename_i path hpath
          cases h
          rcases unwrapSingle_cases operand with he | he
          · rw [he, hpath]
            exact .text
          · rw [he, hpath]
            exact .textOfItem
        · cases h
      · cases h
  · intro h
    cases h <;> simp [unwrapField?, Expression.call?, isOperatorName, Expression.unwrapSingle]

/-- The test of the healer and the list of spellings agree. -/
theorem conversionSource?_eq_some_iff {f op : String} {operand : Expression} :
    conversionSource? op operand = some f ↔ Converts f (.keyed [(op, operand)]) := by
  constructor
  · intro h
    unfold conversionSource? at h
    split at h
    · rename_i hop
      rw [unwrapField?_eq_some_iff] at h
      rcases unwrapSingle_cases operand with he | he
      · rw [hop, he]
        exact .toDate h
      · rw [hop, he]
        exact .toDateItem h
    split at h
    · rename_i hop
      obtain ⟨e, he, hf⟩ := Option.bind_eq_some_iff.mp h
      match operand, he with
      | .keyed args, he =>
        rw [hop]
        exact .dateFromString he (unwrapField?_eq_some_iff.mp hf)
    split at h
    · rename_i hop
      split at h
      · rename_i target hto
        split at h
        · rename_i hdate
          obtain ⟨e, he, hf⟩ := Option.bind_eq_some_iff.mp h
          match operand, hto, he with
          | .keyed args, hto, he =>
            rw [hop]
            exact .convert hto hdate he (unwrapField?_eq_some_iff.mp hf)
        · cases h
      · cases h
    · cases h
  · intro h
    cases h with
    | toDate reads =>
      rw [conversionSource?, if_pos rfl, reads.unwrapSingle]
      exact unwrapField?_eq_some_iff.mpr reads
    | toDateItem reads =>
      rw [conversionSource?, if_pos rfl]
      exact unwrapField?_eq_some_iff.mpr reads
    | dateFromString text reads =>
      rw [conversionSource?, if_neg (by decide), if_pos rfl, Expression.get?_keyed, text]
      exact unwrapField?_eq_some_iff.mpr reads
    | convert kind date input reads =>
      rw [conversionSource?, if_neg (by decide), if_neg (by decide), if_pos rfl,
        Expression.get?_keyed, kind, Expression.get?_keyed, input]
      simp only [date, if_true]
      exact unwrapField?_eq_some_iff.mpr reads

theorem isOperatorName_of_conversion {op : String} (h : op ∈ conversionOperators) :
    isOperatorName op = true := by
  simp only [conversionOperators, List.mem_cons, List.not_mem_nil, or_false] at h
  rcases h with rfl | rfl | rfl <;> decide

theorem Converts.operator {f : String} {e : Expression} (h : Converts f e) :
    ∃ op operand, e = .keyed [(op, operand)] ∧ op ∈ conversionOperators := by
  cases h <;> exact ⟨_, _, rfl, by decide⟩

/-- A conversion is an operator call that the test of the healer accepts. -/
theorem converts_iff_call? {f : String} {e : Expression} :
    Converts f e ↔ ∃ op operand, e.call? = some (op, operand) ∧
      conversionSource? op operand = some f := by
  constructor
  · intro h
    obtain ⟨op, operand, rfl, hop⟩ := h.operator
    exact ⟨op, operand, Expression.call?_eq_some_iff.mpr ⟨isOperatorName_of_conversion hop, rfl⟩,
      conversionSource?_eq_some_iff.mpr h⟩
  · rintro ⟨op, operand, hcall, hsource⟩
    obtain ⟨-, rfl⟩ := Expression.call?_eq_some_iff.mp hcall
    exact conversionSource?_eq_some_iff.mp hsource

theorem Converts.unique {f g : String} {e : Expression} (hf : Converts f e) (hg : Converts g e) :
    f = g := by
  obtain ⟨op, operand, hcall, hsource⟩ := converts_iff_call?.mp hf
  obtain ⟨op', operand', hcall', hsource'⟩ := converts_iff_call?.mp hg
  rw [hcall] at hcall'
  cases hcall'
  rw [hsource] at hsource'
  exact Option.some.inj hsource'

theorem redundantSource?_eq_some_iff {known : String → Bool} {force : Bool} {f : String}
    {e : Expression} : redundantSource? known force e = some f ↔
      Converts f e ∧ (known f = true ∨ force = true) := by
  rw [converts_iff_call?]
  constructor
  · intro h
    unfold redundantSource? at h
    split at h
    · rename_i op operand hcall
      split at h
      · rename_i g hsource
        split at h
        · rename_i haccept
          cases h
          exact ⟨⟨op, operand, hcall, hsource⟩, by simpa using haccept⟩
        · cases h
      · cases h
    · cases h
  · rintro ⟨⟨op, operand, hcall, hsource⟩, haccept⟩
    simp only [redundantSource?, hcall, hsource, Bool.or_eq_true, haccept, if_true]

section Parts

variable (known : String → Bool) (force : Bool)

@[simp] theorem healItems_eq_map (xs : List Expression) :
    healItems known force xs = xs.map (heal known force) := by
  induction xs with
  | nil => rfl
  | cons x xs ih => rw [healItems, ih, List.map_cons]

@[simp] theorem healEntries_eq_map (es : List (String × Expression)) :
    healEntries known force es = es.map fun d => (d.1, heal known force d.2) := by
  induction es with
  | nil => rfl
  | cons d es ih => rw [healEntries, ih, List.map_cons]

@[simp] theorem heal_scalar (v : Value) : heal known force (.scalar v) = .scalar v := by
  rw [heal]

@[simp] theorem heal_fieldRef (path : String) :
    heal known force (.fieldRef path) = .fieldRef path := by
  rw [heal]

theorem heal_array (xs : List Expression) :
    heal known force (.array xs) = .array (xs.map (heal known force)) := by
  rw [heal, healItems_eq_map]

/-- The node of a mapping once its entries are healed. -/
def healedParts (es : List (String × Expression)) : Expression :=
  .keyed (es.map fun d => (d.1, heal known force d.2))

theorem heal_keyed (es : List (String × Expression)) :
    heal known force (.keyed es) = collapse known force (healedParts known force es) := by
  rw [heal, healEntries_eq_map, healedParts]

theorem healedParts_call (op : String) (x : Expression) :
    healedParts known force [(op, x)] = .keyed [(op, heal known force x)] := rfl

theorem collapse_eq_or (e : Expression) :
    collapse known force e = e ∨ ∃ f, collapse known force e = .fieldRef f ∧ Converts f e ∧
      (known f = true ∨ force = true) := by
  cases h : redundantSource? known force e with
  | none =>
    left
    rw [collapse, h]
  | some f =>
    right
    refine ⟨f, ?_, redundantSource?_eq_some_iff.mp h⟩
    rw [collapse, h]

/-- A mapping gives way to a field or keeps its entries, healed. -/
theorem heal_keyed_cases (es : List (String × Expression)) :
    heal known force (.keyed es) = healedParts known force es ∨
      ∃ f, heal known force (.keyed es) = .fieldRef f ∧ Converts f (healedParts known force es) ∧
        (known f = true ∨ force = true) := by
  rw [heal_keyed]
  exact collapse_eq_or known force (healedParts known force es)

theorem heal_eq_healedParts {es : List (String × Expression)}
    (h : ∀ f, heal known force (.keyed es) ≠ .fieldRef f) :
    heal known force (.keyed es) = healedParts known force es := by
  rcases heal_keyed_cases known force es with hc | ⟨f, hc, -⟩
  · exact hc
  · exact absurd hc (h f)

/-- Only a scalar heals to a scalar. -/
theorem heal_eq_scalar_iff {e : Expression} {v : Value} :
    heal known force e = .scalar v ↔ e = .scalar v := by
  cases e with
  | scalar w => rw [heal_scalar]
  | fieldRef path => rw [heal_fieldRef]
  | array xs => rw [heal_array]; simp
  | keyed es =>
    rcases heal_keyed_cases known force es with h | ⟨f, h, -⟩
    · rw [h, healedParts]; simp
    · rw [h]; simp

/-- A mapping with a named argument is no operator call. -/
theorem call?_eq_none_of_mem {es : List (String × Expression)} {d : String × Expression}
    (hd : d ∈ es) (hname : isOperatorName d.1 = false) : (Expression.keyed es).call? = none := by
  rw [Option.eq_none_iff_forall_ne_some]
  rintro ⟨op, operand⟩ hcall
  obtain ⟨hop, hes⟩ := Expression.call?_eq_some_iff.mp hcall
  rw [Expression.keyed.inj hes, List.mem_singleton] at hd
  rw [hd, hop] at hname
  cases hname

theorem call?_eq_none_of_find? {key : String} {es : List (String × Expression)} {e : Expression}
    (hkey : isOperatorName key = false) (h : find? key es = some e) :
    (Expression.keyed es).call? = none :=
  call?_eq_none_of_mem (Expression.mem_of_find? h) hkey

theorem not_converts_of_find? {f key : String} {es : List (String × Expression)} {e : Expression}
    (hkey : isOperatorName key = false) (h : find? key es = some e) : ¬ Converts f (.keyed es) := by
  intro hf
  obtain ⟨op, operand, hcall, -⟩ := converts_iff_call?.mp hf
  rw [call?_eq_none_of_find? hkey h] at hcall
  cases hcall

theorem collapse_eq_self {e : Expression} (h : ∀ f, ¬ Converts f e) :
    collapse known force e = e := by
  rcases collapse_eq_or known force e with hc | ⟨f, -, hf, -⟩
  · exact hc
  · exact absurd hf (h f)

theorem heal_arguments {key : String} {es : List (String × Expression)} {e : Expression}
    (hkey : isOperatorName key = false) (h : find? key es = some e) :
    heal known force (.keyed es) = healedParts known force es := by
  rw [heal_keyed]
  apply collapse_eq_self
  intro f
  apply not_converts_of_find? hkey
  rw [Expression.find?_map, h]
  rfl

/-- A conversion has no named arguments beside its operator. -/
theorem Converts.find?_eq_none {f key : String} {es : List (String × Expression)}
    (h : Converts f (.keyed es)) (hkey : isOperatorName key = false) : find? key es = none := by
  cases hfind : find? key es with
  | none => rfl
  | some e => exact absurd h (not_converts_of_find? hkey hfind)

theorem get?_collapse {key : String} (hkey : isOperatorName key = false) (e : Expression) :
    (collapse known force e).get? key = e.get? key := by
  rcases collapse_eq_or known force e with h | ⟨f, h, hf, -⟩
  · rw [h]
  · obtain ⟨op, operand, rfl, -⟩ := hf.operator
    rw [h, Expression.get?_keyed, hf.find?_eq_none hkey]
    rfl

/-- The named arguments of a healed node are the healed arguments of the node. -/
theorem get?_heal_eq_map {key : String} (hkey : isOperatorName key = false) (e : Expression) :
    (heal known force e).get? key = (e.get? key).map (heal known force) := by
  cases e with
  | scalar v => rw [heal_scalar]; rfl
  | fieldRef path => rw [heal_fieldRef]; rfl
  | array xs => rw [heal_array]; rfl
  | keyed es =>
    rw [heal_keyed, get?_collapse known force hkey, healedParts, Expression.get?_keyed,
      Expression.find?_map]
    rfl

/-- What stands under a named argument is healed in its place. -/
theorem get?_heal {key : String} {e x : Expression} (hkey : isOperatorName key = false)
    (h : e.get? key = some x) : (heal known force e).get? key = some (heal known force x) := by
  rw [get?_heal_eq_map known force hkey, h, Option.map_some]

variable {f : String}

/-- A call of any other operator stays what it is. -/
theorem heal_call {op : String} (h : op ∉ conversionOperators) (x : Expression) :
    heal known force (.keyed [(op, x)]) = .keyed [(op, heal known force x)] := by
  rw [heal_keyed, healedParts_call]
  apply collapse_eq_self
  intro f hf
  obtain ⟨op', x', he, hop⟩ := hf.operator
  rw [← (Prod.mk.inj (List.cons.inj (Expression.keyed.inj he)).1).1] at hop
  exact h hop

/-- There is nothing to heal in an operand that reads a field. -/
theorem Reads.heal_eq {e : Expression} (h : Reads f e) : heal known force e = e := by
  cases h with
  | field => exact heal_fieldRef known force f
  | text => rw [heal_call known force (by decide), heal_fieldRef]
  | textOfItem =>
    rw [heal_call known force (by decide), heal_array, List.map_cons, List.map_nil, heal_fieldRef]

/-- Healing the parts of a conversion leaves it a conversion of the same field. -/
theorem Converts.healedParts {es : List (String × Expression)} (h : Converts f (.keyed es)) :
    Converts f (healedParts known force es) := by
  cases h with
  | toDate reads =>
    refine .toDate ?_
    rwa [reads.heal_eq]
  | toDateItem reads =>
    rw [healedParts_call, heal_array, List.map_cons, List.map_nil,
      reads.heal_eq]
    exact .toDateItem reads
  | @dateFromString args e text reads =>
    rw [healedParts_call, heal_arguments known force (by decide) text]
    refine .dateFromString (e := e) ?_ reads
    rw [Expression.find?_map, text, Option.map_some, reads.heal_eq]
  | @convert args target e kind date input reads =>
    rw [healedParts_call, heal_arguments known force (by decide) input]
    have htarget : heal known force target = target := by
      match target, date with
      | .scalar v, _ => exact heal_scalar known force v
    refine .convert (e := e) ?_ date ?_ reads
    · rw [Expression.find?_map, kind, Option.map_some, htarget]
    · rw [Expression.find?_map, input, Option.map_some, reads.heal_eq]

/-- A conversion of a known field heals to the field, whatever stands in its other arguments. -/
theorem Converts.heal_eq {e : Expression} (h : Converts f e)
    (haccept : known f = true ∨ force = true) : heal known force e = .fieldRef f := by
  obtain ⟨op, operand, rfl, -⟩ := h.operator
  rw [heal_keyed, collapse, redundantSource?_eq_some_iff.mpr ⟨h.healedParts known force, haccept⟩]

/-- A conversion of any other field stays a conversion of it. -/
theorem Converts.heal {e : Expression} (h : Converts f e) (hknown : known f = false)
    (hforce : force = false) : Converts f (heal known force e) := by
  obtain ⟨op, operand, rfl, -⟩ := h.operator
  have hp := h.healedParts known force
  rw [heal_keyed]
  rcases collapse_eq_or known force (Dates.healedParts known force [(op, operand)])
    with hc | ⟨g, -, hg, haccept⟩
  · rwa [hc]
  · rw [hg.unique hp, hknown, hforce] at haccept
    simp at haccept

end Parts

end Inquiry.Dates
