import Inquiry.Expression

/-!
# Parts of an expression

Induction over expression trees, the entry under a key, and the parts of a tree by their addresses. A
tree holds lists of trees, so the induction hypothesis is about every item of an array and every entry
of a mapping.
-/
namespace Inquiry.Expression

@[elab_as_elim, induction_eliminator]
theorem induction {motive : Expression → Prop}
    (scalar : ∀ v, motive (.scalar v))
    (fieldRef : ∀ path, motive (.fieldRef path))
    (keyed : ∀ es, (∀ d ∈ es, motive d.2) → motive (.keyed es))
    (array : ∀ xs, (∀ x ∈ xs, motive x) → motive (.array xs))
    (e : Expression) : motive e := by
  refine @Expression.rec motive (fun es => ∀ d ∈ es, motive d.2) (fun xs => ∀ x ∈ xs, motive x)
    (fun d => motive d.2) scalar fieldRef keyed array ?_ ?_ ?_ ?_ ?_ e
  · intro d hd
    simp at hd
  · intro d es hd hes c hc
    rcases List.mem_cons.mp hc with rfl | hc
    · exact hd
    · exact hes c hc
  · intro x hx
    simp at hx
  · intro x xs hx hxs y hy
    rcases List.mem_cons.mp hy with rfl | hy
    · exact hx
    · exact hxs y hy
  · intro _ e he
    exact he

@[simp] theorem find?_nil (key : String) : find? key [] = none := rfl

@[simp] theorem find?_cons (key : String) (d : String × Expression)
    (es : List (String × Expression)) :
    find? key (d :: es) = if d.1 = key then some d.2 else find? key es := rfl

theorem mem_of_find? {key : String} {es : List (String × Expression)} {e : Expression}
    (h : find? key es = some e) : (key, e) ∈ es := by
  induction es with
  | nil => simp at h
  | cons d es ih =>
    rw [find?_cons] at h
    split at h
    · rename_i hk
      rw [← hk, ← Option.some.inj h]
      exact List.mem_cons_self
    · exact List.mem_cons_of_mem _ (ih h)

/-- A change of the entries that keeps the keys changes what stands under a key alike. -/
theorem find?_map (f : Expression → Expression) (key : String) (es : List (String × Expression)) :
    find? key (es.map fun d => (d.1, f d.2)) = (find? key es).map f := by
  induction es with
  | nil => rfl
  | cons d es ih =>
    rw [List.map_cons, find?_cons, find?_cons, ih]
    split <;> rfl

theorem find?_append (key : String) (xs ys : List (String × Expression)) :
    find? key (xs ++ ys) = (find? key xs).or (find? key ys) := by
  induction xs with
  | nil => rfl
  | cons d xs ih =>
    rw [List.cons_append, find?_cons, find?_cons, ih]
    split <;> rfl

@[simp] theorem get?_keyed (key : String) (es : List (String × Expression)) :
    (keyed es).get? key = find? key es := rfl

/-- Only a mapping with one entry is an operator call. -/
theorem call?_eq_some_iff {e : Expression} {op : String} {operand : Expression} :
    e.call? = some (op, operand) ↔ isOperatorName op = true ∧ e = .keyed [(op, operand)] := by
  constructor
  · intro h
    match e, h with
    | .keyed [(key, x)], h =>
      rw [call?] at h
      split at h
      · rename_i hk
        cases h
        exact ⟨hk, rfl⟩
      · cases h
  · rintro ⟨hop, rfl⟩
    rw [call?, if_pos hop]

/-- The item or the entry with a number. -/
def child? : Expression → Nat → Option Expression
  | .scalar _, _ => none
  | .fieldRef _, _ => none
  | .keyed es, i => es[i]?.map (·.2)
  | .array xs, i => xs[i]?

/-- What stands at an address: the numbers of the items and the entries that lead down to it from the
root. -/
def part? : List Nat → Expression → Option Expression
  | [], e => some e
  | i :: address, e => (e.child? i).bind (part? address)

theorem part?_cons (e : Expression) (i : Nat) (address : List Nat) :
    e.part? (i :: address) = (e.child? i).bind (part? address) := rfl

theorem child?_keyed_eq_some_iff {es : List (String × Expression)} {i : Nat} {x : Expression} :
    (keyed es).child? i = some x ↔ ∃ key, es[i]? = some (key, x) := by
  rw [child?, Option.map_eq_some_iff]
  constructor
  · rintro ⟨⟨key, e⟩, hd, rfl⟩
    exact ⟨key, hd⟩
  · rintro ⟨key, hd⟩
    exact ⟨_, hd, rfl⟩

theorem exists_child?_of_find? {key : String} {es : List (String × Expression)} {e : Expression}
    (h : find? key es = some e) : ∃ i, (keyed es).child? i = some e := by
  obtain ⟨i, hi⟩ := List.mem_iff_getElem?.mp (mem_of_find? h)
  exact ⟨i, child?_keyed_eq_some_iff.mpr ⟨key, hi⟩⟩

/-- What holds of a node as soon as it holds of all parts below it holds of all trees. -/
theorem parts_induction {motive : Expression → Prop}
    (node : ∀ e, (∀ i address x, e.part? (i :: address) = some x → motive x) → motive e)
    (e : Expression) : motive e := by
  have below : ∀ e, (∀ i x, child? e i = some x → ∀ address y, x.part? address = some y → motive y) →
      ∀ address y, e.part? address = some y → motive y := by
    intro e hchildren
    have hparts : ∀ i address y, e.part? (i :: address) = some y → motive y := by
      intro i address y hy
      rw [part?_cons] at hy
      obtain ⟨x, hx, hy⟩ := Option.bind_eq_some_iff.mp hy
      exact hchildren i x hx address y hy
    intro address y hy
    cases address with
    | nil =>
      cases hy
      exact node e hparts
    | cons i address => exact hparts i address y hy
  have hall : ∀ address y, e.part? address = some y → motive y := by
    induction e with
    | scalar v => exact below _ fun _ _ hx => nomatch hx
    | fieldRef path => exact below _ fun _ _ hx => nomatch hx
    | keyed es ih =>
      refine below _ fun i x hx => ?_
      obtain ⟨key, hd⟩ := child?_keyed_eq_some_iff.mp hx
      exact ih _ (List.mem_of_getElem? hd)
    | array xs ih => exact below _ fun i x hx => ih x (List.mem_of_getElem? hx)
  exact hall [] e rfl

end Inquiry.Expression
