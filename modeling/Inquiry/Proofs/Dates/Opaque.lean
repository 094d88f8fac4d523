import Inquiry.Proofs.Dates.Documents

/-!
# What healing sees of a tree

`blank` leaves of a tree what healing can see of it: the payload of a `$literal` call is gone, and
so is a payload beside other keys unless it is a leaf. Nothing that healing asks of a tree depends
on more.
-/
namespace Inquiry.Dates

open Expression (isLeaf)

mutual

def blank : Expression → Expression
  | .scalar v => .scalar (if isLeaf v then v else .null)
  | .fieldRef path => .fieldRef path
  | .keyed [(key, e)] => .keyed [(key, if key = "$literal" then .scalar .null else blank e)]
  | .keyed es => .keyed (blankEntries es)
  | .array xs => .array (blankItems xs)

def blankItems : List Expression → List Expression
  | [] => []
  | e :: es => blank e :: blankItems es

def blankEntries : List (String × Expression) → List (String × Expression)
  | [] => []
  | (key, e) :: es => (key, blank e) :: blankEntries es

end

theorem blankItems_eq_map (xs : List Expression) : blankItems xs = xs.map blank := by
  induction xs with
  | nil => rfl
  | cons x xs ih => rw [blankItems, ih, List.map_cons]

theorem blankEntries_eq_map (es : List (String × Expression)) :
    blankEntries es = es.map fun d => (d.1, blank d.2) := by
  induction es with
  | nil => rfl
  | cons d es ih => rw [blankEntries, ih, List.map_cons]

@[simp] theorem blank_fieldRef (path : String) : blank (.fieldRef path) = .fieldRef path := by
  rw [blank]

theorem blank_scalar (v : Value) : blank (.scalar v) = .scalar (if isLeaf v then v else .null) := by
  rw [blank]

theorem blank_array (xs : List Expression) : blank (.array xs) = .array (xs.map blank) := by
  rw [blank, blankItems_eq_map]

variable {es : List (String × Expression)}

/-- The mapping is a call of `$literal`. -/
def HoldsLiteral (es : List (String × Expression)) : Prop := es.map (·.1) = ["$literal"]

theorem HoldsLiteral.exists (h : HoldsLiteral es) : ∃ e, es = [("$literal", e)] := by
  obtain ⟨⟨key, e⟩, rfl, rfl⟩ := List.map_eq_singleton_iff.mp h
  exact ⟨e, rfl⟩

theorem HoldsLiteral.blank_eq (h : HoldsLiteral es) :
    blank (.keyed es) = .keyed [("$literal", .scalar .null)] := by
  obtain ⟨e, rfl⟩ := h.exists
  rw [blank, if_pos rfl]

theorem blank_keyed (h : ¬ HoldsLiteral es) :
    blank (.keyed es) = .keyed (es.map fun d => (d.1, blank d.2)) := by
  match es, h with
  | [], _ => rw [blank, blankEntries, List.map_nil]; simp
  | [(key, e)], h =>
    have hkey : key ≠ "$literal" := by
      rintro rfl
      exact h rfl
    rw [blank, if_neg hkey]
    rfl
  | a :: b :: es, _ =>
    rw [blank, blankEntries_eq_map]
    simp

/-- The keys tell a call of `$literal`. -/
theorem holdsLiteral_map (g : Expression → Expression) :
    HoldsLiteral (es.map fun d => (d.1, g d.2)) ↔ HoldsLiteral es := by
  rw [HoldsLiteral, HoldsLiteral, List.map_map]
  rfl

theorem blank_eq_fieldRef_iff {e : Expression} {path : String} :
    blank e = .fieldRef path ↔ e = .fieldRef path := by
  cases e with
  | scalar v => rw [blank_scalar]; simp
  | fieldRef f => rw [blank_fieldRef]
  | array xs => rw [blank_array]; simp
  | keyed es =>
    by_cases h : HoldsLiteral es
    · rw [h.blank_eq]; simp
    · rw [blank_keyed h]; simp

theorem unwrapSingle_blank (e : Expression) :
    (blank e).unwrapSingle = blank e.unwrapSingle := by
  cases e with
  | scalar v => rw [blank_scalar]; exact (blank_scalar v).symm
  | fieldRef f => rw [blank_fieldRef]; exact (blank_fieldRef f).symm
  | array xs =>
    rw [blank_array]
    match xs with
    | [] => exact (blank_array []).symm
    | [x] => rfl
    | x :: y :: xs => exact (blank_array (x :: y :: xs)).symm
  | keyed es =>
    change (blank (.keyed es)).unwrapSingle = blank (.keyed es)
    by_cases h : HoldsLiteral es
    · rw [h.blank_eq]; rfl
    · rw [blank_keyed h]; rfl

theorem call?_blank (e : Expression) : (blank e).call? =
    e.call?.map fun c => (c.1, if c.1 = "$literal" then .scalar .null else blank c.2) := by
  match e with
  | .scalar v => rw [blank_scalar]; rfl
  | .fieldRef f => rw [blank_fieldRef]; rfl
  | .array xs => rw [blank_array]; rfl
  | .keyed [] => rw [blank_keyed (by simp [HoldsLiteral])]; rfl
  | .keyed [(key, x)] =>
    rw [blank, Expression.call?, Expression.call?]
    split <;> rfl
  | .keyed (a :: b :: es) => rw [blank_keyed (by simp [HoldsLiteral])]; rfl

theorem operator?_blank (e : Expression) : (blank e).operator? = e.operator? := by
  rw [Expression.operator?, Expression.operator?, call?_blank, Option.map_map]
  rfl

theorem get?_blank {key : String} (hkey : key ≠ "$literal") (e : Expression) :
    (blank e).get? key = (e.get? key).map blank := by
  cases e with
  | scalar v => rw [blank_scalar]; rfl
  | fieldRef f => rw [blank_fieldRef]; rfl
  | array xs => rw [blank_array]; rfl
  | keyed es =>
    by_cases h : HoldsLiteral es
    · rw [h.blank_eq]
      obtain ⟨x, rfl⟩ := h.exists
      simp [hkey.symm]
    · rw [blank_keyed h, Expression.get?_keyed, Expression.get?_keyed, Expression.find?_map]

theorem exists_blank_keyed (es : List (String × Expression)) :
    ∃ ds, blank (.keyed es) = .keyed ds := by
  by_cases h : HoldsLiteral es
  · exact ⟨_, h.blank_eq⟩
  · exact ⟨_, blank_keyed h⟩

theorem call_of_blank {e x : Expression} {op : String} (h : blank e = .keyed [(op, x)])
    (hop : op ≠ "$literal") : ∃ y, e = .keyed [(op, y)] ∧ blank y = x := by
  cases e with
  | scalar v => rw [blank_scalar] at h; cases h
  | fieldRef f => rw [blank_fieldRef] at h; cases h
  | array xs => rw [blank_array] at h; cases h
  | keyed es =>
    by_cases hes : HoldsLiteral es
    · rw [hes.blank_eq] at h
      cases h
      exact absurd rfl hop
    · rw [blank_keyed hes] at h
      obtain ⟨⟨key, y⟩, rfl, hy⟩ := List.map_eq_singleton_iff.mp (Expression.keyed.inj h)
      obtain ⟨rfl, rfl⟩ := Prod.mk.inj hy
      exact ⟨y, rfl, rfl⟩

theorem item_of_blank {e : Expression} {path : String} (h : blank e = .array [.fieldRef path]) :
    e = .array [.fieldRef path] := by
  cases e with
  | scalar v => rw [blank_scalar] at h; cases h
  | fieldRef f => rw [blank_fieldRef] at h; cases h
  | array xs =>
    rw [blank_array] at h
    obtain ⟨x, rfl, hx⟩ := List.map_eq_singleton_iff.mp (Expression.array.inj h)
    rw [blank_eq_fieldRef_iff.mp hx]
  | keyed es =>
    obtain ⟨ds, hds⟩ := exists_blank_keyed es
    rw [hds] at h
    cases h

theorem reads_blank_iff {f : String} {e : Expression} : Reads f (blank e) ↔ Reads f e := by
  constructor
  · intro h
    generalize hx : blank e = x at h
    cases h with
    | field =>
      rw [blank_eq_fieldRef_iff.mp hx]
      exact .field
    | text =>
      obtain ⟨y, rfl, hy⟩ := call_of_blank hx (by decide)
      rw [blank_eq_fieldRef_iff.mp hy]
      exact .text
    | textOfItem =>
      obtain ⟨y, rfl, hy⟩ := call_of_blank hx (by decide)
      rw [item_of_blank hy]
      exact .textOfItem
  · intro h
    cases h with
    | field =>
      rw [blank_fieldRef]
      exact .field
    | text =>
      rw [blank, if_neg (by decide), blank_fieldRef]
      exact .text
    | textOfItem =>
      rw [blank, if_neg (by decide), blank_array, List.map_singleton, blank_fieldRef]
      exact .textOfItem

theorem unwrapField?_blank (e : Expression) : unwrapField? (blank e) = unwrapField? e := by
  ext f
  rw [unwrapField?_eq_some_iff, unwrapField?_eq_some_iff, reads_blank_iff]

theorem isDateTarget_blank (e : Expression) : isDateTarget (blank e) = isDateTarget e := by
  cases e with
  | scalar v =>
    rw [blank_scalar]
    cases v <;> rfl
  | fieldRef f => rw [blank_fieldRef]
  | array xs => rw [blank_array]; rfl
  | keyed es =>
    by_cases h : HoldsLiteral es
    · rw [h.blank_eq]; rfl
    · rw [blank_keyed h]; rfl

theorem conversionSource?_blank (op : String) (operand : Expression) :
    conversionSource? op (blank operand) = conversionSource? op operand := by
  unfold conversionSource?
  rw [unwrapSingle_blank, unwrapField?_blank, get?_blank (by decide), get?_blank (by decide),
    get?_blank (by decide)]
  have hfield (x : Option Expression) : (x.map blank).bind unwrapField? = x.bind unwrapField? := by
    cases x with
    | none => rfl
    | some e => exact unwrapField?_blank e
  rw [hfield, hfield]
  cases operand.get? "to" with
  | none => rfl
  | some target => rw [Option.map_some]; dsimp only; rw [isDateTarget_blank]

theorem redundantSource?_blank (known : String → Bool) (force : Bool) (e : Expression) :
    redundantSource? known force (blank e) = redundantSource? known force e := by
  unfold redundantSource?
  rw [call?_blank]
  cases e.call? with
  | none => rfl
  | some c =>
    obtain ⟨op, operand⟩ := c
    rw [Option.map_some]
    dsimp only
    by_cases hop : op = "$literal"
    · subst hop
      rfl
    · rw [if_neg hop, conversionSource?_blank]

theorem partField?_blank (operand : Expression) :
    partField? (blank operand) = partField? operand := by
  unfold partField?
  rw [unwrapSingle_blank]
  cases operand.unwrapSingle with
  | scalar v => rw [blank_scalar]; rfl
  | fieldRef f => rw [blank_fieldRef]
  | array xs => rw [blank_array]; rfl
  | keyed es =>
    obtain ⟨ds, hds⟩ := exists_blank_keyed es
    have hoperator := operator?_blank (.keyed es)
    have hdate := @get?_blank "date" (by decide) (.keyed es)
    rw [hds] at hoperator hdate ⊢
    dsimp only
    rw [hoperator, hdate]
    cases (Expression.keyed es).get? "date" with
    | none => rfl
    | some date =>
      rw [Option.map_some]
      cases date with
      | scalar v => rw [blank_scalar]
      | fieldRef f => rw [blank_fieldRef]
      | array xs => rw [blank_array]
      | keyed fields =>
        obtain ⟨gs, hgs⟩ := exists_blank_keyed fields
        rw [hgs]

theorem mismatch_blank (known : String → Bool) (stage : Nat) (path : String) (e : Expression) :
    mismatch known stage path (blank e) = mismatch known stage path e := by
  unfold mismatch
  rw [call?_blank]
  cases e.call? with
  | none => rfl
  | some c =>
    obtain ⟨op, operand⟩ := c
    rw [Option.map_some]
    dsimp only
    by_cases hop : op = "$literal"
    · subst hop
      rfl
    · rw [if_neg hop, partField?_blank]

section Yields

variable (known : String → Bool)

theorem scalarIsDate_of_not_leaf {v : Value} (h : isLeaf v = false) : scalarIsDate v = false := by
  cases v with
  | str | null | bool | int | int64 | float | moment | day => cases h
  | _ => rfl

mutual

theorem yieldsDate_blank : ∀ e, yieldsDate known (blank e) = yieldsDate known e
  | .scalar v => by
    rw [blank_scalar, yieldsDate, yieldsDate]
    cases hv : isLeaf v with
    | true => rfl
    | false => exact (scalarIsDate_of_not_leaf hv).symm
  | .fieldRef path => by rw [blank_fieldRef]
  | .array xs => by rw [blank_array]; rfl
  | .keyed [] => by rw [blank_keyed (by simp [HoldsLiteral])]; rfl
  | .keyed [(op, operand)] => by
    rw [blank]
    by_cases hop : op = "$literal"
    · subst hop
      rfl
    · rw [if_neg hop, yieldsDate, yieldsDate, ifNullYields_blank operand, condYields_blank operand,
        switchYields_blank operand, get?_blank (by decide), Option.any_map]
      congr 3
      exact funext isDateTarget_blank
  | .keyed (_ :: _ :: _) => by rw [blank_keyed (by simp [HoldsLiteral])]; rfl

theorem ifNullYields_blank : ∀ e, ifNullYields known (blank e) = ifNullYields known e
  | .scalar v => by rw [blank_scalar]; rfl
  | .fieldRef path => by rw [blank_fieldRef]
  | .array xs => by rw [blank, ifNullYields, ifNullYields, anyYields_blank xs]
  | .keyed es => by
    obtain ⟨ds, hds⟩ := exists_blank_keyed es
    rw [hds]
    rfl

theorem condYields_blank : ∀ e, condYields known (blank e) = condYields known e
  | .scalar v => by rw [blank_scalar]; rfl
  | .fieldRef path => by rw [blank_fieldRef]
  | .array [test, yes, no] => by
    rw [blank_array]
    change condYields known (.array [_, _, _]) = _
    rw [condYields, condYields, yieldsDate_blank yes, yieldsDate_blank no]
  | .array [] | .array [_] | .array [_, _] | .array (_ :: _ :: _ :: _ :: _) => by
    rw [blank_array]
    rfl
  | .keyed es => by
    by_cases h : HoldsLiteral es
    · obtain ⟨x, rfl⟩ := h.exists
      rw [h.blank_eq]
      rfl
    · rw [blank_keyed h, condYields, condYields, ← blankEntries_eq_map, keyYields_blank "then" es,
        keyYields_blank "else" es]

theorem switchYields_blank : ∀ e, switchYields known (blank e) = switchYields known e
  | .scalar v => by rw [blank_scalar]; rfl
  | .fieldRef path => by rw [blank_fieldRef]
  | .array xs => by rw [blank_array]; rfl
  | .keyed es => by
    by_cases h : HoldsLiteral es
    · obtain ⟨x, rfl⟩ := h.exists
      rw [h.blank_eq]
      rfl
    · rw [blank_keyed h, switchYields, switchYields, ← blankEntries_eq_map, branchesYield_blank es,
        keyYields_blank "default" es]

theorem anyYields_blank : ∀ xs, anyYields known (blankItems xs) = anyYields known xs
  | [] => rfl
  | x :: xs => by rw [blankItems, anyYields, anyYields, yieldsDate_blank x, anyYields_blank xs]

theorem keyYields_blank (key : String) :
    ∀ es, keyYields known key (blankEntries es) = keyYields known key es
  | [] => rfl
  | (k, e) :: es => by
    rw [blankEntries, keyYields, keyYields, yieldsDate_blank e, keyYields_blank key es]

theorem branchesYield_blank : ∀ es, branchesYield known (blankEntries es) = branchesYield known es
  | [] => rfl
  | (k, .scalar v) :: es => by
    rw [blankEntries, blank_scalar, branchesYield, branchesYield, branchesYield_blank es] <;> simp
  | (k, .fieldRef f) :: es => by
    rw [blankEntries, blank_fieldRef, branchesYield, branchesYield, branchesYield_blank es] <;> simp
  | (k, .array bs) :: es => by
    rw [blankEntries, blank, branchesYield, branchesYield, anyThenYields_blank bs,
      branchesYield_blank es]
  | (k, .keyed fields) :: es => by
    obtain ⟨ds, hds⟩ := exists_blank_keyed fields
    rw [blankEntries, hds, branchesYield, branchesYield, branchesYield_blank es] <;> simp

theorem anyThenYields_blank : ∀ bs, anyThenYields known (blankItems bs) = anyThenYields known bs
  | [] => rfl
  | .scalar v :: bs => by
    rw [blankItems, blank_scalar, anyThenYields, anyThenYields, anyThenYields_blank bs] <;> simp
  | .fieldRef f :: bs => by
    rw [blankItems, blank_fieldRef, anyThenYields, anyThenYields, anyThenYields_blank bs] <;> simp
  | .array xs :: bs => by
    rw [blankItems, blank_array, anyThenYields, anyThenYields, anyThenYields_blank bs] <;> simp
  | .keyed es :: bs => by
    by_cases h : HoldsLiteral es
    · obtain ⟨x, rfl⟩ := h.exists
      rw [blankItems, h.blank_eq, anyThenYields, anyThenYields, anyThenYields_blank bs]
      rfl
    · rw [blankItems, blank_keyed h, anyThenYields, anyThenYields, anyThenYields_blank bs,
        ← blankEntries_eq_map, keyYields_blank "then" es]

end

end Yields

theorem flag?_blank (projected : Bool) (e : Expression) :
    flag? projected (blank e) = flag? projected e := by
  unfold flag?
  cases e with
  | scalar v => rw [blank_scalar]; cases v <;> rfl
  | fieldRef path => rw [blank_fieldRef]
  | array xs => rw [blank_array]; rfl
  | keyed es =>
    obtain ⟨ds, hds⟩ := exists_blank_keyed es
    rw [hds]
    rfl

theorem judge_blank (projected : Bool) (source : String) (f : DateFields)
    (d : String × Expression) :
    judge projected source f (d.1, blank d.2) = judge projected source f d := by
  unfold judge verdict
  rw [flag?_blank, yieldsDate_blank]

theorem keepsDocuments_blank : KeepsDocuments blank where
  document es h := by
    refine blank_keyed fun hes => ?_
    obtain ⟨e, rfl⟩ := hes.exists
    cases h
  other e h := by
    cases e with
    | scalar v => rw [blank_scalar]; rfl
    | fieldRef path => rw [blank_fieldRef]; rfl
    | array xs => rw [blank_array]; rfl
    | keyed es =>
      by_cases hes : HoldsLiteral es
      · rw [hes.blank_eq]
        rfl
      · rw [blank_keyed hes, isDocument_map, h]

theorem unsetNames_blank (e : Expression) : unsetNames (blank e) = unsetNames e := by
  cases e with
  | scalar v => rw [blank_scalar]; cases v <;> rfl
  | fieldRef path => rw [blank_fieldRef]
  | array xs =>
    rw [blank_array, unsetNames, unsetNames, List.filterMap_map]
    refine List.filterMap_congr fun x _ => ?_
    dsimp only [Function.comp_apply]
    cases x with
    | scalar v => rw [blank_scalar]; cases v <;> rfl
    | fieldRef path => rw [blank_fieldRef]
    | array ys => rw [blank_array]
    | keyed es =>
      obtain ⟨ds, hds⟩ := exists_blank_keyed es
      rw [hds]
  | keyed es =>
    obtain ⟨ds, hds⟩ := exists_blank_keyed es
    rw [hds]
    rfl

end Inquiry.Dates
