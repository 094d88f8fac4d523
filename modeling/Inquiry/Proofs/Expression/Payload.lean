import Inquiry.Proofs.Expression.Canonical

/-!
# Payloads at an address

`putPayload` puts another payload into the `$literal` object that stands at an address, in a value
and in the tree that the value is read as. Reading and writing agree with it: no payload decides
whether a value can be read, and a payload stands at the same address in the value and in the tree.
-/
namespace Inquiry

/-- A change of one item, before and after a change of all items. -/
theorem map_modify {α β : Type} {f : α → α} {f' : β → β} {g : α → β} (h : ∀ x, g (f x) = f' (g x))
    (xs : List α) (i : Nat) : (xs.modify i f).map g = (xs.map g).modify i f' := by
  induction xs generalizing i with
  | nil => simp
  | cons x xs ih =>
    cases i with
    | zero => simp [h]
    | succ i => simp [ih]

namespace Value

/-- A `$literal` object with the payload `p`; any other value as it is. -/
def setPayload (p : Value) : Value → Value
  | .dict [(.str key, v)] => .dict [(.str key, if key = "$literal" then p else v)]
  | v => v

/-- The value with the payload `p` in the `$literal` object at an address, if there is one. An
address goes down by the numbers of items and entries. -/
def putPayload (p : Value) : List Nat → Value → Value
  | [], v => setPayload p v
  | i :: address, .dict es => .dict (es.modify i fun d => (d.1, putPayload p address d.2))
  | i :: address, .list xs => .list (xs.modify i (putPayload p address))
  | i :: address, .tuple xs => .tuple (xs.modify i (putPayload p address))
  | _ :: _, v => v

variable (p : Value)

/-- A leaf holds no payload. -/
theorem putPayload_leaf {v : Value} (h : Expression.isLeaf v = true) (address : List Nat) :
    putPayload p address v = v := by
  cases v with
  | list | tuple | dict => cases h
  | _ => cases address <;> rfl

theorem setPayload_of_ne {v : Value} (h : ∀ x, v ≠ .dict [(.str "$literal", x)]) :
    setPayload p v = v := by
  unfold setPayload
  split
  · rename_i key x
    have hkey : key ≠ "$literal" := by
      rintro rfl
      exact h x rfl
    rw [if_neg hkey]
  · rfl

theorem isLeaf_putPayload (address : List Nat) (v : Value) :
    Expression.isLeaf (putPayload p address v) = Expression.isLeaf v := by
  cases v with
  | dict es =>
    cases address with
    | nil =>
      change Expression.isLeaf (setPayload p (.dict es)) = _
      unfold setPayload
      split <;> rfl
    | cons i address => rfl
  | _ => cases address <;> rfl

end Value

namespace Expression

/-- The same for a tree, in which a payload is a leaf. -/
def setPayload (p : Value) : Expression → Expression
  | .keyed [(key, e)] => .keyed [(key, if key = "$literal" then .scalar p else e)]
  | .scalar v => .scalar (Value.setPayload p v)
  | e => e

/-- The tree with the payload `p` in the `$literal` call at an address, if there is one. -/
def putPayload (p : Value) : List Nat → Expression → Expression
  | [], e => setPayload p e
  | i :: address, .keyed es => .keyed (es.modify i fun d => (d.1, putPayload p address d.2))
  | i :: address, .array xs => .array (xs.modify i (putPayload p address))
  | i :: address, .scalar v => .scalar (Value.putPayload p (i :: address) v)
  | _ :: _, .fieldRef path => .fieldRef path

variable (p : Value)

@[simp] theorem putPayload_scalar (address : List Nat) (v : Value) :
    putPayload p address (.scalar v) = .scalar (Value.putPayload p address v) := by
  cases address <;> rfl

@[simp] theorem putPayload_fieldRef (address : List Nat) (path : String) :
    putPayload p address (.fieldRef path) = .fieldRef path := by
  cases address <;> rfl

/-- Only a call has its payload set. -/
theorem setPayload_keyed_of_ne {es : List (String × Expression)} (h : ∀ e, es ≠ [("$literal", e)]) :
    setPayload p (.keyed es) = .keyed es := by
  match es with
  | [] => rfl
  | [(key, e)] =>
    have hkey : key ≠ "$literal" := by
      rintro rfl
      exact h e rfl
    rw [setPayload, if_neg hkey]
  | _ :: _ :: _ => rfl

theorem setPayload_literal (e : Expression) :
    setPayload p (.keyed [("$literal", e)]) = .keyed [("$literal", .scalar p)] := rfl

theorem keys_of_ofEntries {path : String} {es : List (Value × Value)}
    {ds : List (String × Expression)} (h : ofEntries path es = .ok ds) :
    es.map (·.1) = ds.map fun d => .str d.1 := by
  induction es generalizing ds with
  | nil =>
    cases h
    rfl
  | cons d es ih =>
    obtain ⟨c, ds, hread, hds, rfl⟩ := ofEntries_cons_ok_iff.mp h
    rw [List.map_cons, List.map_cons, ih hds]
    cases hread with
    | payload v => rfl
    | value outside read => rfl

/-- Nothing but a `$literal` object is read as a tree that has a payload at its root. -/
theorem setPayload_of_ofValue {path : String} {v : Value} {e : Expression}
    (hv : ∀ x, v ≠ .dict [(.str "$literal", x)]) (h : ofValue path v = .ok e) :
    setPayload p e = e := by
  cases v with
  | dict es =>
    obtain ⟨ds, hds, rfl⟩ := ok_of_map_ok h
    refine setPayload_keyed_of_ne p fun x hx => ?_
    have hkeys := keys_of_ofEntries hds
    rw [hx] at hkeys
    obtain ⟨⟨key, y⟩, rfl, rfl⟩ := List.map_eq_singleton_iff.mp hkeys
    exact hv y rfl
  | list xs | tuple xs =>
    obtain ⟨es, -, rfl⟩ := ok_of_map_ok h
    rfl
  | str s =>
    cases h
    unfold ofText
    split <;> rfl
  | null | bool | int | int64 | float | moment | day =>
    cases h
    rfl
  | objectId | decimal128 | decimal | bytes | duration | set => cases h

theorem ofValue_setPayload (path : String) (v : Value) :
    ofValue path (Value.setPayload p v) = (ofValue path v).map (setPayload p) := by
  by_cases hv : ∃ x, v = .dict [(.str "$literal", x)]
  · obtain ⟨x, rfl⟩ := hv
    rfl
  · have hne : ∀ x, v ≠ .dict [(.str "$literal", x)] := fun x hx => hv ⟨x, hx⟩
    rw [Value.setPayload_of_ne p hne]
    cases h : ofValue path v with
    | error m => rfl
    | ok e => exact congrArg Except.ok (setPayload_of_ofValue p hne h).symm

theorem ofItems_modify {f : Value → Value} {g : Expression → Expression}
    (h : ∀ path v, ofValue path (f v) = (ofValue path v).map g) (path : String) (k : Nat)
    (xs : List Value) (i : Nat) :
    ofItems path k (xs.modify i f) = (ofItems path k xs).map (·.modify i g) := by
  induction xs generalizing k i with
  | nil =>
    rw [List.modify_nil, ofItems]
    exact congrArg Except.ok (List.modify_nil g i).symm
  | cons x xs ih =>
    cases i with
    | zero =>
      rw [List.modify_zero_cons, ofItems, ofItems, h]
      cases ofValue (indexPath path k) x with
      | error m => rfl
      | ok e => cases ofItems path (k + 1) xs <;> rfl
    | succ i =>
      rw [List.modify_succ_cons, ofItems, ofItems, ih]
      cases ofValue (indexPath path k) x with
      | error m => rfl
      | ok e => cases ofItems path (k + 1) xs <;> rfl

theorem ofEntries_modify {f : Value → Value} {g : Expression → Expression}
    (h : ∀ path v, ofValue path (f v) = (ofValue path v).map g)
    (hscalar : ∀ v, g (.scalar v) = .scalar (f v)) (path : String)
    (es : List (Value × Value)) (i : Nat) :
    ofEntries path (es.modify i fun d => (d.1, f d.2)) =
      (ofEntries path es).map (·.modify i fun d => (d.1, g d.2)) := by
  induction es generalizing i with
  | nil =>
    rw [List.modify_nil, ofEntries]
    exact congrArg Except.ok (List.modify_nil _ i).symm
  | cons d es ih =>
    obtain ⟨key, v⟩ := d
    cases key with
    | str key =>
      cases i with
      | zero =>
        rw [List.modify_zero_cons, ofEntries, ofEntries, h]
        split
        · cases ofEntries path es with
          | error m => rfl
          | ok ds => exact congrArg (fun e => Except.ok ((key, e) :: ds)) (hscalar v).symm
        · cases ofValue (joinPath path key) v with
          | error m => rfl
          | ok e => cases ofEntries path es <;> rfl
      | succ i =>
        rw [List.modify_succ_cons, ofEntries, ofEntries, ih]
        split
        · cases ofEntries path es <;> rfl
        · cases ofValue (joinPath path key) v with
          | error m => rfl
          | ok e => cases ofEntries path es <;> rfl
    | _ => cases i <;> rfl

/-- A value with another payload is read as the tree with that payload, or has the same fault. -/
theorem ofValue_putPayload (address : List Nat) (path : String) (v : Value) :
    ofValue path (Value.putPayload p address v) = (ofValue path v).map (putPayload p address) := by
  induction address generalizing path v with
  | nil => exact ofValue_setPayload p path v
  | cons i address ih =>
    cases v with
    | dict es =>
      have hes := ofEntries_modify ih (putPayload_scalar p address) path es i
      change (ofEntries path _).map Expression.keyed =
        ((ofEntries path es).map Expression.keyed).map _
      rw [hes]
      cases ofEntries path es <;> rfl
    | list xs | tuple xs =>
      have hxs := ofItems_modify ih path 0 xs i
      change (ofItems path 0 _).map Expression.array =
        ((ofItems path 0 xs).map Expression.array).map _
      rw [hxs]
      cases ofItems path 0 xs <;> rfl
    | str s =>
      change Except.ok (ofText s) = .ok (putPayload p (i :: address) (ofText s))
      unfold ofText
      split <;> rfl
    | _ => rfl

theorem toItems_eq_map (xs : List Expression) : toItems xs = xs.map toValue := by
  induction xs with
  | nil => rfl
  | cons x xs ih => rw [toItems, ih, List.map_cons]

theorem toEntries_eq_map (es : List (String × Expression)) :
    toEntries es = es.map fun d => (.str d.1, d.2.toValue) := by
  induction es with
  | nil => rfl
  | cons d es ih => rw [toEntries, ih, List.map_cons]

theorem toValue_setPayload (e : Expression) :
    (setPayload p e).toValue = Value.setPayload p e.toValue := by
  match e with
  | .scalar v => rfl
  | .fieldRef path => rfl
  | .array xs => rfl
  | .keyed [] => rfl
  | .keyed [(key, x)] =>
    by_cases hkey : key = "$literal"
    · subst hkey
      rfl
    · simp [setPayload, Value.setPayload, toValue, toEntries, hkey]
  | .keyed (_ :: _ :: _) => rfl

/-- A tree with another payload is written as the value with that payload. -/
theorem toValue_putPayload (address : List Nat) (e : Expression) :
    (putPayload p address e).toValue = Value.putPayload p address e.toValue := by
  induction address generalizing e with
  | nil => exact toValue_setPayload p e
  | cons i address ih =>
    cases e with
    | scalar v => rfl
    | fieldRef path => rfl
    | keyed es =>
      rw [putPayload, toValue, toValue, toEntries_eq_map, toEntries_eq_map, Value.putPayload]
      exact congrArg Value.dict (map_modify (fun d => by rw [ih]) es i)
    | array xs =>
      rw [putPayload, toValue, toValue, toItems_eq_map, toItems_eq_map, Value.putPayload]
      exact congrArg Value.list (map_modify ih xs i)

end Expression

namespace Stage

variable (p : Value) (i : Nat) (address : List Nat)

/-- A stage with the payload `p` at an address in its spec. -/
def putPayload (s : Stage) : Stage := ⟨s.operator, Expression.putPayload p (i :: address) s.spec⟩

/-- The spec is the only entry of a stage. -/
theorem toValue_putPayload (s : Stage) :
    (putPayload p i address s).toValue = Value.putPayload p (0 :: i :: address) s.toValue := by
  change Value.dict [(_, (Expression.putPayload p (i :: address) s.spec).toValue)] = _
  rw [Expression.toValue_putPayload]
  rfl

theorem ofValue_putPayload (index : Int) (v : Value) :
    ofValue index (Value.putPayload p (0 :: i :: address) v) =
      (ofValue index v).map (putPayload p i address) := by
  cases v with
  | dict es =>
    match es with
    | [] => rfl
    | [(key, x)] =>
      cases key with
      | str op =>
        change ofValue index (.dict [(.str op, Value.putPayload p (i :: address) x)]) = _
        rw [ofValue, ofValue]
        split
        · split
          · exact congrArg (fun e => Except.ok (Stage.mk op e)) rfl
          · rw [Expression.ofValue_putPayload]
            cases Expression.ofValue (joinPath (indexPath "" index) op) x <;> rfl
        · rfl
      | _ => rfl
    | _ :: _ :: _ => rfl
  | _ => rfl

end Stage

end Inquiry
