import Inquiry.Proofs.Expression.Canonical

/-!
# What can be read as a stage

Reading fails on the shape of a value alone: `Readable` and `Stage.Formed` tell which shapes have a
tree. The place where a value stands changes nothing but the place in the message, so a stage that is
read with another index gives the same tree or the same fault with that index.
-/
namespace Inquiry

namespace Expression

/-- Outside the payloads of `$literal` all keys are texts and all leaves stand for themselves. -/
inductive Readable : Value → Prop
  | leaf {v} (leaf : isLeaf v = true) : Readable v
  | list {xs} (items : ∀ x ∈ xs, Readable x) : Readable (.list xs)
  | tuple {xs} (items : ∀ x ∈ xs, Readable x) : Readable (.tuple xs)
  | dict {es} (keys : ∀ d ∈ es, ∃ key, d.1 = .str key)
      (values : ∀ d ∈ es, d.1 ≠ .str "$literal" → Readable d.2) : Readable (.dict es)

theorem readable_of_ofValue {path : String} {v : Value} {e : Expression}
    (h : ofValue path v = .ok e) : Readable v := by
  refine ofValue_induction (motive := fun v _ => Readable v) (fun _ => .leaf rfl)
    (fun _ hleaf _ => .leaf hleaf) ?_ ?_ h
  · intro xs _ hes
    have hall : ∀ x ∈ xs, Readable x := by
      induction hes with
      | nil => exact List.forall_mem_nil _
      | cons hx _ ih => exact List.forall_mem_cons.mpr ⟨hx, ih⟩
    exact ⟨.list hall, .tuple hall⟩
  · intro es _ hds
    have hall : ∀ d ∈ es, (∃ key, d.1 = .str key) ∧ (d.1 ≠ .str "$literal" → Readable d.2) := by
      induction hds with
      | nil => exact List.forall_mem_nil _
      | cons hd _ ih =>
        refine List.forall_mem_cons.mpr ⟨?_, ih⟩
        cases hd with
        | payload v => exact ⟨⟨_, rfl⟩, fun hne => absurd rfl hne⟩
        | value outside read => exact ⟨⟨_, rfl⟩, fun _ => read⟩
    exact .dict (fun d hd => (hall d hd).1) fun d hd => (hall d hd).2

theorem ofItems_ok {xs : List Value} (h : ∀ x ∈ xs, ∀ path, ∃ e, ofValue path x = .ok e)
    (path : String) (i : Nat) : ∃ es, ofItems path i xs = .ok es := by
  induction xs generalizing i with
  | nil => exact ⟨[], rfl⟩
  | cons x xs ih =>
    obtain ⟨hx, hxs⟩ := List.forall_mem_cons.mp h
    obtain ⟨e, he⟩ := hx (indexPath path i)
    obtain ⟨es, hes⟩ := ih hxs (i + 1)
    exact ⟨e :: es, ofItems_cons_ok_iff.mpr ⟨e, es, he, hes, rfl⟩⟩

theorem ofEntries_ok {es : List (Value × Value)} (keys : ∀ d ∈ es, ∃ key, d.1 = .str key)
    (h : ∀ d ∈ es, d.1 ≠ .str "$literal" → ∀ path, ∃ e, ofValue path d.2 = .ok e)
    (path : String) : ∃ ds, ofEntries path es = .ok ds := by
  induction es with
  | nil => exact ⟨[], rfl⟩
  | cons d es ih =>
    obtain ⟨k, v⟩ := d
    obtain ⟨⟨key, hkey⟩, hkeys⟩ := List.forall_mem_cons.mp keys
    obtain ⟨hv, hvs⟩ := List.forall_mem_cons.mp h
    obtain rfl : k = .str key := hkey
    obtain ⟨ds, hds⟩ := ih hkeys hvs
    by_cases hliteral : key = "$literal"
    · subst hliteral
      exact ⟨_, ofEntries_cons_ok_iff.mpr ⟨_, ds, .payload v, hds, rfl⟩⟩
    · obtain ⟨e, he⟩ := hv (fun heq => hliteral (Value.str.inj heq)) (joinPath path key)
      exact ⟨_, ofEntries_cons_ok_iff.mpr ⟨_, ds, .value hliteral he, hds, rfl⟩⟩

theorem ofValue_of_isLeaf {v : Value} (h : isLeaf v = true) (path : String) :
    ∃ e, ofValue path v = .ok e := by
  cases v with
  | str s => exact ⟨_, rfl⟩
  | null | bool | int | int64 | float | moment | day => exact ⟨_, rfl⟩
  | objectId | decimal128 | decimal | bytes | duration | list | tuple | set | dict => cases h

theorem Readable.ofValue {v : Value} (h : Readable v) (path : String) :
    ∃ e, ofValue path v = .ok e := by
  induction h generalizing path with
  | leaf leaf => exact ofValue_of_isLeaf leaf path
  | list _ ih =>
    obtain ⟨es, hes⟩ := ofItems_ok ih path 0
    exact ⟨.array es, by rw [Expression.ofValue, hes]; rfl⟩
  | tuple _ ih =>
    obtain ⟨es, hes⟩ := ofItems_ok ih path 0
    exact ⟨.array es, by rw [Expression.ofValue, hes]; rfl⟩
  | dict keys _ ih =>
    obtain ⟨ds, hds⟩ := ofEntries_ok keys ih path
    exact ⟨.keyed ds, by rw [Expression.ofValue, hds]; rfl⟩

theorem ofValue_ok_iff {path : String} {v : Value} :
    (∃ e, ofValue path v = .ok e) ↔ Readable v :=
  ⟨fun ⟨_, he⟩ => readable_of_ofValue he, fun h => h.ofValue path⟩

end Expression

namespace Stage

/-- A mapping with one key, which names an operator, over a spec that can be read. -/
def Formed (v : Value) : Prop :=
  ∃ op spec, v = .dict [(.str op, spec)] ∧ isOperatorName op = true ∧
    (op = "$literal" ∨ Expression.Readable spec)

theorem ofValue_ok_iff {index : Int} {v : Value} :
    (∃ s, ofValue index v = .ok s) ↔ Formed v := by
  constructor
  · rintro ⟨s, hs⟩
    unfold ofValue at hs
    split at hs
    · split at hs
      · rename_i op
        split at hs
        · rename_i hop
          split at hs
          · rename_i hliteral
            exact ⟨op, _, rfl, hop, Or.inl hliteral⟩
          · obtain ⟨spec, hspec, -⟩ := Expression.ok_of_map_ok hs
            exact ⟨op, _, rfl, hop, Or.inr (Expression.readable_of_ofValue hspec)⟩
        · cases hs
      · cases hs
    · cases hs
    · cases hs
  · rintro ⟨op, spec, rfl, hop, hspec⟩
    rw [ofValue, if_pos hop]
    by_cases hliteral : op = "$literal"
    · rw [if_pos hliteral]
      exact ⟨_, rfl⟩
    · obtain ⟨e, he⟩ := (hspec.resolve_left hliteral).ofValue (joinPath (indexPath "" index) op)
      rw [if_neg hliteral, he]
      exact ⟨_, rfl⟩

theorem ofValue_error_iff {index : Int} {v : Value} :
    (∃ m, ofValue index v = .error m) ↔ ¬ Formed v := by
  rw [← @ofValue_ok_iff index v]
  cases ofValue index v <;> simp

theorem operator_of_ofValue {index : Int} {v : Value} {s : Stage} (h : ofValue index v = .ok s) :
    ∃ spec, v = .dict [(.str s.operator, spec)] ∧ isOperatorName s.operator = true := by
  unfold ofValue at h
  split at h
  · split at h
    · split at h
      · rename_i hop
        split at h
        · cases h
          exact ⟨_, rfl, hop⟩
        · obtain ⟨spec, -, rfl⟩ := Expression.ok_of_map_ok h
          exact ⟨_, rfl, hop⟩
      · cases h
    · cases h
  · cases h
  · cases h

end Stage

/-- Two outcomes that are the same up to their faults. -/
inductive UpTo (faults : Malformed → Malformed → Prop) {α : Type} :
    Except Malformed α → Except Malformed α → Prop
  | ok (a : α) : UpTo faults (.ok a) (.ok a)
  | error {m m' : Malformed} (fault : faults m m') : UpTo faults (.error m) (.error m')

theorem UpTo.map {faults : Malformed → Malformed → Prop} {α β : Type}
    {x y : Except Malformed α} (h : UpTo faults x y) (f : α → β) :
    UpTo faults (x.map f) (y.map f) := by
  cases h with
  | ok a => exact .ok (f a)
  | error fault => exact .error fault

theorem UpTo.mono {faults faults' : Malformed → Malformed → Prop} {α : Type}
    {x y : Except Malformed α} (h : UpTo faults x y) (hle : ∀ m m', faults m m' → faults' m m') :
    UpTo faults' x y := by
  cases h with
  | ok a => exact .ok a
  | error fault => exact .error (hle _ _ fault)

/-- The same fault, of a stage that stands `n` places later. -/
inductive Malformed.Moved (n : Nat) : Malformed → Malformed → Prop
  | notStage (i : Nat) (typeName : String) :
      Moved n (.notStage i typeName) (.notStage ((n + i : Nat) : Int) typeName)
  | operatorCount (i : Nat) (keys : List Value) :
      Moved n (.operatorCount i keys) (.operatorCount ((n + i : Nat) : Int) keys)
  | notOperator (i : Nat) (key : Value) :
      Moved n (.notOperator i key) (.notOperator ((n + i : Nat) : Int) key)
  /-- What follows the index in the path is the same. -/
  | keyNotText (i : Nat) (below : String) (key : Value) :
      Moved n (.keyNotText (indexPath "" i ++ below) key)
        (.keyNotText (indexPath "" ((n + i : Nat) : Int) ++ below) key)
  | unsupported (i : Nat) (below typeName : String) :
      Moved n (.unsupported (indexPath "" i ++ below) typeName)
        (.unsupported (indexPath "" ((n + i : Nat) : Int) ++ below) typeName)

namespace Expression

/-- The same fault below another place. -/
inductive MovedBelow (place place' : String) : Malformed → Malformed → Prop
  | keyNotText (below : String) (key : Value) :
      MovedBelow place place' (.keyNotText (place ++ below) key) (.keyNotText (place' ++ below) key)
  | unsupported (below typeName : String) :
      MovedBelow place place' (.unsupported (place ++ below) typeName)
        (.unsupported (place' ++ below) typeName)

theorem joinPath_append {place : String} (h : place ≠ "") (below key : String) :
    joinPath (place ++ below) key = place ++ (below ++ "." ++ key) := by
  have hne : (place ++ below).isEmpty = false := by
    rw [Bool.eq_false_iff, ne_eq, String.isEmpty_iff, String.append_eq_empty_iff]
    exact fun hempty => h hempty.1
  rw [joinPath, hne]
  simp only [Bool.false_eq_true, if_false, String.append_assoc]

theorem indexPath_append (place below : String) (i : Int) :
    indexPath (place ++ below) i = place ++ indexPath below i := by
  simp only [indexPath, String.append_assoc]

mutual

theorem ofValue_moved {place place' : String} (h : place ≠ "") (h' : place' ≠ "") :
    ∀ (below : String) (v : Value),
      UpTo (MovedBelow place place') (ofValue (place ++ below) v) (ofValue (place' ++ below) v)
  | below, .dict es => (ofEntries_moved h h' below es).map Expression.keyed
  | below, .list xs => (ofItems_moved h h' below 0 xs).map Expression.array
  | below, .tuple xs => (ofItems_moved h h' below 0 xs).map Expression.array
  | _, .str _ | _, .null | _, .bool _ | _, .int _ | _, .int64 _ | _, .float _ | _, .moment _
  | _, .day _ => .ok _
  | below, .objectId _ | below, .decimal128 _ | below, .decimal _ | below, .bytes _
  | below, .duration _ | below, .set _ => .error (.unsupported below _)

theorem ofItems_moved {place place' : String} (h : place ≠ "") (h' : place' ≠ "") :
    ∀ (below : String) (i : Nat) (vs : List Value), UpTo (MovedBelow place place')
      (ofItems (place ++ below) i vs) (ofItems (place' ++ below) i vs)
  | _, _, [] => .ok []
  | below, i, v :: vs => by
    have hv := ofValue_moved h h' (indexPath below i) v
    rw [ofItems, ofItems, indexPath_append, indexPath_append]
    generalize ofValue (place ++ indexPath below i) v = x at hv
    generalize ofValue (place' ++ indexPath below i) v = y at hv
    cases hv with
    | ok e => exact (ofItems_moved h h' below (i + 1) vs).map (e :: ·)
    | error fault => exact .error fault

theorem ofEntries_moved {place place' : String} (h : place ≠ "") (h' : place' ≠ "") :
    ∀ (below : String) (es : List (Value × Value)), UpTo (MovedBelow place place')
      (ofEntries (place ++ below) es) (ofEntries (place' ++ below) es)
  | _, [] => .ok []
  | below, (.str key, v) :: es => by
    have hes := ofEntries_moved h h' below es
    rw [ofEntries, ofEntries]
    split
    · exact hes.map ((key, .scalar v) :: ·)
    · have hv := ofValue_moved h h' (below ++ "." ++ key) v
      rw [joinPath_append h, joinPath_append h']
      generalize ofValue (place ++ (below ++ "." ++ key)) v = x at hv
      generalize ofValue (place' ++ (below ++ "." ++ key)) v = y at hv
      cases hv with
      | ok e => exact hes.map ((key, e) :: ·)
      | error fault => exact .error fault
  | below, (.null, _) :: _ | below, (.bool _, _) :: _ | below, (.int _, _) :: _
  | below, (.int64 _, _) :: _ | below, (.float _, _) :: _ | below, (.moment _, _) :: _
  | below, (.day _, _) :: _ | below, (.objectId _, _) :: _ | below, (.decimal128 _, _) :: _
  | below, (.decimal _, _) :: _ | below, (.bytes _, _) :: _ | below, (.duration _, _) :: _
  | below, (.list _, _) :: _ | below, (.tuple _, _) :: _ | below, (.set _, _) :: _
  | below, (.dict _, _) :: _ => .error (.keyNotText below _)

end

/-- What can be read somewhere reads the same everywhere else. -/
theorem ofValue_elsewhere {path path' : String} (hpath : path ≠ "") (hpath' : path' ≠ "")
    {v : Value} {e : Expression} (h : ofValue path v = .ok e) : ofValue path' v = .ok e := by
  have hmoved := ofValue_moved hpath hpath' "" v
  rw [String.append_empty, String.append_empty, h] at hmoved
  generalize ofValue path' v = x at hmoved ⊢
  cases hmoved
  rfl

theorem indexPath_ne_empty (path : String) (i : Int) : indexPath path i ≠ "" := by
  unfold indexPath
  simp

theorem joinPath_ne_empty {path : String} (h : path ≠ "") (key : String) :
    joinPath path key ≠ "" := by
  have hjoin := joinPath_append h "" key
  rw [String.append_empty] at hjoin
  rw [hjoin]
  simp [h]

theorem length_of_ofItems {path : String} {i : Nat} {vs : List Value} {es : List Expression}
    (h : ofItems path i vs = .ok es) : es.length = vs.length :=
  (forall₂_of_ofItems h).length_eq.symm

/-- The parts of what is read are what the parts are read as. -/
theorem ofItems_getElem? {path : String} {i k : Nat} {vs : List Value} {es : List Expression}
    {v : Value} (h : ofItems path i vs = .ok es) (hv : vs[k]? = some v) :
    ∃ e, es[k]? = some e ∧ ofValue (indexPath path ((i + k : Nat) : Int)) v = .ok e := by
  induction vs generalizing i k es with
  | nil => simp at hv
  | cons w vs ih =>
    obtain ⟨e, es, he, hes, rfl⟩ := ofItems_cons_ok_iff.mp h
    cases k with
    | zero =>
      cases hv
      exact ⟨e, rfl, he⟩
    | succ k =>
      obtain ⟨x, hx, hread⟩ := ih hes (k := k) hv
      exact ⟨x, hx, by rwa [Nat.add_assoc, Nat.add_comm 1] at hread⟩

theorem ofEntries_getElem? {path key : String} {j : Nat} {es : List (Value × Value)}
    {ds : List (String × Expression)} {v : Value} (h : ofEntries path es = .ok ds)
    (hv : es[j]? = some (.str key, v)) (hkey : key ≠ "$literal") :
    ∃ e, ds[j]? = some (key, e) ∧ ofValue (joinPath path key) v = .ok e := by
  induction es generalizing j ds with
  | nil => simp at hv
  | cons d es ih =>
    obtain ⟨c, ds, hread, hds, rfl⟩ := ofEntries_cons_ok_iff.mp h
    cases j with
    | zero =>
      cases hv
      cases hread with
      | payload => exact absurd rfl hkey
      | value outside read => exact ⟨_, rfl, read⟩
    | succ j => exact ih (j := j) hds hv

end Expression

namespace Stage

open Expression (indexPath_ne_empty joinPath_ne_empty)

/-- What can be read as a stage is read as the tree of this stage inside of another one. -/
theorem ofValue_toExpression {index : Int} {v : Value} {s : Stage} (h : ofValue index v = .ok s)
    {path : String} (hpath : path ≠ "") : Expression.ofValue path v = .ok s.toExpression := by
  obtain ⟨op, spec⟩ := s
  obtain ⟨w, rfl, hop⟩ := operator_of_ofValue h
  dsimp only at h hop ⊢
  rw [ofValue, if_pos hop] at h
  rw [Expression.ofValue, Expression.ofEntries]
  split at h
  · rename_i hliteral
    cases h
    rw [if_pos hliteral, Expression.ofEntries]
    rfl
  · rename_i hliteral
    obtain ⟨e, he, hs⟩ := Expression.ok_of_map_ok h
    cases hs
    rw [if_neg hliteral, Expression.ofValue_elsewhere
      (joinPath_ne_empty (indexPath_ne_empty "" index) _) (joinPath_ne_empty hpath _) he,
      Expression.ofEntries]
    rfl

/-- A stage that stands `n` places later reads the same, or has the same fault there. -/
theorem ofValue_moved (n i : Nat) (v : Value) :
    UpTo (Malformed.Moved n) (ofValue i v) (ofValue ((n + i : Nat) : Int) v) := by
  unfold ofValue
  split
  · rename_i key spec
    split
    · rename_i op
      split
      · split
        · exact .ok _
        · have hspec := Expression.ofValue_moved (indexPath_ne_empty "" i)
            (indexPath_ne_empty "" ((n + i : Nat) : Int)) ("." ++ op) spec
          have hjoin (j : Int) : joinPath (indexPath "" j) op = indexPath "" j ++ ("." ++ op) := by
            have happend := Expression.joinPath_append (indexPath_ne_empty "" j) "" op
            rwa [String.append_empty, String.empty_append] at happend
          rw [hjoin, hjoin]
          refine (hspec.mono ?_).map _
          rintro m m' (⟨below, key⟩ | ⟨below, typeName⟩)
          · exact .keyNotText i below key
          · exact .unsupported i below typeName
      · exact .error (.notOperator i _)
    · exact .error (.notOperator i _)
  · exact .error (.operatorCount i _)
  · exact .error (.notStage i _)

end Stage

end Inquiry
