import Inquiry.Proofs.Expression.Tree
import Mathlib.Data.List.Forall2

/-!
# Induction on what is read

A container is read part by part. So what holds of every leaf and the tree that it is read as, and of a
container and its tree as soon as it holds of their parts, holds of every value that can be read.
-/
namespace Inquiry.Expression

theorem ok_of_map_ok {ε α β : Type} {f : α → β} {x : Except ε α} {b : β} (h : x.map f = .ok b) :
    ∃ a, x = .ok a ∧ f a = b := by
  match x, h with
  | .ok a, h => exact ⟨a, rfl, Except.ok.inj h⟩

def isContainer : Value → Bool
  | .dict _ => true
  | .list _ => true
  | .tuple _ => true
  | _ => false

/-- What holds of a container as soon as it holds of all that is right in it, and of all other values,
holds of every value. -/
@[elab_as_elim]
theorem containers_induction {motive : Value → Prop}
    (single : ∀ v, isContainer v = false → motive v)
    (dict : ∀ es, (∀ d ∈ es, motive d.2) → motive (.dict es))
    (list : ∀ xs, (∀ x ∈ xs, motive x) → motive (.list xs))
    (tuple : ∀ xs, (∀ x ∈ xs, motive x) → motive (.tuple xs)) (v : Value) : motive v := by
  induction hsize : sizeOf v using Nat.strongRecOn generalizing v with
  | ind n ih =>
    subst hsize
    cases v with
    | dict es =>
      refine dict es fun d hd => ih _ ?_ d.2 rfl
      have hmem := List.sizeOf_lt_of_mem hd
      have hentry : sizeOf d = 1 + sizeOf d.1 + sizeOf d.2 := by cases d; rfl
      have hdict : sizeOf (Value.dict es) = 1 + sizeOf es := Value.dict.sizeOf_spec es
      omega
    | list xs =>
      refine list xs fun x hx => ih _ ?_ x rfl
      have hmem := List.sizeOf_lt_of_mem hx
      have hlist : sizeOf (Value.list xs) = 1 + sizeOf xs := Value.list.sizeOf_spec xs
      omega
    | tuple xs =>
      refine tuple xs fun x hx => ih _ ?_ x rfl
      have hmem := List.sizeOf_lt_of_mem hx
      have htuple : sizeOf (Value.tuple xs) = 1 + sizeOf xs := Value.tuple.sizeOf_spec xs
      omega
    | _ => exact single _ rfl

/-- How an entry is read if its value is read as `R` tells: the payload of `$literal` is a leaf,
whatever it holds. -/
inductive EntryRead (R : String → Value → Expression → Prop) :
    Value × Value → String × Expression → Prop
  | payload (v : Value) : EntryRead R (.str "$literal", v) ("$literal", .scalar v)
  | value {key : String} {v : Value} {e : Expression} (outside : key ≠ "$literal")
    (read : R key v e) : EntryRead R (.str key, v) (key, e)

theorem EntryRead.imp {R S : String → Value → Expression → Prop} {d : Value × Value}
    {c : String × Expression} (h : EntryRead R d c) (hRS : ∀ key e, R key d.2 e → S key d.2 e) :
    EntryRead S d c := by
  cases h with
  | payload v => exact .payload v
  | value outside read => exact .value outside (hRS _ _ read)

theorem ofItems_cons_ok_iff {path : String} {i : Nat} {v : Value} {vs : List Value}
    {es : List Expression} : ofItems path i (v :: vs) = .ok es ↔
      ∃ e rest, ofValue (indexPath path i) v = .ok e ∧ ofItems path (i + 1) vs = .ok rest ∧
        es = e :: rest := by
  rw [ofItems]
  cases hv : ofValue (indexPath path i) v with
  | error m =>
    constructor
    · intro h
      cases h
    · rintro ⟨e, rest, he, -⟩
      cases he
  | ok e =>
    constructor
    · intro h
      obtain ⟨rest, hrest, rfl⟩ := ok_of_map_ok h
      exact ⟨e, rest, rfl, hrest, rfl⟩
    · rintro ⟨e', rest, he, hrest, rfl⟩
      cases he
      rw [hrest]
      rfl

theorem ofEntries_cons_ok_iff {path : String} {d : Value × Value} {es : List (Value × Value)}
    {ds : List (String × Expression)} : ofEntries path (d :: es) = .ok ds ↔
      ∃ c rest, EntryRead (fun key v e => ofValue (joinPath path key) v = .ok e) d c ∧
        ofEntries path es = .ok rest ∧ ds = c :: rest := by
  constructor
  · intro h
    unfold ofEntries at h
    split at h
    · contradiction
    · rename_i key v es' hcons
      cases hcons
      split at h
      · rename_i hkey
        subst hkey
        obtain ⟨rest, hrest, rfl⟩ := ok_of_map_ok h
        exact ⟨_, rest, .payload v, hrest, rfl⟩
      · rename_i hkey
        split at h
        · cases h
        · rename_i e he
          obtain ⟨rest, hrest, rfl⟩ := ok_of_map_ok h
          exact ⟨_, rest, .value hkey he, hrest, rfl⟩
    · cases h
  · rintro ⟨c, rest, hread, hrest, rfl⟩
    cases hread with
    | payload v =>
      rw [ofEntries, if_pos rfl, hrest]
      rfl
    | value outside read =>
      rw [ofEntries, if_neg outside, read, hrest]
      rfl

theorem forall₂_of_ofItems {path : String} {i : Nat} {vs : List Value} {es : List Expression}
    (h : ofItems path i vs = .ok es) :
    List.Forall₂ (fun v e => ∃ place, ofValue place v = .ok e) vs es := by
  induction vs generalizing i es with
  | nil =>
    cases h
    exact .nil
  | cons v vs ih =>
    obtain ⟨e, rest, he, hrest, rfl⟩ := ofItems_cons_ok_iff.mp h
    exact .cons ⟨_, he⟩ (ih hrest)

theorem forall₂_of_ofEntries {path : String} {es : List (Value × Value)}
    {ds : List (String × Expression)} (h : ofEntries path es = .ok ds) :
    List.Forall₂ (EntryRead fun key v e => ofValue (joinPath path key) v = .ok e) es ds := by
  induction es generalizing ds with
  | nil =>
    cases h
    exact .nil
  | cons d es ih =>
    obtain ⟨c, rest, hread, hrest, rfl⟩ := ofEntries_cons_ok_iff.mp h
    exact .cons hread (ih hrest)

/-- What holds of the leaves, and of the containers as soon as it holds of their parts, holds of all
values that can be read. -/
theorem ofValue_induction {motive : Value → Expression → Prop}
    (text : ∀ s, motive (.str s) (ofText s))
    (leaf : ∀ v, isLeaf v = true → (∀ s, v ≠ .str s) → motive v (.scalar v))
    (sequence : ∀ xs es, List.Forall₂ motive xs es →
      motive (.list xs) (.array es) ∧ motive (.tuple xs) (.array es))
    (mapping : ∀ es ds, List.Forall₂ (EntryRead fun _ => motive) es ds →
      motive (.dict es) (.keyed ds))
    {path : String} {v : Value} {e : Expression} (h : ofValue path v = .ok e) : motive v e := by
  -- The items of a sequence are read at places of their own.
  have items {xs : List Value} {es : List Expression} {path : String}
      (ih : ∀ x ∈ xs, ∀ {path e}, ofValue path x = .ok e → motive x e)
      (hes : ofItems path 0 xs = .ok es) : List.Forall₂ motive xs es :=
    ((List.forall₂_and_left _ _).mpr ⟨ih, forall₂_of_ofItems hes⟩).imp
      fun x e ⟨hx, place, he⟩ => hx he
  induction v using containers_induction generalizing path e with
  | single v hv =>
    cases v with
    | str s =>
      cases h
      exact text s
    | null | bool | int | int64 | float | moment | day =>
      cases h
      exact leaf _ rfl (by simp)
    | objectId | decimal128 | decimal | bytes | duration | set => cases h
    | dict | list | tuple => cases hv
  | dict es ih =>
    obtain ⟨ds, hds, rfl⟩ := ok_of_map_ok h
    refine mapping es ds (((List.forall₂_and_left _ _).mpr ⟨ih, forall₂_of_ofEntries hds⟩).imp ?_)
    rintro d c ⟨hd, hread⟩
    exact hread.imp fun key e he => hd he
  | list xs ih =>
    obtain ⟨es, hes, rfl⟩ := ok_of_map_ok h
    exact (sequence xs es (items ih hes)).1
  | tuple xs ih =>
    obtain ⟨es, hes, rfl⟩ := ok_of_map_ok h
    exact (sequence xs es (items ih hes)).2

end Inquiry.Expression
