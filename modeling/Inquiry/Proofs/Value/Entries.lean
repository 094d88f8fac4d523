import Inquiry.Value.Basic
import Mathlib.Data.List.Basic

/-!
# Entries of JSON objects

The values of JSON, where all keys are texts, and objects with one key set or dropped: every other
key keeps what stands under it.
-/
namespace Inquiry

namespace Value

/-- All keys of an object are texts. -/
def TextKeys (es : List (Value × Value)) : Prop := ∀ e ∈ es, ∃ key, e.1 = .str key

/-- The values that JSON has. -/
inductive IsJson : Value → Prop
  | null : IsJson .null
  | bool (b : Bool) : IsJson (.bool b)
  | int (n : Int) : IsJson (.int n)
  | float (x : Float) : IsJson (.float x)
  | str (s : String) : IsJson (.str s)
  | list {xs : List Value} (items : ∀ x ∈ xs, IsJson x) : IsJson (.list xs)
  | dict {es : List (Value × Value)} (keys : TextKeys es) (members : ∀ e ∈ es, IsJson e.2) :
    IsJson (.dict es)

variable {es : List (Value × Value)} {key k : String} {v w : Value}

theorem IsJson.keys (h : IsJson (.dict es)) : TextKeys es := by
  cases h with
  | dict keys members => exact keys

theorem IsJson.members (h : IsJson (.dict es)) : ∀ e ∈ es, IsJson e.2 := by
  cases h with
  | dict keys members => exact members

theorem IsJson.items {xs : List Value} (h : IsJson (.list xs)) : ∀ x ∈ xs, IsJson x := by
  cases h with
  | list items => exact items

theorem TextKeys.all_isSome (h : TextKeys es) : es.all (fun e => e.1.str?.isSome) = true := by
  refine List.all_eq_true.mpr fun e he => ?_
  obtain ⟨key, hkey⟩ := h e he
  rw [hkey]
  rfl

theorem TextKeys.of_keys {fs : List (Value × Value)} (h : TextKeys es)
    (hkeys : fs.map (·.1) = es.map (·.1)) : TextKeys fs := by
  intro f hf
  have hmem : f.1 ∈ es.map (·.1) := hkeys ▸ List.mem_map_of_mem hf
  obtain ⟨e, he, heq⟩ := List.mem_map.mp hmem
  exact heq ▸ h e he

theorem mem_of_lookup (h : lookup key es = some v) : (.str key, v) ∈ es := by
  induction es with
  | nil => cases h
  | cons e es ih =>
    obtain ⟨k, w⟩ := e
    cases k with
    | str k =>
      rw [lookup] at h
      split at h
      · rename_i hk
        cases h
        rw [hk]
        exact List.mem_cons_self
      · exact List.mem_cons_of_mem _ (ih h)
    | _ => exact List.mem_cons_of_mem _ (ih h)

theorem IsJson.getD (h : IsJson v) (key : String) : IsJson (v.getD key) := by
  unfold Value.getD
  cases hget : v.get? key with
  | none => exact .null
  | some w =>
    match v, hget with
    | .dict es, hget => exact h.members _ (mem_of_lookup hget)

/-- Texts as keys, in the order of the entries. -/
def keyTexts (es : List (Value × Value)) : List String := es.filterMap (·.1.str?)

theorem map_keyTexts (h : TextKeys es) :
    es.map (·.1) = (keyTexts es).map .str := by
  induction es with
  | nil => rfl
  | cons e es ih =>
    obtain ⟨⟨key, hkey⟩, hes⟩ := List.forall_mem_cons.mp h
    have htexts : keyTexts (e :: es) = key :: keyTexts es := by
      rw [keyTexts, List.filterMap_cons, hkey]
      rfl
    rw [List.map_cons, htexts, List.map_cons, ih hes, hkey]

/-- The object with another value under a key, where the key stands. -/
def setEntry (key : String) (w : Value) (es : List (Value × Value)) : List (Value × Value) :=
  es.map fun e => if e.1.str? = some key then (e.1, w) else e

/-- The object without a key. -/
def dropEntry (key : String) (es : List (Value × Value)) : List (Value × Value) :=
  es.filter fun e => e.1.str? ≠ some key

theorem lookup_setEntry (hk : k ≠ key) (w : Value) (es : List (Value × Value)) :
    lookup k (setEntry key w es) = lookup k es := by
  induction es with
  | nil => rfl
  | cons e es ih =>
    obtain ⟨name, v⟩ := e
    change lookup k
      ((if name.str? = some key then (name, w) else (name, v)) :: setEntry key w es) = _
    split
    · rename_i hname
      cases name with
      | str s =>
        obtain rfl : s = key := Option.some.inj hname
        rw [lookup, lookup, if_neg hk.symm, if_neg hk.symm, ih]
      | _ => cases hname
    · cases name with
      | str s => rw [lookup, lookup, ih]
      | _ => exact ih

theorem lookup_dropEntry (hk : k ≠ key) (es : List (Value × Value)) :
    lookup k (dropEntry key es) = lookup k es := by
  induction es with
  | nil => rfl
  | cons e es ih =>
    obtain ⟨name, v⟩ := e
    unfold dropEntry at ih ⊢
    rw [List.filter_cons]
    split
    · cases name with
      | str s => rw [lookup, lookup, ih]
      | _ => exact ih
    · rename_i hname
      cases name with
      | str s =>
        have hs : s = key := by simpa [str?] using hname
        rw [hs, lookup, if_neg hk.symm, ih]
      | _ => simp [str?] at hname

theorem keys_setEntry (key : String) (w : Value) (es : List (Value × Value)) :
    (setEntry key w es).map (·.1) = es.map (·.1) := by
  rw [setEntry, List.map_map]
  refine List.map_congr_left fun e _ => ?_
  dsimp only [Function.comp_apply]
  split <;> rfl

theorem keyTexts_dropEntry (key : String) (es : List (Value × Value)) :
    keyTexts (dropEntry key es) = (keyTexts es).filter (· ≠ key) := by
  unfold keyTexts dropEntry
  rw [List.filterMap_filter, List.filter_filterMap]
  refine List.filterMap_congr fun e _ => ?_
  cases e.1.str? with
  | none => simp
  | some s => by_cases hs : s = key <;> simp [hs, Option.filter]

theorem IsJson.setEntry (h : IsJson (.dict es)) (hw : IsJson w) (key : String) :
    IsJson (.dict (setEntry key w es)) := by
  refine .dict (fun e he => ?_) fun e he => ?_
  · obtain ⟨d, hd, rfl⟩ := List.mem_map.mp he
    split <;> exact h.keys d hd
  · obtain ⟨d, hd, rfl⟩ := List.mem_map.mp he
    split
    · exact hw
    · exact h.members d hd

theorem IsJson.dropEntry (h : IsJson (.dict es)) (key : String) :
    IsJson (.dict (dropEntry key es)) :=
  .dict (fun e he => h.keys e (List.mem_filter.mp he).1)
    fun e he => h.members e (List.mem_filter.mp he).1

end Value

end Inquiry
