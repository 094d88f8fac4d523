import Inquiry.Recommendation.Clock

/-!
# The slots of a cache

What each operation does to the slots: a put adds one at the end after it may have dropped one, and
a read or a sweep only removes. Under a clock of values an operation that succeeds is the cache's own.
-/
namespace Inquiry

/-- What goes on from another computation succeeds only if both do. -/
theorem bind_eq_ok_iff {ε α β : Type} {x : Except ε α} {f : α → Except ε β} {b : β} :
    x >>= f = .ok b ↔ ∃ a, x = .ok a ∧ f a = .ok b := by
  cases x with
  | error e => simp [bind, Except.bind]
  | ok a => simp [bind, Except.bind]

namespace Recommendation.Cache

section Slots

variable {T : Type} {c : Cache T} {id : String}

theorem without_sublist (slots : List (Slot T)) (id : String) :
    (without slots id).Sublist slots :=
  List.eraseP_sublist

theorem slot?_eq_some {s : Slot T} (h : c.slot? id = some s) : s ∈ c.slots ∧ s.id = id := by
  refine ⟨List.mem_of_find?_eq_some h, ?_⟩
  simpa using List.find?_some h

variable [LT T] [DecidableLT T]

theorem earlier_cases (best s : Slot T) : earlier best s = best ∨ earlier best s = s := by
  unfold earlier
  split
  · exact Or.inr rfl
  · exact Or.inl rfl

theorem foldl_earlier_mem (s : Slot T) (rest : List (Slot T)) :
    rest.foldl earlier s ∈ s :: rest := by
  induction rest generalizing s with
  | nil => exact List.mem_cons_self
  | cons s' rest ih =>
    rw [List.foldl_cons]
    rcases earlier_cases s s' with heq | heq
    · rw [heq]
      exact List.mem_cons.mpr ((List.mem_cons.mp (ih s)).imp_right (List.mem_cons_of_mem s'))
    · rw [heq]
      exact List.mem_cons_of_mem s (ih s')

theorem oldest?_mem {slots : List (Slot T)} {s : Slot T} (h : oldest? slots = some s) :
    s ∈ slots := by
  cases slots with
  | nil => cases h
  | cons s' rest => exact Option.some.inj h ▸ foldl_earlier_mem s' rest

theorem dropOldest_sublist (slots : List (Slot T)) : (dropOldest slots).Sublist slots := by
  unfold dropOldest
  split
  · exact List.nil_sublist slots
  · exact without_sublist slots _

/-- The oldest slot of a cache that is not empty goes, and no other one. -/
theorem length_dropOldest (slots : List (Slot T)) :
    (dropOldest slots).length = slots.length - 1 := by
  unfold dropOldest
  cases h : oldest? slots with
  | none =>
    cases slots with
    | nil => rfl
    | cons s rest => cases h
  | some s => exact List.length_eraseP_of_mem (oldest?_mem h) (decide_eq_true rfl)

/-- What a put leaves of the slots before it adds its own. -/
def kept (c : Cache T) : List (Slot T) :=
  if c.capacity ≤ c.size then dropOldest c.slots else c.slots

theorem put_slots (c : Cache T) (id : String) (entry : Recommendation) (now : T) :
    (c.put id entry now).slots = c.kept ++ [⟨id, entry, now⟩] := rfl

theorem kept_sublist (c : Cache T) : c.kept.Sublist c.slots := by
  unfold kept
  split
  · exact dropOldest_sublist c.slots
  · exact List.Sublist.refl c.slots

theorem mem_put {entry : Recommendation} {now : T} {s : Slot T}
    (h : s ∈ (c.put id entry now).slots) : s ∈ c.slots ∨ s = ⟨id, entry, now⟩ := by
  rw [put_slots] at h
  rcases List.mem_append.mp h with h | h
  · exact Or.inl (c.kept_sublist.subset h)
  · exact Or.inr (List.mem_singleton.mp h)

variable [Sub T]

theorem get_slots_sublist (c : Cache T) (id : String) (now : T) :
    (c.get id now).1.slots.Sublist c.slots := by
  unfold get
  split
  · exact List.Sublist.refl c.slots
  · split
    · exact without_sublist c.slots id
    · exact List.Sublist.refl c.slots

theorem sweep_slots (c : Cache T) (now : T) :
    (c.sweep now).1.slots = c.slots.filter fun s => !c.isExpired now s := rfl

theorem sweep_slots_sublist (c : Cache T) (now : T) :
    (c.sweep now).1.slots.Sublist c.slots :=
  List.filter_sublist

/-- A read succeeds with the entry of the slot under the id, unless it has expired. -/
theorem get_eq_some_iff {now : T} {entry : Recommendation} :
    (c.get id now).2 = some entry ↔
      ∃ s, c.slot? id = some s ∧ c.isExpired now s = false ∧ s.entry = entry := by
  unfold get
  cases h : c.slot? id with
  | none => simp
  | some s =>
    cases hs : c.isExpired now s with
    | true => simp [hs]
    | false => simp [hs]

end Slots

variable {c c' : Cache Value} {now : Value}

theorem eq_put_of_putAt {id : String} {entry : Recommendation}
    (h : c.putAt id entry now = .ok c') : c' = c.put id entry now := by
  unfold putAt at h
  split at h
  · exact (Except.ok.inj h).symm
  · split at h
    · cases h
    · exact (Except.ok.inj h).symm

theorem eq_of_asKey {v w : Value} (h : Rows.asKey v = .ok w) : w = v := by
  unfold Rows.asKey at h
  split at h
  · cases h
  · exact (Except.ok.inj h).symm

/-- Reading a text fails only if the age of the slot under it cannot be told. -/
theorem readAt_str (c : Cache Value) (id : String) (now : Value) :
    c.readAt (.str id) now =
      ((c.slot? id).bind (c.ageDefect? now)).elim (.ok (c.get id now)) .error := by
  simp only [readAt, Rows.asKey_str, bind, Except.bind, Value.str?, Option.bind_some]
  cases (c.slot? id).bind (c.ageDefect? now) with
  | none => rfl
  | some d => rfl

theorem eq_get_of_readAt {id : String} {found : Option Recommendation}
    (h : c.readAt (.str id) now = .ok (c', found)) : (c', found) = c.get id now := by
  rw [readAt_str] at h
  cases hage : (c.slot? id).bind (c.ageDefect? now) with
  | none =>
    rw [hage] at h
    exact (Except.ok.inj h).symm
  | some d =>
    rw [hage] at h
    cases h

/-- What is no text finds nothing. -/
theorem readAt_of_str?_eq_none {key : Value} (hkey : key.str? = none) (c : Cache Value)
    (now : Value) :
    c.readAt key now =
      (Rows.asKey key).map fun _ => ({ c with misses := c.misses + 1 }, none) := by
  unfold readAt
  cases hname : Rows.asKey key with
  | error d => rfl
  | ok name =>
    obtain rfl := eq_of_asKey hname
    simp [bind, Except.bind, Except.map, hkey]

theorem readAt_slots_sublist {id : Value} {found : Option Recommendation}
    (h : c.readAt id now = .ok (c', found)) : c'.slots.Sublist c.slots := by
  cases hid : id.str? with
  | none =>
    rw [readAt_of_str?_eq_none hid] at h
    cases hkey : Rows.asKey id with
    | error d =>
      rw [hkey] at h
      cases h
    | ok key =>
      rw [hkey] at h
      cases h
      exact List.Sublist.refl c.slots
  | some name =>
    cases id with
    | str s =>
      rw [show c' = (c.get s now).1 from congrArg Prod.fst (eq_get_of_readAt h)]
      exact get_slots_sublist c s now
    | _ => cases hid

theorem eq_sweep_of_sweepAt {removed : Nat} (h : c.sweepAt now = .ok (c', removed)) :
    (c', removed) = c.sweep now := by
  unfold sweepAt at h
  split at h
  · cases h
  · exact (Except.ok.inj h).symm

end Recommendation.Cache

end Inquiry
