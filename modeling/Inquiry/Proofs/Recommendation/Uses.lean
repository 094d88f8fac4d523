import Inquiry.Proofs.Recommendation.Lifetime

/-!
# Uses of a cache, and how many entries it holds

Under a clock of values a use of a cache is the cache's own operation, or it is refused and leaves the
cache as it is. An entry is added only after a full cache has given up another one, so the entries are
never more than the cache has room for. The one exception is a cache with room for none: it has nothing
to give up, and keeps the entry all the same.
-/
namespace Inquiry.Recommendation

/-- What comes of a use. -/
inductive Outcome where
  | stored
  | found (entry : Recommendation)
  | missed
  | swept (removed : Nat)
  | cleared (removed : Nat)
  /-- An age, or which of two times is the earlier one, cannot be told. -/
  | refused (reason : Defect)

namespace Cache

section Size

variable {T : Type} [LT T] [DecidableLT T]

theorem size_kept (c : Cache T) :
    c.kept.length = if c.capacity ≤ c.size then c.size - 1 else c.size := by
  unfold kept
  split
  · exact length_dropOldest c.slots
  · rfl

theorem size_put (c : Cache T) (id : String) (entry : Recommendation) (now : T) :
    (c.put id entry now).size = (if c.capacity ≤ c.size then c.size - 1 else c.size) + 1 := by
  rw [← size_kept]
  exact List.length_append

variable [Sub T] {c : Cache T}

/-- No use takes a cache beyond its capacity, or beyond one entry. -/
theorem size_step_le (h : (c.size : Int) ≤ max c.capacity 1) (op : Op T) :
    ((c.step op).size : Int) ≤ max c.capacity 1 := by
  have hsublist {slots : List (Slot T)} (hslots : slots.Sublist c.slots) :
      (slots.length : Int) ≤ max c.capacity 1 := by
    have hle := hslots.length_le
    unfold size at h
    omega
  cases op with
  | put id entry now =>
    have hput := c.size_put id entry now
    change ((c.put id entry now).size : Int) ≤ _
    split at hput <;> omega
  | get id now => exact hsublist (get_slots_sublist c id now)
  | sweep now => exact hsublist (sweep_slots_sublist c now)
  | clear => exact hsublist (List.nil_sublist c.slots)

/-- What comes of the cache's own operation. -/
def outcome (c : Cache T) : Op T → Outcome
  | .put _ _ _ => .stored
  | .get id now =>
    match (c.get id now).2 with
    | some entry => .found entry
    | none => .missed
  | .sweep now => .swept (c.sweep now).2
  | .clear => .cleared c.clear.2

end Size

/-- One use of a cache under a clock of values, and what comes of it. -/
def useAt (c : Cache Value) : Op Value → Cache Value × Outcome
  | .put id entry now =>
    match c.putAt id entry now with
    | .ok after => (after, .stored)
    | .error d => (c, .refused d)
  | .get id now =>
    match c.readAt (.str id) now with
    | .ok (after, some entry) => (after, .found entry)
    | .ok (after, none) => (after, .missed)
    | .error d => (c, .refused d)
  | .sweep now =>
    match c.sweepAt now with
    | .ok (after, removed) => (after, .swept removed)
    | .error d => (c, .refused d)
  | .clear => (c.clear.1, .cleared c.clear.2)

/-- The cache after a history; what is refused in it changes nothing. -/
def useAll (c : Cache Value) (ops : List (Op Value)) : Cache Value :=
  ops.foldl (fun c op => (c.useAt op).1) c

theorem useAll_cons (c : Cache Value) (op : Op Value) (ops : List (Op Value)) :
    c.useAll (op :: ops) = (c.useAt op).1.useAll ops := rfl

/-- A use is the cache's own operation, or nothing. -/
theorem useAt_cases (c : Cache Value) (op : Op Value) :
    c.useAt op = (c.step op, c.outcome op) ∨ ∃ d, c.useAt op = (c, .refused d) := by
  cases op with
  | put id entry now =>
    cases h : c.putAt id entry now with
    | ok after => exact Or.inl (by rw [useAt, h, eq_put_of_putAt h]; rfl)
    | error d => exact Or.inr ⟨d, by rw [useAt, h]⟩
  | get id now =>
    cases h : c.readAt (.str id) now with
    | ok r =>
      obtain ⟨after, found⟩ := r
      have hget := eq_get_of_readAt h
      refine Or.inl ?_
      rw [useAt, h, outcome, step, ← hget]
      cases found <;> rfl
    | error d => exact Or.inr ⟨d, by rw [useAt, h]⟩
  | sweep now =>
    cases h : c.sweepAt now with
    | ok r =>
      obtain ⟨after, removed⟩ := r
      have hsweep := eq_sweep_of_sweepAt h
      exact Or.inl (by rw [useAt, h, outcome, step, ← hsweep])
    | error d => exact Or.inr ⟨d, by rw [useAt, h]⟩
  | clear => exact Or.inl rfl

/-- What holds of the operation, and of a refusal, holds of the use. -/
theorem useAt_induction {motive : Cache Value → Outcome → Prop} (c : Cache Value) (op : Op Value)
    (done : motive (c.step op) (c.outcome op)) (refused : ∀ d, motive c (.refused d)) :
    motive (c.useAt op).1 (c.useAt op).2 := by
  rcases c.useAt_cases op with huse | ⟨d, huse⟩
  · rw [huse]
    exact done
  · rw [huse]
    exact refused d

theorem useAt_capacity (c : Cache Value) (op : Op Value) :
    (c.useAt op).1.capacity = c.capacity :=
  useAt_induction (motive := fun c' _ => c'.capacity = c.capacity) c op (step_capacity c op)
    fun _ => rfl

theorem size_useAll_le {c : Cache Value} (h : (c.size : Int) ≤ max c.capacity 1)
    (ops : List (Op Value)) : ((c.useAll ops).size : Int) ≤ max c.capacity 1 := by
  induction ops generalizing c with
  | nil => exact h
  | cons op ops ih =>
    have huse : ((c.useAt op).1.size : Int) ≤ max c.capacity 1 :=
      useAt_induction (motive := fun c' _ => (c'.size : Int) ≤ _) c op (size_step_le h op) fun _ => h
    rw [← c.useAt_capacity op] at huse ⊢
    exact ih huse

theorem useAt_put_empty (ttl : Value) (capacity : Int) (id : String) (entry : Recommendation)
    (now : Value) :
    (empty ttl capacity).useAt (.put id entry now) =
      ((empty ttl capacity).put id entry now, .stored) := rfl

end Cache

open Cache

/-- Over all histories the entries of a cache are no more than its capacity exactly if it has room for
one at all; a cache without room holds at most one. -/
theorem size_le_capacity_iff (ttl : Value) (capacity : Int) :
    ((∀ ops : List (Op Value), (((empty ttl capacity).useAll ops).size : Int) ≤ capacity) ↔
        1 ≤ capacity) ∧
      ∀ ops : List (Op Value), (((empty ttl capacity).useAll ops).size : Int) ≤ max capacity 1 := by
  have hbound (ops : List (Op Value)) :
      (((empty ttl capacity).useAll ops).size : Int) ≤ max capacity 1 := by
    have hempty : (((empty ttl capacity).size : Nat) : Int) ≤ max capacity 1 := by
      change (0 : Int) ≤ max capacity 1
      omega
    exact size_useAll_le hempty ops
  refine ⟨⟨fun h => ?_, fun hcapacity ops => ?_⟩, hbound⟩
  · -- A single put is a history after which there is an entry.
    have hput := h [.put "" default (.int 0)]
    rw [useAll_cons, useAt_put_empty] at hput
    change (((empty ttl capacity).put "" default (.int 0)).size : Int) ≤ capacity at hput
    rw [size_put] at hput
    omega
  · have hle := hbound ops
    omega

/-- A cache that may hold no entry holds the one that was put. -/
theorem entry_held_without_room :
    ¬ ((((empty (.int 60) 0).useAll
      [.put "1" ⟨"sales by region", "orders", [], "", []⟩ (.int 1)]).size : Nat) : Int) ≤ 0 := by
  decide +kernel

end Inquiry.Recommendation
