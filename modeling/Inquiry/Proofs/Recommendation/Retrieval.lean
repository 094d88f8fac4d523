import Inquiry.Proofs.Recommendation.Slots

/-!
# What can be read from a cache

An entry can be read as long as it is not too old, nothing cleared the cache, and fewer entries than
the cache has room for came after it. The proof follows the slot of one entry that is not too old:
no slot that came after it is too old either, so all of them stay, in order, and the slot is the first
to go just when it is the only one left in front of a full cache.
-/
namespace Inquiry.Recommendation

/-- One use of a cache. -/
inductive Op (T : Type) where
  | put (id : String) (entry : Recommendation) (now : T)
  | get (id : String) (now : T)
  | sweep (now : T)
  | clear

namespace Op

variable {T : Type}

/-- The time that the clock shows at a use; clearing does not look at it. -/
def now? : Op T → Option T
  | put _ _ now => some now
  | get _ now => some now
  | sweep now => some now
  | clear => none

/-- The id that a put gives out. -/
def putId? : Op T → Option String
  | put id _ _ => some id
  | _ => none

def isPut : Op T → Bool
  | put _ _ _ => true
  | _ => false

/-- Puts and clears. -/
def writes : Op T → Bool
  | put _ _ _ => true
  | clear => true
  | _ => false

/-- The times of a history. -/
def times (ops : List (Op T)) : List T := ops.filterMap now?

theorem times_cons_of_some {op : Op T} {t : T} (h : op.now? = some t) (ops : List (Op T)) :
    times (op :: ops) = t :: times ops := List.filterMap_cons_some h

theorem times_append (ops ops' : List (Op T)) : times (ops ++ ops') = times ops ++ times ops' :=
  List.filterMap_append

end Op

open Op (times)

/-- Ages grow with the clock, and the older of two entries is too old when the younger one is. -/
structure Aging {T : Type} [Sub T] [LT T] (ttl : T) (Time : T → Prop) : Prop where
  irrefl : ∀ {t : T}, Time t → ¬ t < t
  expired : ∀ {t₀ t₁ t now : T}, Time t₀ → Time t₁ → Time t → Time now → ¬ t₁ < t₀ → ¬ now < t →
    ttl < t - t₁ → ttl < now - t₀

/-- While the first time is not too old in the end, no time is too old for a later one. -/
theorem Aging.young {T : Type} [Sub T] [LT T] {ttl t₀ now : T} {Time : T → Prop} {ts : List T}
    (haging : Aging ttl Time) (htimes : ∀ t ∈ t₀ :: (ts ++ [now]), Time t)
    (hclock : (t₀ :: (ts ++ [now])).Pairwise fun t t' => ¬ t' < t) (hfresh : ¬ ttl < now - t₀) :
    (t₀ :: (ts ++ [now])).Pairwise fun t t' => ¬ ttl < t' - t := by
  obtain ⟨hborn, hlater⟩ := List.pairwise_cons.mp hclock
  have hfirst : Time t₀ := htimes t₀ List.mem_cons_self
  have hlast : Time now := htimes now (by simp)
  have hnow : ∀ t ∈ ts ++ [now], ¬ now < t := by
    intro t ht
    rcases List.mem_append.mp ht with ht | ht
    · exact (List.pairwise_append.mp hlater).2.2 t ht now List.mem_cons_self
    · rw [List.mem_singleton.mp ht]
      exact haging.irrefl hlast
  have hyoung : ∀ t₁ ∈ t₀ :: (ts ++ [now]), ∀ t ∈ ts ++ [now], ¬ t₁ < t₀ → ¬ ttl < t - t₁ :=
    fun t₁ ht₁ t ht hle hexpired => hfresh (haging.expired hfirst (htimes t₁ ht₁)
      (htimes t (List.mem_cons_of_mem _ ht)) hlast hle (hnow t ht) hexpired)
  refine List.pairwise_cons.mpr ⟨fun t ht => ?_, ?_⟩
  · exact hyoung t₀ List.mem_cons_self t ht (haging.irrefl hfirst)
  · exact hlater.imp_of_mem fun {t t'} ht ht' _ =>
      hyoung t (List.mem_cons_of_mem _ ht) t' ht' (hborn t ht)

namespace Cache

section Run

variable {T : Type} [Sub T] [LT T] [DecidableLT T]

def step (c : Cache T) : Op T → Cache T
  | .put id entry now => c.put id entry now
  | .get id now => (c.get id now).1
  | .sweep now => (c.sweep now).1
  | .clear => c.clear.1

def run (c : Cache T) (ops : List (Op T)) : Cache T := ops.foldl step c

theorem run_cons (c : Cache T) (op : Op T) (ops : List (Op T)) :
    c.run (op :: ops) = (c.step op).run ops := rfl

theorem run_append (c : Cache T) (ops ops' : List (Op T)) :
    c.run (ops ++ ops') = (c.run ops).run ops' := List.foldl_append

theorem get_ttl (c : Cache T) (id : String) (now : T) : (c.get id now).1.ttl = c.ttl := by
  unfold get
  split
  · rfl
  · split <;> rfl

theorem get_capacity (c : Cache T) (id : String) (now : T) :
    (c.get id now).1.capacity = c.capacity := by
  unfold get
  split
  · rfl
  · split <;> rfl

@[simp] theorem step_ttl (c : Cache T) (op : Op T) : (c.step op).ttl = c.ttl := by
  cases op with
  | get id now => exact c.get_ttl id now
  | _ => rfl

@[simp] theorem step_capacity (c : Cache T) (op : Op T) : (c.step op).capacity = c.capacity := by
  cases op with
  | get id now => exact c.get_capacity id now
  | _ => rfl

@[simp] theorem run_ttl (c : Cache T) (ops : List (Op T)) : (c.run ops).ttl = c.ttl := by
  induction ops generalizing c with
  | nil => rfl
  | cons op ops ih => rw [run_cons, ih, step_ttl]

@[simp] theorem run_capacity (c : Cache T) (ops : List (Op T)) :
    (c.run ops).capacity = c.capacity := by
  induction ops generalizing c with
  | nil => rfl
  | cons op ops ih => rw [run_cons, ih, step_capacity]

end Run

section Order

variable {T : Type} {c : Cache T}

/-- No slot has the id. -/
def Gone (c : Cache T) (id : String) : Prop := ∀ s ∈ c.slots, s.id ≠ id

theorem Gone.of_sublist {c' : Cache T} {id : String} (h : Gone c id)
    (hslots : c'.slots.Sublist c.slots) : Gone c' id := fun s hs => h s (hslots.subset hs)

variable [LT T]

/-- What holds of a cache before the clock shows the times that are yet to come. -/
structure Ordered (c : Cache T) (coming : List T) : Prop where
  room : (c.slots.length : Int) ≤ c.capacity
  ordered : c.slots.Pairwise fun s s' => ¬ s'.created < s.created
  past : ∀ s ∈ c.slots, ∀ t ∈ coming, ¬ t < s.created

theorem ordered_empty {ttl : T} {capacity : Int} (h : 1 ≤ capacity) (coming : List T) :
    Ordered (empty ttl capacity) coming where
  room := by
    change (0 : Int) ≤ capacity
    omega
  ordered := List.Pairwise.nil
  past s hs := absurd hs List.not_mem_nil

theorem Ordered.of_sublist {c' : Cache T} {coming coming' : List T} (h : Ordered c coming)
    (hslots : c'.slots.Sublist c.slots) (hcapacity : c'.capacity = c.capacity)
    (hcoming : ∀ t ∈ coming', t ∈ coming) : Ordered c' coming' where
  room := by
    have hle := hslots.length_le
    have hroom := h.room
    omega
  ordered := h.ordered.sublist hslots
  past s hs t ht := h.past s (hslots.subset hs) t (hcoming t ht)

variable [DecidableLT T]

theorem Gone.put {id other : String} (h : Gone c id) (hne : other ≠ id) (entry : Recommendation)
    (now : T) : Gone (c.put other entry now) id := by
  intro s hs
  rcases mem_put hs with hs | rfl
  · exact h s hs
  · exact hne

/-- Of slots in the order of their times the first one is the oldest. -/
theorem foldl_earlier_eq {s : Slot T} {rest : List (Slot T)}
    (h : ∀ s' ∈ rest, ¬ s'.created < s.created) : rest.foldl earlier s = s := by
  induction rest with
  | nil => rfl
  | cons s' rest ih =>
    obtain ⟨hs', hrest⟩ := List.forall_mem_cons.mp h
    rw [List.foldl_cons, earlier, if_neg hs', ih hrest]

theorem dropOldest_cons {s : Slot T} {rest : List (Slot T)}
    (h : (s :: rest).Pairwise fun s s' => ¬ s'.created < s.created) :
    dropOldest (s :: rest) = rest := by
  obtain ⟨hs, -⟩ := List.pairwise_cons.mp h
  rw [dropOldest, oldest?, foldl_earlier_eq hs]
  exact List.eraseP_cons_of_pos (decide_eq_true rfl)

/-- A put makes room by giving up the oldest slot of a full cache. -/
theorem Ordered.kept_cases {coming : List T} (h : Ordered c coming) (hcapacity : 1 ≤ c.capacity) :
    ((c.slots.length : Int) < c.capacity ∧ c.kept = c.slots) ∨
      ∃ s rest, c.slots = s :: rest ∧ (rest.length + 1 : Int) = c.capacity ∧ c.kept = rest := by
  have hroom := h.room
  unfold kept size
  by_cases hfull : c.capacity ≤ c.slots.length
  · right
    rw [if_pos hfull]
    cases hslots : c.slots with
    | nil =>
      rw [hslots, List.length_nil] at hfull
      omega
    | cons s rest =>
      rw [hslots, List.length_cons] at hfull hroom
      refine ⟨s, rest, rfl, by omega, dropOldest_cons ?_⟩
      rw [← hslots]
      exact h.ordered
  · left
    rw [if_neg hfull]
    exact ⟨by omega, rfl⟩

theorem Ordered.put {coming : List T} {now : T} (h : Ordered c (now :: coming))
    (hcapacity : 1 ≤ c.capacity) (hclock : ∀ t ∈ coming, ¬ t < now) (id : String)
    (entry : Recommendation) : Ordered (c.put id entry now) coming where
  room := by
    rw [put_slots, List.length_append, List.length_singleton]
    change _ ≤ c.capacity
    rcases h.kept_cases hcapacity with ⟨hroom, hkept⟩ | ⟨s, rest, -, hroom, hkept⟩
    · rw [hkept]
      omega
    · rw [hkept]
      omega
  ordered := by
    rw [put_slots]
    refine List.pairwise_append.mpr ⟨h.ordered.sublist c.kept_sublist, List.pairwise_singleton _ _, ?_⟩
    intro s hs s' hs'
    rw [List.mem_singleton.mp hs']
    exact h.past s (c.kept_sublist.subset hs) now List.mem_cons_self
  past s hs t ht := by
    rcases mem_put hs with hs | rfl
    · exact h.past s hs t (List.mem_cons_of_mem _ ht)
    · exact hclock t ht

end Order

section Follow

variable {T : Type} [Sub T] [LT T] [DecidableLT T] {c : Cache T}

theorem Ordered.step {op : Op T} {ops : List (Op T)} {more : List T}
    (h : Ordered c (times (op :: ops) ++ more)) (hcapacity : 1 ≤ c.capacity)
    (hclock : (times (op :: ops) ++ more).Pairwise fun t t' => ¬ t' < t) :
    Ordered (c.step op) (times ops ++ more) := by
  cases op with
  | put id entry now =>
    rw [Op.times_cons_of_some rfl, List.cons_append] at h hclock
    exact h.put hcapacity (List.pairwise_cons.mp hclock).1 id entry
  | get id now =>
    rw [Op.times_cons_of_some rfl, List.cons_append] at h
    exact h.of_sublist (get_slots_sublist c id now) (get_capacity c id now)
      fun t ht => List.mem_cons_of_mem _ ht
  | sweep now =>
    rw [Op.times_cons_of_some rfl, List.cons_append] at h
    exact h.of_sublist (sweep_slots_sublist c now) rfl fun t ht => List.mem_cons_of_mem _ ht
  | clear => exact h.of_sublist (List.nil_sublist _) rfl fun t ht => ht

theorem Ordered.run {ops : List (Op T)} {more : List T} (h : Ordered c (times ops ++ more))
    (hcapacity : 1 ≤ c.capacity)
    (hclock : (times ops ++ more).Pairwise fun t t' => ¬ t' < t) : Ordered (c.run ops) more := by
  induction ops generalizing c with
  | nil => exact h
  | cons op ops ih =>
    have htail : (times ops ++ more).Sublist (times (op :: ops) ++ more) :=
      ((List.sublist_cons_self op ops).filterMap Op.now?).append_right more
    refine ih (h.step hcapacity hclock) ?_ (hclock.sublist htail)
    rwa [step_capacity]

/-- What is in a cache was put there after the last clear. -/
theorem mem_run {s : Slot T} {ops : List (Op T)} (h : s ∈ (c.run ops).slots) :
    (s ∈ c.slots ∧ Op.clear ∉ ops) ∨ ∃ before after,
      ops = before ++ .put s.id s.entry s.created :: after ∧ Op.clear ∉ after := by
  induction ops generalizing c with
  | nil => exact Or.inl ⟨h, List.not_mem_nil⟩
  | cons op ops ih =>
    rcases ih h with ⟨hmem, hclear⟩ | ⟨before, after, rfl, hclear⟩
    · cases op with
      | put id entry now =>
        rcases mem_put hmem with hmem | rfl
        · exact Or.inl ⟨hmem, by simpa using hclear⟩
        · exact Or.inr ⟨[], ops, rfl, hclear⟩
      | get id now =>
        exact Or.inl ⟨(get_slots_sublist c id now).subset hmem, by simpa using hclear⟩
      | sweep now => exact Or.inl ⟨(sweep_slots_sublist c now).subset hmem, by simpa using hclear⟩
      | clear => exact absurd hmem List.not_mem_nil
    · exact Or.inr ⟨op :: before, after, rfl, hclear⟩

/-- The slot stands in the cache with `n` slots after it, and none of these or itself is too old at a
time that is yet to come. -/
def Stands (c : Cache T) (e : Slot T) (n : Nat) (coming : List T) : Prop :=
  ∃ older later, c.slots = older ++ e :: later ∧ later.length = n ∧
    (∀ s ∈ older ++ later, s.id ≠ e.id) ∧
    ∀ s ∈ e :: later, ∀ t ∈ coming, ¬ c.ttl < t - s.created

variable {e : Slot T} {n : Nat} {coming : List T} {now : T} {id : String}

theorem Stands.get (h : Stands c e n (now :: coming)) (id : String) :
    Stands (c.get id now).1 e n coming := by
  obtain ⟨older, later, hslots, hlength, hids, hfresh⟩ := h
  have hcoming : ∀ s ∈ e :: later, ∀ t ∈ coming, ¬ c.ttl < t - s.created :=
    fun s hs t ht => hfresh s hs t (List.mem_cons_of_mem _ ht)
  unfold Cache.get
  cases hslot : c.slot? id with
  | none => exact ⟨older, later, hslots, hlength, hids, hcoming⟩
  | some s =>
    dsimp only
    split
    · rename_i hexpired
      -- What is too old now stands before the slot.
      obtain ⟨hmem, hid⟩ := slot?_eq_some hslot
      rw [hslots] at hmem
      have holder : s ∈ older := by
        rcases List.mem_append.mp hmem with hmem | hmem
        · exact hmem
        · exact absurd (of_decide_eq_true hexpired) (hfresh s hmem now List.mem_cons_self)
      refine ⟨without older id, later, ?_, hlength, fun s' hs' => hids s' ?_, hcoming⟩
      · change without c.slots id = _
        rw [hslots]
        exact List.eraseP_append_left (p := fun s => decide (s.id = id)) (decide_eq_true hid)
          (e :: later) holder
      · exact ((without_sublist older id).append_right later).subset hs'
    · exact ⟨older, later, hslots, hlength, hids, hcoming⟩

theorem Stands.sweep (h : Stands c e n (now :: coming)) : Stands (c.sweep now).1 e n coming := by
  obtain ⟨older, later, hslots, hlength, hids, hfresh⟩ := h
  refine ⟨older.filter fun s => !c.isExpired now s, later, ?_, hlength, fun s hs => hids s ?_, ?_⟩
  · rw [sweep_slots, hslots, List.filter_append]
    refine congrArg _ (List.filter_eq_self.mpr fun s hs => ?_)
    rw [isExpired, decide_eq_false (hfresh s hs now List.mem_cons_self)]
    rfl
  · exact (List.filter_sublist.append_right later).subset hs
  · exact fun s hs t ht => hfresh s hs t (List.mem_cons_of_mem _ ht)

/-- A new entry comes after the slot, and takes the room of the slot only if nothing older is left and
the cache is full. -/
theorem Stands.put (h : Stands c e n (now :: coming)) (hordered : Ordered c (now :: coming))
    (hcapacity : 1 ≤ c.capacity) (hne : id ≠ e.id) (hnew : ∀ t ∈ coming, ¬ c.ttl < t - now)
    (entry : Recommendation) :
    ((n + 1 : Int) < c.capacity ∧ Stands (c.put id entry now) e (n + 1) coming) ∨
      (c.capacity = n + 1 ∧ Gone (c.put id entry now) e.id) := by
  obtain ⟨older, later, hslots, hlength, hids, hfresh⟩ := h
  have hfresh' : ∀ s ∈ e :: (later ++ [⟨id, entry, now⟩]), ∀ t ∈ coming,
      ¬ c.ttl < t - s.created := by
    intro s hs t ht
    rcases List.mem_append.mp (List.cons_append ▸ hs) with hs | hs
    · exact hfresh s hs t (List.mem_cons_of_mem _ ht)
    · rw [List.mem_singleton.mp hs]
      exact hnew t ht
  have hids' (older' : List (Slot T)) (hsub : older'.Sublist older) :
      ∀ s ∈ older' ++ (later ++ [⟨id, entry, now⟩]), s.id ≠ e.id := by
    intro s hs
    rw [← List.append_assoc] at hs
    rcases List.mem_append.mp hs with hs | hs
    · exact hids s ((hsub.append_right later).subset hs)
    · rw [List.mem_singleton.mp hs]
      exact hne
  have hcount : (later ++ [(⟨id, entry, now⟩ : Slot T)]).length = n + 1 := by
    rw [List.length_append, hlength]
    rfl
  rcases hordered.kept_cases hcapacity with ⟨hroom, hkept⟩ | ⟨s, rest, hcons, hroom, hkept⟩
  · left
    refine ⟨?_, older, later ++ [⟨id, entry, now⟩], ?_, hcount, hids' older (List.Sublist.refl _),
      hfresh'⟩
    · rw [hslots, List.length_append, List.length_cons, hlength] at hroom
      omega
    · rw [put_slots, hkept, hslots, List.append_assoc]
      rfl
  · rw [hcons] at hslots
    cases older with
    | nil =>
      right
      obtain ⟨rfl, rfl⟩ := List.cons.inj hslots
      refine ⟨by omega, fun s' hs' => ?_⟩
      rw [put_slots, hkept] at hs'
      exact hids' [] (List.nil_sublist _) s' hs'
    | cons s' older =>
      left
      obtain ⟨-, hrest⟩ := List.cons.inj hslots
      rw [hrest] at hkept hroom
      refine ⟨?_, older, later ++ [⟨id, entry, now⟩], ?_, hcount,
        hids' older (List.sublist_cons_self _ _), hfresh'⟩
      · rw [List.append_eq, List.length_append, List.length_cons, hlength] at hroom
        omega
      · rw [put_slots, hkept, List.append_eq, List.append_assoc]
        rfl

/-- Where the slot is after `n` puts: among the slots, or gone if there were too many of them. -/
def Placed (c : Cache T) (e : Slot T) (n : Nat) (coming : List T) : Prop :=
  ((n : Int) < c.capacity ∧ Stands c e n coming) ∨ (c.capacity ≤ n ∧ Gone c e.id)

theorem placed_put (entry : Recommendation) (hcapacity : 1 ≤ c.capacity)
    (hids : ∀ s ∈ c.kept, s.id ≠ id) (hfresh : ∀ t ∈ coming, ¬ c.ttl < t - now) :
    Placed (c.put id entry now) ⟨id, entry, now⟩ 0 coming := by
  refine Or.inl ⟨?_, c.kept, [], put_slots c id entry now, rfl, ?_, ?_⟩
  · change ((0 : Nat) : Int) < c.capacity
    omega
  · rw [List.append_nil]
    exact hids
  · intro s hs t ht
    rw [List.mem_singleton.mp hs]
    exact hfresh t ht

theorem Placed.step {op : Op T} {ops : List (Op T)} {more : List T}
    (h : Placed c e n (times (op :: ops) ++ more)) (hordered : Ordered c (times (op :: ops) ++ more))
    (hcapacity : 1 ≤ c.capacity) (hid : op.putId? ≠ some e.id) (hclear : op ≠ .clear)
    (hfresh : (times (op :: ops) ++ more).Pairwise fun t t' => ¬ c.ttl < t' - t) :
    Placed (c.step op) e (n + if op.isPut then 1 else 0) (times ops ++ more) := by
  unfold Placed
  rw [step_capacity]
  cases op with
  | clear => exact absurd rfl hclear
  | put id entry now =>
    have hne : id ≠ e.id := fun heq => hid (congrArg some heq)
    rw [Op.times_cons_of_some rfl, List.cons_append] at h hordered hfresh
    rcases h with ⟨-, hstands⟩ | ⟨hn, hgone⟩
    · rcases hstands.put hordered hcapacity hne (List.pairwise_cons.mp hfresh).1 entry with
        hstands | ⟨hn, hgone⟩
      · exact Or.inl hstands
      · exact Or.inr ⟨Int.le_of_eq hn, hgone⟩
    · refine Or.inr ⟨?_, hgone.put hne entry now⟩
      change c.capacity ≤ ((n + 1 : Nat) : Int)
      omega
  | get id now =>
    rw [Op.times_cons_of_some rfl, List.cons_append] at h
    rcases h with ⟨hn, hstands⟩ | ⟨hn, hgone⟩
    · exact Or.inl ⟨hn, hstands.get id⟩
    · exact Or.inr ⟨hn, hgone.of_sublist (get_slots_sublist c id now)⟩
  | sweep now =>
    rw [Op.times_cons_of_some rfl, List.cons_append] at h
    rcases h with ⟨hn, hstands⟩ | ⟨hn, hgone⟩
    · exact Or.inl ⟨hn, hstands.sweep⟩
    · exact Or.inr ⟨hn, hgone.of_sublist (sweep_slots_sublist c now)⟩

/-- A run without a clear takes the slot on by the number of its puts. -/
theorem Placed.run {ops : List (Op T)} {more : List T} (h : Placed c e n (times ops ++ more))
    (hordered : Ordered c (times ops ++ more)) (hcapacity : 1 ≤ c.capacity)
    (hclock : (times ops ++ more).Pairwise fun t t' => ¬ t' < t)
    (hids : ∀ op ∈ ops, op.putId? ≠ some e.id) (hclear : Op.clear ∉ ops)
    (hfresh : (times ops ++ more).Pairwise fun t t' => ¬ c.ttl < t' - t) :
    Placed (c.run ops) e (n + ops.countP Op.isPut) more := by
  induction ops generalizing c n with
  | nil => exact h
  | cons op ops ih =>
    obtain ⟨hid, hids⟩ := List.forall_mem_cons.mp hids
    have hne : op ≠ .clear := fun heq => hclear (heq ▸ List.mem_cons_self)
    have htail : (times ops ++ more).Sublist (times (op :: ops) ++ more) :=
      ((List.sublist_cons_self op ops).filterMap Op.now?).append_right more
    have hstep := h.step hordered hcapacity hid hne hfresh
    rw [run_cons, List.countP_cons, Nat.add_comm (ops.countP Op.isPut), ← Nat.add_assoc]
    refine ih hstep (hordered.step hcapacity hclock) ?_ (hclock.sublist htail) hids
      (fun hmem => hclear (List.mem_cons_of_mem _ hmem)) ?_
    · rwa [step_capacity]
    · rw [step_ttl]
      exact hfresh.sublist htail

/-- The last put of an id with an entry, what came after it, and that it is not too old: the condition
under which the entry can be read. Where no age is greater than the limit, as with a limit that is no
number, nothing is ever too old. -/
def Retrievable (ttl : T) (capacity : Int) (ops : List (Op T)) (id : String)
    (entry : Recommendation) (now : T) : Prop :=
  ∃ before t₀ after, ops = before ++ .put id entry t₀ :: after ∧ ¬ ttl < now - t₀ ∧
    Op.clear ∉ after ∧ (after.countP Op.isPut : Int) < capacity

variable {ttl : T} {Time : T → Prop} {capacity : Int} {ops before after : List (Op T)}
  {entry : Recommendation} {t₀ : T}

/-- An entry that is not too old in the end is where the number of puts after it says. -/
theorem placed_of_put (haging : Aging ttl Time) (hcapacity : 1 ≤ capacity)
    (hops : ops = before ++ .put id entry t₀ :: after) (htimes : ∀ t ∈ times ops ++ [now], Time t)
    (hclock : (times ops ++ [now]).Pairwise fun t t' => ¬ t' < t)
    (hids : (ops.filterMap Op.putId?).Nodup) (hfresh : ¬ ttl < now - t₀)
    (hclear : Op.clear ∉ after) :
    Placed ((empty ttl capacity).run ops) ⟨id, entry, t₀⟩ (after.countP Op.isPut) [now] := by
  have hsplit : times ops ++ [now] = times before ++ (t₀ :: (times after ++ [now])) := by
    rw [hops, Op.times_append, Op.times_cons_of_some rfl, List.append_assoc, List.cons_append]
  rw [hsplit] at htimes hclock
  have hafterPut := (List.pairwise_append.mp hclock).2.1
  obtain ⟨hborn, hlater⟩ := List.pairwise_cons.mp hafterPut
  -- No entry from the put on is ever too old.
  obtain ⟨hself, hyoungest⟩ := List.pairwise_cons.mp
    (haging.young (fun t ht => htimes t (List.mem_append_right _ ht)) hafterPut hfresh)
  -- The ids before and after the put are others.
  have hput : (Op.put id entry t₀).putId? = some id := rfl
  rw [hops, List.filterMap_append, List.filterMap_cons_some hput, List.nodup_append,
    List.nodup_cons] at hids
  obtain ⟨-, ⟨hafter, -⟩, hbefore⟩ := hids
  have hslots : ∀ s ∈ ((empty ttl capacity).run before).kept, s.id ≠ id := by
    intro s hs
    rcases mem_run ((kept_sublist _).subset hs) with ⟨hmem, -⟩ | ⟨before', after', rfl, -⟩
    · exact absurd hmem List.not_mem_nil
    · exact hbefore s.id (by simp [Op.putId?]) id List.mem_cons_self
  have hordered : Ordered ((empty ttl capacity).run before) (t₀ :: (times after ++ [now])) :=
    (ordered_empty hcapacity _).run hcapacity hclock
  have hrunCapacity : ((empty ttl capacity).run before).capacity = capacity := run_capacity _ _
  have hrunTtl : ((empty ttl capacity).run before).ttl = ttl := run_ttl _ _
  rw [hops, run_append, run_cons, ← Nat.zero_add (after.countP Op.isPut)]
  generalize (empty ttl capacity).run before = c at hslots hordered hrunCapacity hrunTtl
  subst hrunCapacity hrunTtl
  exact (placed_put entry hcapacity hslots hself).run (hordered.put hcapacity hborn id entry)
    hcapacity hlater (fun op hop heq => hafter (List.mem_filterMap.mpr ⟨op, hop, heq⟩)) hclear
    hyoungest

theorem get_of_stands {e : Slot T} {n : Nat} (h : Stands c e n [now]) :
    (c.get e.id now).2 = some e.entry := by
  obtain ⟨older, later, hslots, -, hids, hfresh⟩ := h
  refine get_eq_some_iff.mpr ⟨e, ?_, ?_, rfl⟩
  · rw [slot?, hslots, List.find?_append, List.find?_eq_none.mpr]
    · rw [Option.none_or, List.find?_cons, decide_eq_true rfl]
    · intro s hs
      simpa using hids s (List.mem_append_left _ hs)
  · exact decide_eq_false (hfresh e List.mem_cons_self now List.mem_cons_self)

/-- An entry can be read just under the condition for it. -/
theorem get_run_eq_some_iff (haging : Aging ttl Time) (hcapacity : 1 ≤ capacity)
    (htimes : ∀ t ∈ times ops ++ [now], Time t)
    (hclock : (times ops ++ [now]).Pairwise fun t t' => ¬ t' < t)
    (hids : (ops.filterMap Op.putId?).Nodup) :
    (((empty ttl capacity).run ops).get id now).2 = some entry ↔
      Retrievable ttl capacity ops id entry now := by
  have hrunCapacity : ((empty ttl capacity).run ops).capacity = capacity := run_capacity _ _
  constructor
  · intro h
    obtain ⟨s, hslot, hexpired, rfl⟩ := get_eq_some_iff.mp h
    obtain ⟨hmem, rfl⟩ := slot?_eq_some hslot
    rw [isExpired, run_ttl, decide_eq_false_iff_not] at hexpired
    rcases mem_run hmem with ⟨hmem, -⟩ | ⟨before, after, hops, hclear⟩
    · exact absurd hmem List.not_mem_nil
    · refine ⟨before, s.created, after, hops, hexpired, hclear, ?_⟩
      rcases placed_of_put haging hcapacity hops htimes hclock hids hexpired hclear with
        ⟨hn, -⟩ | ⟨-, hgone⟩
      · rwa [hrunCapacity] at hn
      · exact absurd rfl (hgone s hmem)
  · rintro ⟨before, t₀, after, hops, hfresh, hclear, hcount⟩
    rcases placed_of_put haging hcapacity hops htimes hclock hids hfresh hclear with
      ⟨-, hstands⟩ | ⟨hn, -⟩
    · exact get_of_stands hstands
    · rw [hrunCapacity] at hn
      omega

omit [DecidableLT T] in
/-- Only puts and clears decide whether an entry can be read. -/
theorem retrievable_filter_writes_iff :
    Retrievable ttl capacity (ops.filter Op.writes) id entry now ↔
      Retrievable ttl capacity ops id entry now := by
  have hcount (after : List (Op T)) :
      (after.filter Op.writes).countP Op.isPut = after.countP Op.isPut := by
    rw [List.countP_filter]
    congr 1
    funext op
    cases op <;> rfl
  have hclear (after : List (Op T)) : Op.clear ∈ after.filter Op.writes ↔ Op.clear ∈ after := by
    rw [List.mem_filter]
    exact and_iff_left rfl
  constructor
  · rintro ⟨before', t₀, after', hops, hfresh, hnone, hn⟩
    obtain ⟨before, rest, rfl, rfl, hrest⟩ := List.filter_eq_append_iff.mp hops
    obtain ⟨skipped, after, rfl, hskipped, -, rfl⟩ := List.filter_eq_cons_iff.mp hrest
    refine ⟨before ++ skipped, t₀, after, ?_, hfresh, ?_, ?_⟩
    · rw [List.append_assoc]
    · rwa [hclear] at hnone
    · rwa [hcount] at hn
  · rintro ⟨before, t₀, after, rfl, hfresh, hnone, hn⟩
    refine ⟨before.filter Op.writes, t₀, after.filter Op.writes, ?_, hfresh, ?_, ?_⟩
    · rw [List.filter_append, List.filter_cons_of_pos rfl]
    · rwa [hclear]
    · rwa [hcount]

end Follow

end Cache

end Inquiry.Recommendation
