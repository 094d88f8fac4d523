import Inquiry.Proofs.Recommendation.Uses

/-!
# What became of the entries of a cache

Every entry that was put is still there, or it was swept, cleared, dropped when it was read too late,
or it gave way to a new one. The counters of a cache tell the first part of this; the second part is
told by the slots that a use takes away.
-/
namespace Inquiry.Recommendation

open Op (times)

namespace Op

variable {T : Type}

def isGet : Op T → Bool
  | get _ _ => true
  | _ => false

end Op

namespace Outcome

def isFound : Outcome → Bool
  | found _ => true
  | _ => false

def isMissed : Outcome → Bool
  | missed => true
  | _ => false

/-- How many entries a sweep tells that it removed. -/
def sweptCount : Outcome → Nat
  | swept n => n
  | _ => 0

/-- How many entries a clear tells that it removed. -/
def clearedCount : Outcome → Nat
  | cleared n => n
  | _ => 0

end Outcome

namespace Cache

section Lost

variable {T : Type} {slots rest : List (Slot T)} {s : Slot T}

/-- The slots of which the rest does not have the id. -/
def lostFrom (slots rest : List (Slot T)) : List (Slot T) :=
  slots.filter fun s => rest.all fun s' => s'.id ≠ s.id

theorem lostFrom_of_subset (h : slots ⊆ rest) : lostFrom slots rest = [] := by
  refine List.filter_eq_nil_iff.mpr fun s hs hall => ?_
  exact of_decide_eq_true (List.all_eq_true.mp hall s (h hs)) rfl

/-- A slot with a new id takes the place of none. -/
theorem lostFrom_append_new (hnew : s.id ∉ slots.map Slot.id) :
    lostFrom slots (rest ++ [s]) = lostFrom slots rest := by
  refine List.filter_congr fun s' hs' => ?_
  have hne : s.id ≠ s'.id := fun heq => hnew (heq ▸ List.mem_map_of_mem hs')
  rw [List.all_append, List.all_cons, List.all_nil, decide_eq_true hne, Bool.and_true,
    Bool.and_true]

/-- Of slots with ids of their own, only the one that is taken out is lost. -/
theorem lostFrom_without (hids : (slots.map Slot.id).Nodup) (hs : s ∈ slots) :
    lostFrom slots (without slots s.id) = [s] := by
  obtain ⟨s', older, later, -, hid, hslots, hwithout⟩ :=
    List.exists_of_eraseP (p := fun s' => decide (s'.id = s.id)) hs (decide_eq_true rfl)
  have hmem : s' ∈ slots := by
    rw [hslots]
    exact List.mem_append_right _ List.mem_cons_self
  obtain rfl : s' = s := List.inj_on_of_nodup_map hids hmem hs (of_decide_eq_true hid)
  have halone : (older ++ later).all (fun s'' => s''.id ≠ s'.id) = true := by
    rw [hslots, List.map_append, List.map_cons, List.nodup_middle, ← List.map_append] at hids
    refine List.all_eq_true.mpr fun s'' hs'' => decide_eq_true fun heq => ?_
    exact (List.nodup_cons.mp hids).1 (heq ▸ List.mem_map_of_mem hs'')
  have holder : lostFrom older (older ++ later) = [] :=
    lostFrom_of_subset (List.subset_append_left older later)
  have hlater : lostFrom later (older ++ later) = [] :=
    lostFrom_of_subset (List.subset_append_right older later)
  unfold lostFrom at holder hlater ⊢
  unfold without
  rw [hwithout, hslots, List.filter_append, holder, List.filter_cons, if_pos halone, hlater,
    List.nil_append]

theorem length_without (hs : s ∈ slots) : (without slots s.id).length + 1 = slots.length := by
  have hpos := List.length_pos_of_mem hs
  have hlength : (without slots s.id).length = slots.length - 1 :=
    List.length_eraseP_of_mem hs (decide_eq_true rfl)
  omega

end Lost

/-- A time that is a number, or what is no number among the doubles. -/
def IsNumeric (t : Value) : Prop := ∃ a, Number.ofValue? t = some a

/-- The ways in which a cache can be used whose clock shows numbers. -/
inductive Does (c : Cache Value) : Op Value → Outcome → Cache Value → Prop
  | added {id : String} {entry : Recommendation} {now : Value}
    (room : (c.size : Int) < c.capacity) :
    Does c (.put id entry now) .stored { c with slots := c.slots ++ [⟨id, entry, now⟩] }
  | replaced {id : String} {entry : Recommendation} {now : Value} {s : Slot Value}
    (full : c.capacity ≤ c.size) (oldest : oldest? c.slots = some s) :
    Does c (.put id entry now) .stored
      { c with slots := without c.slots s.id ++ [⟨id, entry, now⟩] }
  | absent {id : String} {now : Value} (slot : c.slot? id = none) :
    Does c (.get id now) .missed { c with misses := c.misses + 1 }
  | dropped {now : Value} {s : Slot Value} (slot : c.slot? s.id = some s)
    (expired : c.isExpired now s = true) :
    Does c (.get s.id now) .missed
      { c with slots := without c.slots s.id, misses := c.misses + 1 }
  | found {now : Value} {s : Slot Value} (slot : c.slot? s.id = some s)
    (fresh : c.isExpired now s = false) :
    Does c (.get s.id now) (.found s.entry) { c with hits := c.hits + 1 }
  | swept {now : Value} :
    Does c (.sweep now) (.swept (c.slots.countP (c.isExpired now))) (c.sweep now).1
  | cleared : Does c .clear (.cleared c.size) { c with slots := [] }
  | refused {op : Op Value} {d : Defect} (h : op.isPut = false) : Does c op (.refused d) c

/-- What holds of a cache before the uses that are yet to come. -/
structure Ready (c : Cache Value) (coming : List (Op Value)) : Prop where
  told : c.Told IsNumeric
  room : 1 ≤ c.capacity
  times : ∀ t ∈ times coming, IsNumeric t
  ids : (c.slots.map Slot.id ++ coming.filterMap Op.putId?).Nodup

variable {c : Cache Value} {op : Op Value} {ops : List (Op Value)}

theorem put_does (h : 1 ≤ c.capacity) (id : String) (entry : Recommendation) (now : Value) :
    Does c (.put id entry now) .stored (c.put id entry now) := by
  by_cases hfull : c.capacity ≤ c.size
  · cases hslots : c.slots with
    | nil =>
      unfold size at hfull
      rw [hslots, List.length_nil] at hfull
      omega
    | cons s rest =>
      have holdest : oldest? c.slots = some (rest.foldl earlier s) := by
        rw [hslots]
        rfl
      have hput : c.put id entry now =
          { c with slots := without c.slots (rest.foldl earlier s).id ++ [⟨id, entry, now⟩] } := by
        unfold put dropOldest
        rw [if_pos hfull, holdest]
      rw [hput]
      exact .replaced hfull holdest
  · have hput : c.put id entry now = { c with slots := c.slots ++ [⟨id, entry, now⟩] } := by
      unfold put
      rw [if_neg hfull]
    rw [hput]
    exact .added (by omega)

theorem get_does (c : Cache Value) (id : String) (now : Value) :
    Does c (.get id now) (c.outcome (.get id now)) (c.get id now).1 := by
  cases hslot : c.slot? id with
  | none =>
    have hget : c.get id now = ({ c with misses := c.misses + 1 }, none) := by
      unfold get
      rw [hslot]
    rw [outcome, hget]
    exact .absent hslot
  | some s =>
    obtain ⟨-, rfl⟩ := slot?_eq_some hslot
    cases hexpired : c.isExpired now s with
    | true =>
      have hget : c.get s.id now =
          ({ c with slots := without c.slots s.id, misses := c.misses + 1 }, none) := by
        unfold get
        rw [hslot]
        exact if_pos hexpired
      rw [outcome, hget]
      exact .dropped hslot hexpired
    | false =>
      have hget : c.get s.id now = ({ c with hits := c.hits + 1 }, some s.entry) := by
        unfold get
        rw [hslot]
        exact if_neg (Bool.eq_false_iff.mp hexpired)
      rw [outcome, hget]
      exact .found hslot hexpired

theorem Ready.does (h : Ready c [op]) : Does c op (c.useAt op).2 (c.useAt op).1 := by
  cases op with
  | put id entry now =>
    have hput : c.useAt (.put id entry now) = (c.put id entry now, .stored) := by
      rw [useAt, putAt_of_numbers h.told.created]
    rw [hput]
    exact put_does h.room id entry now
  | get id now =>
    exact useAt_induction (motive := fun c' o => Does c (.get id now) o c') c _ (get_does c id now)
      fun _ => .refused rfl
  | sweep now =>
    exact useAt_induction (motive := fun c' o => Does c (.sweep now) o c') c _ .swept
      fun _ => .refused rfl
  | clear => exact .cleared

/-- A use adds no id but its own. -/
theorem Does.ids_sublist {o : Outcome} {c' : Cache Value} (h : Does c op o c') :
    (c'.slots.map Slot.id).Sublist (c.slots.map Slot.id ++ op.putId?.toList) := by
  have hkept {slots : List (Slot Value)} (hslots : slots.Sublist c.slots) {new : List String} :
      (slots.map Slot.id).Sublist (c.slots.map Slot.id ++ new) :=
    (hslots.map Slot.id).trans (List.sublist_append_left _ new)
  cases h with
  | added =>
    rw [List.map_append]
    exact List.Sublist.refl _
  | replaced =>
    rw [List.map_append]
    exact ((without_sublist c.slots _).map Slot.id).append_right _
  | absent => exact hkept (List.Sublist.refl _)
  | dropped => exact hkept (without_sublist c.slots _)
  | found => exact hkept (List.Sublist.refl _)
  | swept => exact hkept (sweep_slots_sublist c _)
  | cleared => exact hkept (List.nil_sublist _)
  | refused => exact hkept (List.Sublist.refl _)

theorem filterMap_putId?_cons (op : Op Value) (ops : List (Op Value)) :
    (op :: ops).filterMap Op.putId? = op.putId?.toList ++ ops.filterMap Op.putId? := by
  cases op <;> rfl

theorem Ready.of_sublist {ops' : List (Op Value)} (h : Ready c ops) (hops : ops'.Sublist ops) :
    Ready c ops' where
  told := h.told
  room := h.room
  times t ht := h.times t ((hops.filterMap Op.now?).subset ht)
  ids := h.ids.sublist ((hops.filterMap Op.putId?).append_left _)

theorem Ready.head (h : Ready c (op :: ops)) : Ready c [op] :=
  h.of_sublist (List.singleton_sublist.mpr List.mem_cons_self)

theorem Ready.next (h : Ready c (op :: ops)) : Ready (c.useAt op).1 ops where
  told := useAt_induction (motive := fun c' _ => c'.Told IsNumeric) c op
    (h.told.step fun t ht => h.times t (List.mem_filterMap.mpr ⟨op, List.mem_cons_self, ht⟩))
    fun _ => h.told
  room := by
    rw [useAt_capacity]
    exact h.room
  times := (h.of_sublist (List.sublist_cons_self op ops)).times
  ids := by
    have hids := h.ids
    rw [filterMap_putId?_cons, ← List.append_assoc] at hids
    exact hids.sublist (h.head.does.ids_sublist.append_right _)

end Cache

/-- One use of a history. -/
structure Use where
  before : Cache Value
  op : Op Value
  outcome : Outcome
  after : Cache Value

namespace Use

/-- The slots that a use takes away. -/
def lost (u : Use) : List (Slot Value) := Cache.lostFrom u.before.slots u.after.slots

/-- A put that drives out an entry. -/
def evicts (u : Use) : Bool := u.op.isPut && !u.lost.isEmpty

/-- A read that removes what it was to read. -/
def drops (u : Use) : Bool := u.op.isGet && !u.lost.isEmpty

end Use

/-- The counters and the number of entries of a cache after a history. -/
structure Accounts (us : List Use) (c : Cache Value) : Prop where
  hits : c.hits = us.countP (·.outcome.isFound)
  misses : c.misses = us.countP (·.outcome.isMissed)
  swept : c.swept = (us.map (·.outcome.sweptCount)).sum
  puts : us.countP (·.op.isPut) =
    c.size + c.swept + (us.map (·.outcome.clearedCount)).sum + us.countP Use.drops +
      us.countP Use.evicts

namespace Cache

/-- The uses of a history, one after the other. -/
def uses (c : Cache Value) : List (Op Value) → List Use
  | [] => []
  | op :: ops => ⟨c, op, (c.useAt op).2, (c.useAt op).1⟩ :: (c.useAt op).1.uses ops

theorem Ready.of_mem_uses (h : Ready c ops) {u : Use} (hu : u ∈ c.uses ops) :
    Ready u.before [u.op] ∧ Does u.before u.op u.outcome u.after := by
  induction ops generalizing c with
  | nil => cases hu
  | cons op ops ih =>
    rcases List.mem_cons.mp hu with rfl | hu
    · exact ⟨h.head, h.head.does⟩
    · exact ih h.next hu

theorem Ready.nodup (h : Ready c [op]) : (c.slots.map Slot.id).Nodup :=
  (List.nodup_append.mp h.ids).1

theorem Ready.fresh {id : String} {entry : Recommendation} {now : Value}
    (h : Ready c [.put id entry now]) : id ∉ c.slots.map Slot.id := fun hmem =>
  (List.nodup_append.mp h.ids).2.2 id hmem id List.mem_cons_self rfl

section Lost

variable {id : String} {entry : Recommendation} {now : Value} {s : Slot Value}

theorem lost_added (h : Ready c [.put id entry now]) :
    lostFrom c.slots (c.slots ++ [⟨id, entry, now⟩]) = [] := by
  rw [lostFrom_append_new h.fresh]
  exact lostFrom_of_subset (List.Subset.refl _)

theorem lost_replaced (h : Ready c [.put id entry now]) (hs : s ∈ c.slots) :
    lostFrom c.slots (without c.slots s.id ++ [⟨id, entry, now⟩]) = [s] := by
  rw [lostFrom_append_new h.fresh]
  exact lostFrom_without h.nodup hs

end Lost

/-- What a use adds to the accounts. -/
structure Booked (u : Use) : Prop where
  hits : u.after.hits = u.before.hits + if u.outcome.isFound then 1 else 0
  misses : u.after.misses = u.before.misses + if u.outcome.isMissed then 1 else 0
  swept : u.after.swept = u.before.swept + u.outcome.sweptCount
  size : u.before.size + (if u.op.isPut then 1 else 0) =
    u.after.size + u.outcome.sweptCount + u.outcome.clearedCount +
      (if u.drops then 1 else 0) + if u.evicts then 1 else 0

/-- An entry that a put adds or that was there before is still there, or the use took it away. -/
theorem Does.size_eq {u : Use} (h : Does u.before u.op u.outcome u.after)
    (hready : Ready u.before [u.op]) : u.before.size + (if u.op.isPut then 1 else 0) =
      u.after.size + u.outcome.sweptCount + u.outcome.clearedCount +
        (if u.drops then 1 else 0) + if u.evicts then 1 else 0 := by
  obtain ⟨c, op, o, c'⟩ := u
  dsimp only at h hready
  have hsame : lostFrom c.slots c.slots = [] := lostFrom_of_subset (List.Subset.refl _)
  unfold Use.drops Use.evicts Use.lost size
  cases h with
  | added room =>
    have hlost := lost_added hready
    simp [Op.isPut, Op.isGet, Outcome.sweptCount, Outcome.clearedCount, hlost]
  | replaced full oldest =>
    have hmem := oldest?_mem oldest
    have hlost := lost_replaced hready hmem
    have hlength := length_without hmem
    simp [Op.isPut, Op.isGet, Outcome.sweptCount, Outcome.clearedCount, hlost, hlength]
  | absent slot => simp [Op.isPut, Outcome.sweptCount, Outcome.clearedCount, hsame]
  | dropped slot expired =>
    have hmem := (slot?_eq_some slot).1
    have hlost := lostFrom_without hready.nodup hmem
    have hlength := length_without hmem
    simp [Op.isPut, Op.isGet, Outcome.sweptCount, Outcome.clearedCount, hlost, hlength]
  | found slot fresh => simp [Op.isPut, Outcome.sweptCount, Outcome.clearedCount, hsame]
  | @swept now =>
    have hkept : (c.sweep now).1.slots.length + c.slots.countP (c.isExpired now) =
        c.slots.length := by
      have hlength := List.length_eq_countP_add_countP (c.isExpired now) (l := c.slots)
      rw [sweep_slots, ← List.countP_eq_length_filter]
      simpa [Nat.add_comm] using hlength.symm
    simp [Op.isPut, Op.isGet, Outcome.sweptCount, Outcome.clearedCount, hkept]
  | cleared => simp [Op.isPut, Op.isGet, Outcome.sweptCount, Outcome.clearedCount, size]
  | refused hput => simp [hput, Outcome.sweptCount, Outcome.clearedCount, hsame]

theorem Does.booked {u : Use} (h : Does u.before u.op u.outcome u.after)
    (hready : Ready u.before [u.op]) : Booked u := by
  have hsize := h.size_eq hready
  obtain ⟨c, op, o, c'⟩ := u
  dsimp only at h
  cases h <;> exact ⟨rfl, rfl, rfl, hsize⟩

end Cache

/-- A use is entered into the accounts of what came before it. -/
theorem Accounts.append {us : List Use} {u : Use} (h : Accounts us u.before)
    (hu : Cache.Booked u) : Accounts (us ++ [u]) u.after where
  hits := by
    rw [hu.hits, h.hits, List.countP_append, List.countP_singleton]
  misses := by
    rw [hu.misses, h.misses, List.countP_append, List.countP_singleton]
  swept := by
    rw [hu.swept, h.swept, List.map_append, List.sum_append, List.map_singleton,
      List.sum_singleton]
  puts := by
    have hputs := h.puts
    have hsize := hu.size
    have hswept := hu.swept
    simp only [List.countP_append, List.countP_singleton, List.map_append, List.map_singleton,
      List.sum_append, List.sum_singleton]
    omega

theorem Accounts.run {us : List Use} {c : Cache Value} {ops : List (Op Value)}
    (h : Accounts us c) (hready : c.Ready ops) : Accounts (us ++ c.uses ops) (c.useAll ops) := by
  induction ops generalizing us c with
  | nil =>
    rw [Cache.uses, List.append_nil]
    exact h
  | cons op ops ih =>
    have hu := hready.head.does.booked (u := ⟨c, op, (c.useAt op).2, (c.useAt op).1⟩) hready.head
    rw [Cache.uses, List.append_cons]
    exact ih (h.append hu) hready.next

end Inquiry.Recommendation
