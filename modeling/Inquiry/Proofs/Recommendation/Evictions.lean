import Inquiry.Proofs.Recommendation.Accounts

/-!
# Which entries leave a cache

A put into a full cache drives out one entry, and none was made before it. Where ages grow with the
clock the entry is also the first to be too old. On the doubles there is one that does not go along
with the others: an entry that was made at no number is never too old, and it is driven out all the
same.
-/
namespace Inquiry.Recommendation

open Op (times)

namespace Cache

variable {c : Cache Value} {op : Op Value} {ops : List (Op Value)} {now : Value}

section Order

variable {t t' t'' : Value}

theorem IsNumeric.lt_irrefl (h : IsNumeric t) : ¬ t < t := by
  obtain ⟨a, ha⟩ := h
  intro hlt
  obtain ⟨p, q, hp, hq, hpq⟩ := (lt_iff_rank ha ha).mp hlt
  rw [hp] at hq
  exact hpq.ne (Option.some.inj hq)

theorem IsNumeric.lt_trans (h : IsNumeric t) (h' : IsNumeric t') (h'' : IsNumeric t'')
    (hlt : t < t') (hlt' : t' < t'') : t < t'' := by
  obtain ⟨a, ha⟩ := h
  obtain ⟨a', ha'⟩ := h'
  obtain ⟨a'', ha''⟩ := h''
  obtain ⟨p, q, hp, hq, hpq⟩ := (lt_iff_rank ha ha').mp hlt
  obtain ⟨q', r, hq', hr, hqr⟩ := (lt_iff_rank ha' ha'').mp hlt'
  obtain rfl := Option.some.inj (hq.symm.trans hq')
  exact (lt_iff_rank ha ha'').mpr ⟨p, r, hp, hr, hpq.trans hqr⟩

/-- The oldest slot was made no later than the one that the search starts with, and no slot was made
before it. -/
theorem foldl_earlier_least {s : Slot Value} {rest : List (Slot Value)}
    (h : ∀ s' ∈ s :: rest, IsNumeric s'.created) :
    (rest.foldl earlier s = s ∨ (rest.foldl earlier s).created < s.created) ∧
      ∀ s' ∈ s :: rest, ¬ s'.created < (rest.foldl earlier s).created := by
  induction rest generalizing s with
  | nil =>
    refine ⟨Or.inl rfl, fun s' hs' => ?_⟩
    obtain rfl := List.mem_singleton.mp hs'
    exact (h s' hs').lt_irrefl
  | cons s₁ rest ih =>
    have hs : IsNumeric s.created := h s List.mem_cons_self
    have hs₁ : IsNumeric s₁.created := h s₁ (by simp)
    have hbest : IsNumeric ((s₁ :: rest).foldl earlier s).created := h _ (foldl_earlier_mem s _)
    rw [List.foldl_cons] at hbest ⊢
    by_cases hlt : s₁.created < s.created
    · have heq : earlier s s₁ = s₁ := if_pos hlt
      rw [heq] at hbest ⊢
      obtain ⟨hle, hleast⟩ := ih fun s' hs' => h s' (List.mem_cons_of_mem s hs')
      have hbefore : (rest.foldl earlier s₁).created < s.created := by
        rcases hle with heq | hle
        · rwa [heq]
        · exact hbest.lt_trans hs₁ hs hle hlt
      refine ⟨Or.inr hbefore, fun s' hs' => ?_⟩
      rcases List.mem_cons.mp hs' with rfl | hs'
      · exact fun hafter => hs.lt_irrefl (hs.lt_trans hbest hs hafter hbefore)
      · exact hleast s' hs'
    · have heq : earlier s s₁ = s := if_neg hlt
      rw [heq] at hbest ⊢
      have hskip : (s :: rest).Sublist (s :: s₁ :: rest) :=
        (List.sublist_cons_self s₁ rest).cons_cons s
      obtain ⟨hle, hleast⟩ := ih fun s' hs' => h s' (hskip.subset hs')
      refine ⟨hle, fun s' hs' => ?_⟩
      rcases List.mem_cons.mp hs' with rfl | hs'
      · exact hleast s' List.mem_cons_self
      rcases List.mem_cons.mp hs' with rfl | hs'
      · intro hafter
        rcases hle with heq | hle
        · exact hlt (heq ▸ hafter)
        · exact hlt (hs₁.lt_trans hbest hs hafter hle)
      · exact hleast s' (List.mem_cons_of_mem s hs')

theorem oldest?_least {slots : List (Slot Value)} {s : Slot Value}
    (h : ∀ s' ∈ slots, IsNumeric s'.created) (hs : oldest? slots = some s) :
    ∀ s' ∈ slots, ¬ s'.created < s.created := by
  cases slots with
  | nil => cases hs
  | cons s' rest =>
    obtain rfl := Option.some.inj hs
    exact (foldl_earlier_least h).2

end Order

/-- Where times can be compared, the oldest slot is the first to be too old. -/
theorem oldest?_expired (hc : c.Told IsNumeric) {s s' : Slot Value} (hs : oldest? c.slots = some s)
    (hs' : s' ∈ c.slots) (htimes : Comparable (now :: c.slots.map Slot.created))
    (hexpired : c.isExpired now s' = true) : c.isExpired now s = true := by
  obtain ⟨limit, hlimit⟩ := hc.limited
  have hmem := oldest?_mem hs
  have hleast := oldest?_least hc.created hs s' hs'
  have hlast {Time : Value → Prop} (haging : Aging c.ttl Time)
      (htimes : ∀ t ∈ now :: c.slots.map Slot.created, Time t) : c.isExpired now s = true := by
    have hnow : Time now := htimes now List.mem_cons_self
    have htime (s : Slot Value) (hs : s ∈ c.slots) : Time s.created :=
      htimes _ (List.mem_cons_of_mem _ (List.mem_map_of_mem hs))
    exact decide_eq_true (haging.expired (htime s hmem) (htime s' hs') hnow hnow hleast
      (haging.irrefl hnow) (of_decide_eq_true hexpired))
  rcases htimes with htimes | htimes
  · exact hlast (aging_whole hlimit) htimes
  · exact hlast (aging_reading hlimit) htimes

/-- The slots that a put or a read takes away. -/
inductive Takes (u : Use) : Prop
  | nothing (lost : u.lost = [])
    (room : u.op.isPut = true → (u.before.size : Int) < u.before.capacity)
  | oldest {s : Slot Value} (put : u.op.isPut = true) (full : u.before.capacity ≤ u.before.size)
    (oldest : oldest? u.before.slots = some s) (lost : u.lost = [s])
  | expired {s : Slot Value} {now : Value} (get : u.op = .get s.id now)
    (expired : u.before.isExpired now s = true) (lost : u.lost = [s])
  | other (put : u.op.isPut = false) (get : u.op.isGet = false)

theorem Does.takes {u : Use} (h : Does u.before u.op u.outcome u.after)
    (hready : Ready u.before [u.op]) : Takes u := by
  obtain ⟨c, op, o, c'⟩ := u
  dsimp only at h hready
  have hsame : lostFrom c.slots c.slots = [] := lostFrom_of_subset (List.Subset.refl _)
  cases h with
  | added room => exact .nothing (lost_added hready) fun _ => room
  | replaced full oldest => exact .oldest rfl full oldest (lost_replaced hready (oldest?_mem oldest))
  | absent slot => exact .nothing hsame fun hput => absurd hput Bool.false_ne_true
  | dropped slot expired =>
    exact .expired rfl expired (lostFrom_without hready.nodup (slot?_eq_some slot).1)
  | found slot fresh => exact .nothing hsame fun hput => absurd hput Bool.false_ne_true
  | swept => exact .other rfl rfl
  | cleared => exact .other rfl rfl
  | refused hput => exact .nothing hsame fun hput' => absurd (hput.symm.trans hput') Bool.false_ne_true

end Cache

/-- Which entries a use takes away: a put drives out an entry exactly if the cache is full, and then
it is one that none was made before, and that is the first to be too old where times can be compared;
a read removes only the entry that it was to read, and only if this is too old. -/
structure Use.Fair (u : Use) : Prop where
  evicts_iff : u.evicts = true ↔ u.op.isPut = true ∧ u.before.capacity ≤ u.before.size
  evicted : u.evicts = true → ∃ s, u.lost = [s] ∧
    (∀ s' ∈ u.before.slots, ¬ s'.created < s.created) ∧
    ∀ now ∈ u.op.now?, Comparable (now :: u.before.slots.map Slot.created) →
      u.before.isExpired now s = false → ∀ s' ∈ u.before.slots, u.before.isExpired now s' = false
  dropped : u.drops = true → ∃ s now, u.op = .get s.id now ∧ u.lost = [s] ∧
    u.before.isExpired now s = true

namespace Cache

variable {c : Cache Value} {op : Op Value} {ops : List (Op Value)} {now : Value}

/-- A cache that is ready for a history has distinct ids after it. -/
theorem Ready.nodup_useAll (h : Ready c ops) : ((c.useAll ops).slots.map Slot.id).Nodup := by
  induction ops generalizing c with
  | nil => exact (List.nodup_append.mp h.ids).1
  | cons op ops ih => exact ih h.next

theorem evicts_eq_true_iff (u : Use) :
    u.evicts = true ↔ u.op.isPut = true ∧ u.lost ≠ [] := by
  simp [Use.evicts]

theorem drops_eq_true_iff (u : Use) :
    u.drops = true ↔ u.op.isGet = true ∧ u.lost ≠ [] := by
  simp [Use.drops]

theorem isGet_eq_false_of_isPut (h : op.isPut = true) : op.isGet = false := by
  cases op with
  | put id entry now => rfl
  | _ => cases h

theorem Takes.fair {u : Use} (h : Takes u) (hready : Ready u.before [u.op]) : u.Fair := by
  constructor
  · rw [evicts_eq_true_iff]
    cases h with
    | nothing lost room =>
      have hroom : u.op.isPut = true → ¬ u.before.capacity ≤ u.before.size :=
        fun hput => Int.not_le.mpr (room hput)
      exact ⟨fun h => absurd lost h.2, fun h => absurd h.2 (hroom h.1)⟩
    | oldest put full oldest lost => simp [put, full, lost]
    | expired get expired lost => simp [get, Op.isPut]
    | other put get => simp [put]
  · rw [evicts_eq_true_iff]
    rintro ⟨hput, hlost⟩
    cases h with
    | nothing lost room => exact absurd lost hlost
    | @oldest s put full oldest lost =>
      refine ⟨s, lost, oldest?_least hready.told.created oldest, ?_⟩
      intro now _ htimes hfresh s' hs'
      refine Bool.eq_false_iff.mpr fun hexpired => ?_
      exact Bool.eq_false_iff.mp hfresh (oldest?_expired hready.told oldest hs' htimes hexpired)
    | expired get expired lost =>
      rw [get] at hput
      cases hput
    | other put get => exact absurd (put.symm.trans hput) Bool.false_ne_true
  · rw [drops_eq_true_iff]
    rintro ⟨hget, hlost⟩
    cases h with
    | nothing lost room => exact absurd lost hlost
    | oldest put full oldest lost =>
      exact absurd ((isGet_eq_false_of_isPut put).symm.trans hget) Bool.false_ne_true
    | @expired s now get expired lost => exact ⟨s, now, get, lost, expired⟩
    | other put get => exact absurd (get.symm.trans hget) Bool.false_ne_true

/-- A read finds just the entries that a sweep at the same time would keep. -/
def ReadsKept (c : Cache Value) : Prop :=
  ∀ now removed, (c.useAt (.sweep now)).2 = .swept removed → ∀ id entry,
    (c.useAt (.get id now)).2 = .found entry ↔
      ∃ s ∈ (c.useAt (.sweep now)).1.slots, s.id = id ∧ s.entry = entry

theorem slot?_eq_some_iff {id : String} {s : Slot Value} (hids : (c.slots.map Slot.id).Nodup) :
    c.slot? id = some s ↔ s ∈ c.slots ∧ s.id = id := by
  refine ⟨slot?_eq_some, ?_⟩
  rintro ⟨hmem, rfl⟩
  cases hslot : c.slot? s.id with
  | none => exact absurd (decide_eq_true rfl) (List.find?_eq_none.mp hslot s hmem)
  | some s' =>
    obtain ⟨hmem', hid⟩ := slot?_eq_some hslot
    rw [List.inj_on_of_nodup_map hids hmem' hmem hid]

theorem get_eq_some_iff_kept {id : String} {entry : Recommendation}
    (hids : (c.slots.map Slot.id).Nodup) : (c.get id now).2 = some entry ↔
      ∃ s ∈ (c.sweep now).1.slots, s.id = id ∧ s.entry = entry := by
  rw [get_eq_some_iff, sweep_slots]
  constructor
  · rintro ⟨s, hslot, hfresh, rfl⟩
    obtain ⟨hmem, rfl⟩ := slot?_eq_some hslot
    exact ⟨s, List.mem_filter.mpr ⟨hmem, by rw [hfresh]; rfl⟩, rfl, rfl⟩
  · rintro ⟨s, hs, rfl, rfl⟩
    obtain ⟨hmem, hfresh⟩ := List.mem_filter.mp hs
    exact ⟨s, (slot?_eq_some_iff hids).mpr ⟨hmem, rfl⟩, by simpa using hfresh, rfl⟩

/-- Where all ages can be told, sweeps and reads are not refused. -/
theorem useAt_sweep_of_ages (h : ∀ s ∈ c.slots, c.ageDefect? now s = none) :
    c.useAt (.sweep now) = ((c.sweep now).1, .swept (c.sweep now).2) := by
  have hages := List.findSome?_eq_none_iff.mpr h
  rw [useAt, sweepAt, hages]

theorem useAt_get_of_ages (h : ∀ s ∈ c.slots, c.ageDefect? now s = none) (id : String) :
    c.useAt (.get id now) = ((c.get id now).1, c.outcome (.get id now)) := by
  have hage : (c.slot? id).bind (c.ageDefect? now) = none := by
    cases hslot : c.slot? id with
    | none => rfl
    | some s => exact h s (slot?_eq_some hslot).1
  rw [useAt, readAt_str, hage, outcome]
  obtain ⟨after, found⟩ := c.get id now
  cases found <;> rfl

theorem ages_of_swept {removed : Nat} (h : (c.useAt (.sweep now)).2 = .swept removed) :
    ∀ s ∈ c.slots, c.ageDefect? now s = none := by
  rw [useAt, sweepAt] at h
  cases hage : c.slots.findSome? (c.ageDefect? now) with
  | none => exact List.findSome?_eq_none_iff.mp hage
  | some d =>
    rw [hage] at h
    cases h

theorem outcome_get_eq_found_iff {id : String} {entry : Recommendation} :
    c.outcome (.get id now) = .found entry ↔ (c.get id now).2 = some entry := by
  rw [outcome]
  cases (c.get id now).2 <;> simp

theorem readsKept (hids : (c.slots.map Slot.id).Nodup) : c.ReadsKept := by
  intro now removed hswept id entry
  have hages := ages_of_swept hswept
  rw [useAt_sweep_of_ages hages, useAt_get_of_ages hages, outcome_get_eq_found_iff]
  exact get_eq_some_iff_kept hids

/-- A number that a double is near to; also what is no number. -/
def IsNear (t : Value) : Prop := ∃ a, Number.ofValue? t = some a ∧ a.toFloat?.isSome = true

theorem ages_of_near (hc : c.Told IsNear) (hnow : IsNear now) :
    ∀ s ∈ c.slots, c.ageDefect? now s = none := by
  intro s hs
  obtain ⟨a, ha, hnear⟩ := hnow
  obtain ⟨b, hb, hnear'⟩ := hc.created s hs
  refine ageDefect?_of_difference hc.limited ⟨_, _, difference_eq ha hb ?_, Number.ofValue?_toValue _⟩
  exact Number.subDefect?_eq_none hnear hnear'

theorem useAt_of_near (hc : c.Told IsNear) (hop : ∀ t ∈ op.now?, IsNear t) :
    c.useAt op = (c.step op, c.outcome op) := by
  cases op with
  | put id entry now =>
    have hnumbers : ∀ s ∈ c.slots, ∃ x, Number.ofValue? s.created = some x := by
      intro s hs
      obtain ⟨a, ha, -⟩ := hc.created s hs
      exact ⟨a, ha⟩
    rw [useAt, putAt_of_numbers hnumbers]
    rfl
  | get id now => exact useAt_get_of_ages (ages_of_near hc (hop now rfl)) id
  | sweep now => exact useAt_sweep_of_ages (ages_of_near hc (hop now rfl))
  | clear => rfl

theorem outcome_ne_refused (c : Cache Value) (op : Op Value) (d : Defect) :
    c.outcome op ≠ .refused d := by
  intro hrefused
  cases op with
  | get id now =>
    rw [outcome] at hrefused
    split at hrefused <;> cases hrefused
  | _ => cases hrefused

/-- Nothing is refused in a history of such times. -/
theorem Told.not_refused (hc : c.Told IsNear) (hops : ∀ t ∈ times ops, IsNear t) :
    (∀ u ∈ c.uses ops, ∀ d, u.outcome ≠ .refused d) ∧ (c.useAll ops).Told IsNear := by
  induction ops generalizing c with
  | nil => exact ⟨fun u hu => absurd hu List.not_mem_nil, hc⟩
  | cons op ops ih =>
    have hop : ∀ t ∈ op.now?, IsNear t := fun t ht =>
      hops t (List.mem_filterMap.mpr ⟨op, List.mem_cons_self, ht⟩)
    have huse := useAt_of_near hc hop
    have hnext : (c.useAt op).1.Told IsNear := by
      rw [huse]
      exact hc.step hop
    obtain ⟨hrest, hlast⟩ := ih hnext fun t ht =>
      hops t (((List.sublist_cons_self op ops).filterMap Op.now?).subset ht)
    refine ⟨fun u hu => ?_, hlast⟩
    rcases List.mem_cons.mp hu with rfl | hu
    · dsimp only
      rw [huse]
      exact c.outcome_ne_refused op
    · exact hrest u hu

end Cache

open Cache

theorem map_op_uses (c : Cache Value) (ops : List (Op Value)) : (c.uses ops).map Use.op = ops := by
  induction ops generalizing c with
  | nil => rfl
  | cons op ops ih => exact congrArg (op :: ·) (ih (c.useAt op).1)

/-- Under any clock that shows numbers, forwards or backwards, the counters of a cache and the entries
in it agree with its history, entries leave it in a fair order, and what can be read from it is what a
sweep would keep. Nothing is refused as long as doubles are near to the times. -/
theorem entries_accounted_for {ttl : Value} {capacity : Int} {ops : List (Op Value)}
    (httl : IsNumeric ttl) (hcapacity : 1 ≤ capacity) (htimes : ∀ t ∈ times ops, IsNumeric t)
    (hids : (ops.filterMap Op.putId?).Nodup) :
    let us := (empty ttl capacity).uses ops
    let c := (empty ttl capacity).useAll ops
    us.map Use.op = ops ∧ Accounts us c ∧ (∀ u ∈ us, u.Fair) ∧ c.ReadsKept ∧
      ((∀ t ∈ times ops, IsNear t) → (∀ u ∈ us, ∀ d, u.outcome ≠ .refused d) ∧
        ∀ now, IsNear now → ∃ removed, (c.useAt (.sweep now)).2 = .swept removed) := by
  intro us c
  have hready : (empty ttl capacity).Ready ops :=
    ⟨⟨httl, fun s hs => absurd hs List.not_mem_nil⟩, hcapacity, htimes, hids⟩
  have hstart : Accounts [] (empty ttl capacity) := ⟨rfl, rfl, rfl, rfl⟩
  refine ⟨map_op_uses _ ops, hstart.run hready, fun u hu => ?_, ?_, fun hnear => ?_⟩
  · obtain ⟨hbefore, hdoes⟩ := hready.of_mem_uses hu
    exact (hdoes.takes hbefore).fair hbefore
  · exact readsKept hready.nodup_useAll
  · have htold : (empty ttl capacity).Told IsNear := ⟨httl, fun s hs => absurd hs List.not_mem_nil⟩
    obtain ⟨hdone, hlast⟩ := htold.not_refused hnear
    exact ⟨hdone, fun now hnow =>
      ⟨_, congrArg Prod.snd (useAt_sweep_of_ages (ages_of_near hlast hnow))⟩⟩

private def answered (query : String) : Recommendation := ⟨query, "orders", [], "", []⟩

/-- The clock is set back between two puts. -/
private def setBack : List (Op Value) :=
  [.put "1" (answered "a") (.float 8.0), .put "2" (answered "b") (.int 3),
    .put "3" (answered "c") (.float 20.0), .get "1" (.float 30.0), .get "3" (.int 30),
    .sweep (.float 30.5)]

/-- The second entry is the oldest one, and gives way to the third; the first one is read too late. -/
theorem entries_accounted_for_set_back :
    let us := (empty (.int 10) 2).uses setBack
    let c := (empty (.int 10) 2).useAll setBack
    Accounts us c ∧ (∀ u ∈ us, u.Fair) ∧ c.ReadsKept ∧ (∀ u ∈ us, ∀ d, u.outcome ≠ .refused d) ∧
      (us.flatMap Use.lost).map Slot.id = ["2", "1", "3"] ∧ c.hits = 1 ∧ c.misses = 1 ∧
      c.swept = 1 := by
  intro us c
  have hnear : ∀ t ∈ times setBack, IsNear t := by
    intro t ht
    simp only [setBack, times, List.filterMap_cons, Op.now?, List.filterMap_nil, List.mem_cons,
      List.not_mem_nil, or_false] at ht
    rcases ht with rfl | rfl | rfl | rfl | rfl | rfl
    all_goals exact ⟨_, rfl, by decide +kernel⟩
  have hnumeric : ∀ t ∈ times setBack, IsNumeric t := fun t ht => by
    obtain ⟨a, ha, -⟩ := hnear t ht
    exact ⟨a, ha⟩
  have httl : IsNumeric (.int 10) := ⟨_, rfl⟩
  have hcapacity : (1 : Int) ≤ 2 := by decide
  obtain ⟨-, haccounts, hfair, hkept, hdone⟩ :=
    entries_accounted_for httl hcapacity hnumeric (by decide)
  exact ⟨haccounts, hfair, hkept, (hdone hnear).1, by decide +kernel⟩

/-- A put into a cache for two, after two others. -/
private def thirdPut (ttl first second now : Value) : Use :=
  let c := (empty ttl 2).useAll [.put "1" (answered "a") first, .put "2" (answered "b") second]
  let op := .put "3" (answered "c") now
  ⟨c, op, (c.useAt op).2, (c.useAt op).1⟩

/-- A put drives out an entry that is not too old at a time, while there is one that is. -/
private def sparesExpired (u : Use) (now : Value) : Bool :=
  u.evicts && u.lost.all (fun s => !u.before.isExpired now s) &&
    u.before.slots.any (u.before.isExpired now)

/-- An entry that was made at no number is never too old, and goes before one that is; so does an
entry that a double was the time of, when the other times are integers beyond those that doubles tell
apart. -/
theorem fresh_entry_evicted_before_expired :
    sparesExpired (thirdPut (.int 10) (.float (0.0 / 0.0)) (.int 1) (.int 100)) (.int 100) = true ∧
      sparesExpired (thirdPut (.int 0) (.float 9007199254740992.0) (.int 9007199254740992)
        (.int 9007199254740993)) (.int 9007199254740993) = true := by
  decide +kernel

end Inquiry.Recommendation
