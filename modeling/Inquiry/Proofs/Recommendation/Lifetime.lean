import Inquiry.Proofs.Recommendation.Ages

/-!
# How long an entry can be read

A cache whose clock shows integers, or doubles and integers that doubles tell apart, never fails to
tell an age. So every history of it goes on to its end, and where the clock does not go back, a read
finds an entry just as long as it is not too old, nothing cleared the cache, and fewer entries came
after it than the cache has room for. What was read and swept in between makes no difference. Where
doubles stand among integers that they do not tell apart, it does: a difference is rounded, and a
sweep may find an entry older than a later read would.
-/
namespace Inquiry.Recommendation

open Op (times)

namespace Cache

/-- One use of a cache under a clock of values. -/
def stepAt (c : Cache Value) : Op Value → Except Defect (Cache Value)
  | .put id entry now => c.putAt id entry now
  | .get id now => (c.readAt (.str id) now).map Prod.fst
  | .sweep now => (c.sweepAt now).map Prod.fst
  | .clear => .ok c.clear.1

def runAt (c : Cache Value) : List (Op Value) → Except Defect (Cache Value)
  | [] => .ok c
  | op :: ops => do (← c.stepAt op).runAt ops

/-- What a read finds after a history that starts with an empty cache. -/
def foundAfter (ttl : Value) (capacity : Int) (ops : List (Op Value)) (id : String) (now : Value) :
    Except Defect (Option Recommendation) := do
  let c ← (empty ttl capacity).runAt ops
  (c.readAt (.str id) now).map Prod.snd

section Told

variable {Time : Value → Prop} {c : Cache Value} {limit : Number} {now : Value}

/-- A cache whose slots were made at times of which ages can be told. -/
structure Told (Time : Value → Prop) (c : Cache Value) : Prop where
  limited : ∃ limit, Number.ofValue? c.ttl = some limit
  created : ∀ s ∈ c.slots, Time s.created

/-- An age that is a number can be told. -/
theorem ageDefect?_of_difference (hc : ∃ limit, Number.ofValue? c.ttl = some limit) {s : Slot Value}
    (h : ∃ d a, Value.difference now s.created = .ok d ∧ Number.ofValue? d = some a) :
    c.ageDefect? now s = none := by
  obtain ⟨limit, hlimit⟩ := hc
  obtain ⟨age, a, hage, ha⟩ := h
  obtain ⟨answer, hanswer⟩ := less_isOk hlimit ha
  unfold ageDefect?
  rw [hage]
  change defect? (Value.greater age c.ttl) = none
  unfold Value.greater
  rw [hanswer]
  rfl

theorem ageDefect?_eq_none (h : Telling Time) (hc : ∃ limit, Number.ofValue? c.ttl = some limit)
    {s : Slot Value} (hs : Time s.created) (hnow : Time now) : c.ageDefect? now s = none :=
  ageDefect?_of_difference hc (h.difference hnow hs)

theorem orderDefect?_eq_none {best : Slot Value} {rest : List (Slot Value)}
    (hbest : ∃ x, Number.ofValue? best.created = some x)
    (hrest : ∀ s ∈ rest, ∃ x, Number.ofValue? s.created = some x) :
    orderDefect? best rest = none := by
  induction rest generalizing best with
  | nil => rfl
  | cons s rest ih =>
    obtain ⟨hs, hrest⟩ := List.forall_mem_cons.mp hrest
    obtain ⟨a, ha⟩ := hs
    obtain ⟨b, hb⟩ := hbest
    obtain ⟨answer, hanswer⟩ := less_isOk ha hb
    unfold orderDefect?
    rw [hanswer]
    refine ih ?_ hrest
    rcases earlier_cases best s with heq | heq
    · exact ⟨b, by rw [heq, hb]⟩
    · exact ⟨a, by rw [heq, ha]⟩

/-- A cache whose slots were made at numbers always finds the oldest one. -/
theorem putAt_of_numbers (h : ∀ s ∈ c.slots, ∃ x, Number.ofValue? s.created = some x) (id : String)
    (entry : Recommendation) (now : Value) : c.putAt id entry now = .ok (c.put id entry now) := by
  unfold putAt
  cases hslots : c.slots with
  | nil => rfl
  | cons s rest =>
    rw [hslots] at h
    obtain ⟨hs, hrest⟩ := List.forall_mem_cons.mp h
    dsimp only
    rw [orderDefect?_eq_none hs hrest, ite_self]

theorem Told.putAt_eq (h : Telling Time) (hc : c.Told Time) (id : String)
    (entry : Recommendation) (now : Value) : c.putAt id entry now = .ok (c.put id entry now) :=
  putAt_of_numbers (fun s hs => h.number (hc.created s hs)) id entry now

theorem Told.readAt_eq (h : Telling Time) (hc : c.Told Time) (hnow : Time now) (id : String) :
    c.readAt (.str id) now = .ok (c.get id now) := by
  have hage : (c.slot? id).bind (c.ageDefect? now) = none := by
    cases hslot : c.slot? id with
    | none => rfl
    | some s => exact ageDefect?_eq_none h hc.limited (hc.created s (slot?_eq_some hslot).1) hnow
  rw [readAt_str, hage]
  rfl

theorem Told.sweepAt_eq (h : Telling Time) (hc : c.Told Time) (hnow : Time now) :
    c.sweepAt now = .ok (c.sweep now) := by
  have hage : c.slots.findSome? (c.ageDefect? now) = none := by
    rw [List.findSome?_eq_none_iff]
    exact fun s hs => ageDefect?_eq_none h hc.limited (hc.created s hs) hnow
  unfold sweepAt
  rw [hage]

theorem Told.step {op : Op Value} (hc : c.Told Time) (hop : ∀ t ∈ op.now?, Time t) :
    (c.step op).Told Time where
  limited := by
    rw [step_ttl]
    exact hc.limited
  created s hs := by
    cases op with
    | put id entry now =>
      rcases mem_put hs with hs | rfl
      · exact hc.created s hs
      · exact hop now rfl
    | get id now => exact hc.created s ((get_slots_sublist c id now).subset hs)
    | sweep now => exact hc.created s ((sweep_slots_sublist c now).subset hs)
    | clear => exact absurd hs List.not_mem_nil

theorem Told.stepAt_eq (h : Telling Time) {op : Op Value} (hc : c.Told Time)
    (hop : ∀ t ∈ op.now?, Time t) : c.stepAt op = .ok (c.step op) := by
  cases op with
  | put id entry now => exact hc.putAt_eq h id entry now
  | get id now =>
    change (c.readAt (.str id) now).map Prod.fst = _
    rw [hc.readAt_eq h (hop now rfl)]
    rfl
  | sweep now =>
    change (c.sweepAt now).map Prod.fst = _
    rw [hc.sweepAt_eq h (hop now rfl)]
    rfl
  | clear => rfl

/-- A history of times of which ages can be told goes on to its end. -/
theorem Told.runAt_eq (h : Telling Time) {ops : List (Op Value)} (hc : c.Told Time)
    (hops : ∀ t ∈ times ops, Time t) : c.runAt ops = .ok (c.run ops) ∧ (c.run ops).Told Time := by
  induction ops generalizing c with
  | nil => exact ⟨rfl, hc⟩
  | cons op ops ih =>
    have hop : ∀ t ∈ op.now?, Time t := fun t ht =>
      hops t (List.mem_filterMap.mpr ⟨op, List.mem_cons_self, ht⟩)
    have hrest : ∀ t ∈ times ops, Time t := fun t ht =>
      hops t (((List.sublist_cons_self op ops).filterMap Op.now?).subset ht)
    unfold runAt
    rw [hc.stepAt_eq h hop]
    exact ih (hc.step hop) hrest

theorem foundAfter_eq (h : Telling Time) {ttl : Value} {capacity : Int}
    (hlimit : Number.ofValue? ttl = some limit) {ops : List (Op Value)}
    (htimes : ∀ t ∈ times ops ++ [now], Time t) (id : String) :
    foundAfter ttl capacity ops id now = .ok (((empty ttl capacity).run ops).get id now).2 := by
  have hempty : (empty ttl capacity).Told Time :=
    ⟨⟨limit, hlimit⟩, fun s hs => absurd hs List.not_mem_nil⟩
  obtain ⟨hrun, htold⟩ := hempty.runAt_eq h fun t ht => htimes t (List.mem_append_left _ ht)
  unfold foundAfter
  rw [hrun]
  change (((empty ttl capacity).run ops).readAt (.str id) now).map Prod.snd = _
  rw [htold.readAt_eq h (htimes now (by simp))]
  rfl

end Told

end Cache

open Cache

theorem filterMap_putId?_filter (ops : List (Op Value)) :
    (ops.filter Op.writes).filterMap Op.putId? = ops.filterMap Op.putId? := by
  rw [List.filterMap_filter]
  congr 1
  funext op
  cases op <;> rfl

/-- Times that are all integers, or all of them doubles or integers that doubles tell apart. So no
time is what is no number, and no double stands beside an integer from 2 ^ 52 on. -/
def Comparable (ts : List Value) : Prop := (∀ t ∈ ts, IsWhole t) ∨ ∀ t ∈ ts, IsReading t

variable {ttl : Value} {capacity : Int} {ops : List (Op Value)} {id : String} {now : Value}

theorem foundAfter_iff (httl : (Number.ofValue? ttl).isSome = true) (hcapacity : 1 ≤ capacity)
    (htimes : Comparable (times ops ++ [now]))
    (hclock : (times ops ++ [now]).Pairwise fun t t' => ¬ t' < t)
    (hids : (ops.filterMap Op.putId?).Nodup) :
    ∃ found, foundAfter ttl capacity ops id now = .ok found ∧
      ∀ entry, found = some entry ↔ Retrievable ttl capacity ops id entry now := by
  obtain ⟨limit, hlimit⟩ := Option.isSome_iff_exists.mp httl
  rcases htimes with htimes | htimes
  · exact ⟨_, foundAfter_eq telling_whole hlimit htimes id, fun entry =>
      get_run_eq_some_iff (aging_whole hlimit) hcapacity htimes hclock hids⟩
  · exact ⟨_, foundAfter_eq telling_reading hlimit htimes id, fun entry =>
      get_run_eq_some_iff (aging_reading hlimit) hcapacity htimes hclock hids⟩

/-- A read finds an entry just under the condition for it, whatever was read and swept before, as long
as the clock does not go back. A clock that shows what is no number, or doubles beside integers from
2 ^ 52 on, is left out, and under a limit that is no number no entry is ever too old. -/
theorem found_iff_retrievable (httl : (Number.ofValue? ttl).isSome = true)
    (hcapacity : 1 ≤ capacity) (htimes : Comparable (times ops ++ [now]))
    (hclock : (times ops ++ [now]).Pairwise fun t t' => ¬ t' < t)
    (hids : (ops.filterMap Op.putId?).Nodup) :
    (∃ found, foundAfter ttl capacity ops id now = .ok found ∧
      ∀ entry, found = some entry ↔ Retrievable ttl capacity ops id entry now) ∧
    ∀ ops' : List (Op Value), ops'.filter Op.writes = ops.filter Op.writes →
      Comparable (times ops' ++ [now]) →
      (times ops' ++ [now]).Pairwise (fun t t' => ¬ t' < t) →
      foundAfter ttl capacity ops' id now = foundAfter ttl capacity ops id now := by
  have hfound := @foundAfter_iff _ _ _ id _ httl hcapacity htimes hclock hids
  refine ⟨hfound, fun ops' hwrites htimes' hclock' => ?_⟩
  have hids' : (ops'.filterMap Op.putId?).Nodup := by
    rwa [← filterMap_putId?_filter, hwrites, filterMap_putId?_filter]
  obtain ⟨found, heq, hiff⟩ := hfound
  obtain ⟨found', heq', hiff'⟩ := @foundAfter_iff _ _ ops' id _ httl hcapacity htimes' hclock' hids'
  rw [heq, heq']
  refine congrArg Except.ok (Option.ext fun entry => ?_)
  rw [hiff, hiff', ← retrievable_filter_writes_iff, hwrites, retrievable_filter_writes_iff]

/-- Of two entries in a cache for one, the second one can be read when it is as old as it may be; the
first one has given up its place. -/
theorem found_iff_retrievable_evicted :
    let first : Recommendation := ⟨"sales by region", "orders", [], "", []⟩
    let second : Recommendation := ⟨"sales by month", "orders", [], "", []⟩
    let ops : List (Op Value) := [.put "a" first (.float 1.5), .sweep (.int 4),
      .get "a" (.float 4.5), .put "b" second (.float 8.0)]
    let queryAfter (id : String) : Option (Option String) :=
      (foundAfter (.int 10) 1 ops id (.int 18)).toOption.map (Option.map Recommendation.query)
    (∃ found, foundAfter (.int 10) 1 ops "b" (.int 18) = .ok found ∧
      ∀ entry, found = some entry ↔ Retrievable (.int 10) 1 ops "b" entry (.int 18)) ∧
    queryAfter "b" = some (some "sales by month") ∧ queryAfter "a" = some none := by
  intro first second ops queryAfter
  have htimes : Comparable (times ops ++ [Value.int 18]) := by
    refine Or.inr fun t ht => ?_
    simp only [ops, times, List.filterMap_cons, Op.now?, List.filterMap_nil, List.cons_append,
      List.nil_append, List.mem_cons, List.not_mem_nil, or_false] at ht
    rcases ht with rfl | rfl | rfl | rfl | rfl
    · exact ⟨.float 1.5, rfl, rfl⟩
    · exact ⟨.int 4, rfl, show (4 : Int).natAbs < 2 ^ 52 by decide⟩
    · exact ⟨.float 4.5, rfl, rfl⟩
    · exact ⟨.float 8.0, rfl, rfl⟩
    · exact ⟨.int 18, rfl, show (18 : Int).natAbs < 2 ^ 52 by decide⟩
  have hclock : (times ops ++ [Value.int 18]).Pairwise fun t t' => ¬ t' < t := by decide +kernel
  exact ⟨(found_iff_retrievable rfl (by decide) htimes hclock (by decide)).1, by decide +kernel,
    by decide +kernel⟩

/-- A clock that shows a double among integers that doubles do not tell apart: at the sweep the age is
rounded to 2 and over the limit of 1.5, and at the read after it it would be 1. And under a limit that
is no number an entry is found although its age is neither below the limit nor equal to it. -/
theorem young_entry_swept :
    let entry : Recommendation := ⟨"sales by region", "orders", [], "", []⟩
    let put (t : Value) : Op Value := .put "a" entry t
    let swept : List (Op Value) :=
      [put (.int 9007199254740993), .sweep (.float 9007199254740994.0)]
    let now : Value := .int 9007199254740994
    let queryAfter (ttl : Value) (ops : List (Op Value)) (t : Value) : Option (Option String) :=
      (foundAfter ttl 10 ops "a" t).toOption.map (Option.map Recommendation.query)
    ((times swept ++ [now]).Pairwise (fun t t' => ¬ t' < t) ∧
      now - .int 9007199254740993 < Value.float 1.5 ∧
      Retrievable (.float 1.5) 10 swept "a" entry now ∧
      queryAfter (.float 1.5) swept now = some none ∧
      queryAfter (.float 1.5) [put (.int 9007199254740993)] now = some (some "sales by region")) ∧
    (¬ Value.int 1 - .int 0 < Value.float (0.0 / 0.0) ∧
      Value.same (Value.int 1 - .int 0) (.float (0.0 / 0.0)) = false ∧
      queryAfter (.float (0.0 / 0.0)) [put (.int 0)] (.int 1) = some (some "sales by region")) := by
  intro entry put swept now queryAfter
  have hyoung : ¬ Value.float 1.5 < now - .int 9007199254740993 := by decide +kernel
  have hretrievable : Retrievable (.float 1.5) 10 swept "a" entry now :=
    ⟨[], _, [.sweep (.float 9007199254740994.0)], rfl, hyoung, by simp, by decide⟩
  refine ⟨⟨?_, ?_, hretrievable, ?_, ?_⟩, ?_, ?_, ?_⟩ <;> decide +kernel

end Inquiry.Recommendation
