import Inquiry.Proofs.Recommendation.Slots
import Inquiry.Server.Respond
import Mathlib.Algebra.Group.Nat.Defs
import Mathlib.Data.List.Nodup
import Mathlib.Logic.Relation

/-!
# What a service remembers under an id

A memory only changes by answers, by drawing again and by sweeps. As long as the ids that are given out
are different ones, what was once kept under an id is all that can be read under it later. Ids that are
counted are different, up to the number that they have room for.
-/
namespace Inquiry

namespace Recommendation

theorem hexDigit_inj {a b : Nat} (ha : a < 16) (hb : b < 16)
    (h : Text.hexDigit a = Text.hexDigit b) : a = b := by
  have hall : ∀ a < 16, ∀ b < 16, Text.hexDigit a = Text.hexDigit b → a = b := by decide
  exact hall a ha b hb h

theorem hexDigits_inj {width a b : Nat} (ha : a < 16 ^ width) (hb : b < 16 ^ width)
    (h : Text.hexDigits width a = Text.hexDigits width b) : a = b := by
  induction width generalizing a b with
  | zero => omega
  | succ width ih =>
    rw [Nat.pow_succ] at ha hb
    obtain ⟨hinit, hlast⟩ := List.append_inj' h rfl
    have hquotient := ih (Nat.div_lt_of_lt_mul (by omega)) (Nat.div_lt_of_lt_mul (by omega)) hinit
    have hdigit := hexDigit_inj (Nat.mod_lt a (by decide)) (Nat.mod_lt b (by decide))
      (List.singleton_inj.mp hlast)
    rw [← Nat.div_add_mod a 16, ← Nat.div_add_mod b 16, hquotient, hdigit]

/-- How many ids there are. -/
def idCount : Nat := 16 ^ 32

theorem idOf_inj {a b : Nat} (ha : a < idCount) (hb : b < idCount) (h : idOf a = idOf b) :
    a = b :=
  hexDigits_inj ha hb (String.ofList_injective h)

end Recommendation

open Recommendation (idOf idCount idOf_inj)

namespace Memory

/-- A memory and what one use of a service makes of it. -/
inductive Step (m : Memory) : Memory → Prop
  | answered (s : Service) (now : Value) (q : Question) : Step m (s.answer m now q).1
  | rendered (s : Service) (now recommendation selected limit : Value) :
    Step m (s.render m now recommendation selected limit).1
  | swept {now : Value} {m' : Memory} {removed : Nat} (h : m.sweep now = .ok (m', removed)) :
    Step m m'

/-- The second memory is what any uses of services made of the first one. -/
abbrev Later : Memory → Memory → Prop := Relation.ReflTransGen Step

/-- What a step does to the slots: it may keep an entry under the next id, and otherwise it only
removes. -/
inductive Change (m m' : Memory) : Prop
  | same (h : m' = m)
  | removed (c c' : Recommendation.Cache Value) (before : m.cache = .ok c)
    (after : m' = { m with cache := .ok c' }) (slots : c'.slots.Sublist c.slots)
  | kept (now : Value) (entry : Recommendation) (id : String)
    (keep : m.keep now entry = .ok (m', id))

/-- A read leaves what the cache makes of it, and gives out no id. -/
theorem read_ok {m m' : Memory} {now id : Value} {found : Option Recommendation}
    (h : m.read now id = .ok (m', found)) :
    ∃ c c', m.cache = .ok c ∧ c.readAt id now = .ok (c', found) ∧
      m' = { m with cache := .ok c' } := by
  unfold read at h
  obtain ⟨c, hc, hread⟩ := bind_eq_ok_iff.mp h
  cases hr : c.readAt id now with
  | error d =>
    rw [hr] at hread
    cases hread
  | ok r =>
    rw [hr] at hread
    cases hread
    exact ⟨c, r.1, hc, hr, rfl⟩

theorem read_change {m m' : Memory} {now id : Value} {found : Option Recommendation}
    (h : m.read now id = .ok (m', found)) : Change m m' := by
  obtain ⟨c, c', hc, hr, rfl⟩ := read_ok h
  exact .removed c c' hc rfl (Recommendation.Cache.readAt_slots_sublist hr)

theorem sweep_change {m m' : Memory} {now : Value} {removed : Nat}
    (h : m.sweep now = .ok (m', removed)) : Change m m' := by
  unfold sweep at h
  obtain ⟨c, hc, hsweep⟩ := bind_eq_ok_iff.mp h
  cases hr : c.sweepAt now with
  | error d =>
    rw [hr] at hsweep
    cases hsweep
  | ok r =>
    rw [hr] at hsweep
    cases hsweep
    have hslots := Recommendation.Cache.sweep_slots_sublist c now
    rw [← Recommendation.Cache.eq_sweep_of_sweepAt hr] at hslots
    exact .removed c r.1 hc rfl hslots

/-- A keep puts its entry into the cache, under the next id. -/
theorem keep_ok {m m' : Memory} {now : Value} {entry : Recommendation} {id : String}
    (h : m.keep now entry = .ok (m', id)) :
    ∃ c, m.cache = .ok c ∧ id = m.ids m.issued ∧
      m' = { m with cache := .ok (c.put id entry now), issued := m.issued + 1 } := by
  unfold keep at h
  obtain ⟨c, hc, hkeep⟩ := bind_eq_ok_iff.mp h
  refine ⟨c, hc, ?_⟩
  cases hp : c.putAt (m.ids m.issued) entry now with
  | error d =>
    simp only [hp] at hkeep
    cases hkeep
  | ok c' =>
    simp only [hp] at hkeep
    cases hkeep
    exact ⟨rfl, by rw [Recommendation.Cache.eq_put_of_putAt hp]⟩

end Memory

namespace Service

open Memory (Change)

/-- A draft without an id leaves the memory alone, and under an id stands what its hint needs. -/
theorem keep_ok {m m' : Memory} {now : Value} {q : Question} {d : Draft} {id : Option String}
    (h : keep m now q d = .ok (m', id)) :
    (m' = m ∧ id = none) ∨ ∃ hint name, d.compiled.draft.hint = some hint ∧ id = some name ∧
      m.keep now (entryOf q d hint) = .ok (m', name) := by
  unfold keep at h
  split at h
  · cases h
    exact Or.inl ⟨rfl, rfl⟩
  · rename_i hint hhint
    cases hm : m.keep now (entryOf q d hint) with
    | error f =>
      rw [hm] at h
      cases h
    | ok kept =>
      rw [hm] at h
      cases h
      exact Or.inr ⟨hint, kept.2, hhint, rfl, hm⟩

theorem answerIn_change (s : Service) (m : Memory) (now : Value) (q : Question) (mode : String) :
    Change m (answerIn s m now q mode).1 := by
  unfold answerIn
  dsimp only
  split
  · exact .same rfl
  · split
    · exact .same rfl
    · rename_i after id hkeep
      rcases keep_ok hkeep with ⟨hsame, -⟩ | ⟨hint, name, -, -, hkept⟩
      · exact .same hsame
      · exact .kept now _ name hkept

theorem answer_change (s : Service) (m : Memory) (now : Value) (q : Question) :
    Change m (s.answer m now q).1 := by
  unfold answer
  split
  · exact .same rfl
  · exact answerIn_change s m now q _

theorem render_change (s : Service) (m : Memory) (now recommendation selected limit : Value) :
    Change m (s.render m now recommendation selected limit).1 := by
  unfold render
  split
  · exact .same rfl
  · rename_i h
    exact Memory.read_change h
  · rename_i h
    exact Memory.read_change h

end Service

namespace Memory

theorem Step.change {m m' : Memory} (h : Step m m') : Change m m' := by
  cases h with
  | answered s now q => exact Service.answer_change s m now q
  | rendered s now recommendation selected limit => exact Service.render_change s m now _ _ _
  | swept h => exact sweep_change h

/-- Whatever a server does with a request is made of such steps. -/
theorem later_handle (s : Service) (m : Memory) (now : Value) (r : Server.Request) :
    Later m (Server.handle s m now r).1 := by
  unfold Server.handle
  dsimp only
  split
  · exact .refl
  · split
    · rename_i route _ _
      unfold Server.respond
      cases route with
      | ask =>
        dsimp only
        split
        · exact .refl
        · exact .single (.answered s now _)
      | visualize =>
        dsimp only
        split
        · exact .refl
        · exact .single (.rendered s now _ _ _)
      | cacheSweep =>
        dsimp only
        split
        · exact .refl
        · rename_i h
          exact .single (.swept h)
      | plan =>
        dsimp only
        split <;> exact .refl
      | cacheStats => exact .refl
      | collections => exact .refl
      | collection name => exact .refl
      | health => exact .refl
      | manual => exact .refl
    · exact .refl

/-- The ids that were given out. -/
def given (m : Memory) : List String := (List.range m.issued).map m.ids

theorem given_keep {m m' : Memory} {now : Value} {entry : Recommendation} {id : String}
    (h : m.keep now entry = .ok (m', id)) : m'.given = m.given ++ [id] := by
  obtain ⟨c, -, rfl, rfl⟩ := keep_ok h
  unfold given
  rw [List.range_succ, List.map_append]
  rfl

theorem given_prefix_of_change {m m' : Memory} (h : Change m m') : m.given <+: m'.given := by
  cases h with
  | same h => exact h ▸ List.prefix_rfl
  | removed c c' before after slots => exact after ▸ List.prefix_rfl
  | kept now entry id keep => exact given_keep keep ▸ List.prefix_append _ _

theorem given_prefix_of_later {m m' : Memory} (h : Later m m') : m.given <+: m'.given := by
  induction h with
  | refl => exact List.prefix_rfl
  | tail _ hstep ih => exact ih.trans (given_prefix_of_change hstep.change)

theorem ids_of_later {m m' : Memory} (h : Later m m') : m'.ids = m.ids := by
  induction h with
  | refl => rfl
  | tail _ hstep ih =>
    rw [← ih]
    cases hstep.change with
    | same h => rw [h]
    | removed c c' before after slots => rw [after]
    | kept now entry id keep =>
      obtain ⟨c, -, -, rfl⟩ := keep_ok keep
      rfl

/-- Ids that are counted are different ones. -/
theorem nodup_given_of_counted {source : Settings.Source} {m : Memory} (h : Later (start source) m)
    (hroom : m.issued < idCount) : m.given.Nodup := by
  have hids : m.ids = fun n => idOf (n + 1) := by
    rw [ids_of_later h, start, startWith]
  unfold given
  rw [hids]
  refine List.Nodup.map_on (fun a ha b hb heq => ?_) List.nodup_range
  have hlast : a + 1 < idCount := Nat.lt_of_le_of_lt (List.mem_range.mp ha) hroom
  have hlast' : b + 1 < idCount := Nat.lt_of_le_of_lt (List.mem_range.mp hb) hroom
  have hsame : a + 1 = b + 1 := idOf_inj hlast hlast' heq
  exact Nat.succ.inj hsame

/-- A property of slots that a change keeps: it holds of those that were there, and of a new one. -/
theorem forall_slots_of_change {P : Recommendation.Slot Value → Prop} {m m' : Memory}
    (h : Change m m') (hold : ∀ c, m.cache = .ok c → ∀ s ∈ c.slots, P s)
    (hnew : ∀ id entry now, m'.given = m.given ++ [id] → P ⟨id, entry, now⟩) :
    ∀ c, m'.cache = .ok c → ∀ s ∈ c.slots, P s := by
  intro c₂ hc₂ s hs
  cases h with
  | same h =>
    rw [h] at hc₂
    exact hold c₂ hc₂ s hs
  | removed c c' before after slots =>
    rw [after] at hc₂
    cases hc₂
    exact hold c before s (slots.subset hs)
  | kept now entry id keep =>
    have hgiven := given_keep keep
    obtain ⟨c, hc, rfl, rfl⟩ := keep_ok keep
    cases hc₂
    rcases Recommendation.Cache.mem_put hs with hs | rfl
    · exact hold c hc s hs
    · exact hnew _ entry now hgiven

/-- Every id in the cache was given out. -/
def Issued (m : Memory) : Prop := ∀ c, m.cache = .ok c → ∀ s ∈ c.slots, s.id ∈ m.given

theorem issued_startWith (ids : Nat → String) (source : Settings.Source) :
    Issued (startWith ids source) := by
  intro c hc s hs
  unfold startWith at hc
  cases source with
  | error f => cases hc
  | ok settings =>
    cases hc
    cases hs

theorem Issued.change {m m' : Memory} (hm : Issued m) (h : Change m m') : Issued m' := by
  refine forall_slots_of_change h ?_ ?_
  · exact fun c hc s hs => (given_prefix_of_change h).subset (hm c hc s hs)
  · intro id entry now hnext
    rw [hnext]
    exact List.mem_append_right _ List.mem_cons_self

theorem Issued.later {m m' : Memory} (hm : Issued m) (h : Later m m') : Issued m' := by
  induction h with
  | refl => exact hm
  | tail _ hstep ih => exact ih.change hstep.change

/-- Only `entry` can be read under `id`. -/
def Holds (m : Memory) (id : String) (entry : Recommendation) : Prop :=
  ∀ c, m.cache = .ok c → ∀ s ∈ c.slots, s.id = id → s.entry = entry

/-- An id that is given out is none of those before it, if all of them are different. -/
theorem not_mem_given {m m' : Memory} {id : String} (hids : m'.given.Nodup)
    (hnext : m'.given = m.given ++ [id]) : id ∉ m.given := by
  rw [hnext] at hids
  exact fun hmem => (List.nodup_append.mp hids).2.2 id hmem id List.mem_cons_self rfl

/-- Right after an entry is kept, only it can be read under its id. -/
theorem holds_keep {m m' : Memory} {now : Value} {entry : Recommendation} {id : String}
    (hm : Issued m) (hids : m'.given.Nodup) (h : m.keep now entry = .ok (m', id)) :
    Holds m' id entry ∧ id ∈ m'.given := by
  have hgiven := given_keep h
  have hnew := not_mem_given hids hgiven
  obtain ⟨c, hc, rfl, rfl⟩ := keep_ok h
  refine ⟨?_, hgiven ▸ List.mem_append_right _ List.mem_cons_self⟩
  intro c' hc' s hs hid
  cases hc'
  rcases Recommendation.Cache.mem_put hs with hs | rfl
  · exact absurd (hid ▸ hm c hc s hs) hnew
  · rfl

theorem Holds.later {m m' : Memory} {id : String} {entry : Recommendation} (hm : Holds m id entry)
    (hid : id ∈ m.given) (h : Later m m') (hids : m'.given.Nodup) : Holds m' id entry := by
  induction h with
  | refl => exact hm
  | tail hsteps hstep ih =>
    have hprefix := given_prefix_of_change hstep.change
    refine forall_slots_of_change hstep.change (ih (hids.sublist hprefix.sublist)) ?_
    intro id' entry' now hnext hsame
    -- The new id is none of those that were given out, and so not this one.
    subst hsame
    exact absurd ((given_prefix_of_later hsteps).subset hid) (not_mem_given hids hnext)

/-- What a read finds stood in the cache under the id. -/
theorem Holds.read {m m' : Memory} {now : Value} {id : String} {entry found : Recommendation}
    (hm : Holds m id entry) (h : m.read now (.str id) = .ok (m', some found)) : found = entry := by
  obtain ⟨c, c', hc, hr, -⟩ := read_ok h
  have hget := congrArg Prod.snd (Recommendation.Cache.eq_get_of_readAt hr)
  obtain ⟨s, hs, -, rfl⟩ := Recommendation.Cache.get_eq_some_iff.mp hget.symm
  obtain ⟨hmem, hid⟩ := Recommendation.Cache.slot?_eq_some hs
  exact hm c hc s hmem hid

/-- What is found later under the id of an entry is the entry. -/
theorem entry_of_read {ids : Nat → String} {source : Settings.Source} {m m₁ m₂ m₃ : Memory}
    {now now' : Value} {entry found : Recommendation} {id : String}
    (hm : Later (startWith ids source) m) (hkept : m.keep now entry = .ok (m₁, id))
    (hlater : Later m₁ m₂) (hids : m₂.given.Nodup)
    (hfound : m₂.read now' (.str id) = .ok (m₃, some found)) : found = entry := by
  have hids₁ : m₁.given.Nodup := hids.sublist (given_prefix_of_later hlater).sublist
  obtain ⟨hholds, hgiven⟩ := holds_keep ((issued_startWith ids source).later hm) hids₁ hkept
  exact (hholds.later hgiven hlater hids).read hfound

end Memory

end Inquiry
