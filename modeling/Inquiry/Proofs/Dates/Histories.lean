import Inquiry.Proofs.Dates.Sources

/-!
# Histories of sets

Sets of date fields are changed in place and copied, so a history is told with the places where the
names and the sources of each set are kept. A copy gets places of its own. Hence a change is seen in
one set only, and every set of a history that began with a schema is sourced.
-/
namespace Inquiry.DateFields

/-- What is done to one set: a name is tracked or untracked, or a pipeline is healed. -/
inductive Change where
  | track (name source : String)
  | untrack (name : String)
  | heal (forced : List String) (collection : String) (pipeline : Value)

def Change.apply (f : DateFields) : Change → DateFields
  | .track name source => f.track name source
  | .untrack name => f.untrack name
  | .heal forced collection pipeline =>
    (Dates.healPipeline forced (.start f) collection pipeline).1.fields

/-- One event of a history, with the number of the set that it is about. -/
inductive Event where
  | change (i : Nat) (c : Change)
  | copy (i : Nat)

/-- A set as it is held. Its schema never changes, so it needs no place. -/
structure Handle where
  namesAt : Nat
  sourcesAt : Nat
  schema : List String

/-- All places, and the sets in the order in which they were made. -/
structure Memory where
  names : List (List String)
  sources : List (List (String × String))
  handles : List Handle

namespace Memory

def read (m : Memory) (h : Handle) : DateFields :=
  ⟨m.names[h.namesAt]?.getD [], h.schema, m.sources[h.sourcesAt]?.getD []⟩

def write (m : Memory) (h : Handle) (f : DateFields) : Memory :=
  { m with
    names := m.names.set h.namesAt f.tracked
    sources := m.sources.set h.sourcesAt f.introduced }

/-- Makes a set, at new places. -/
def make (m : Memory) (f : DateFields) : Memory :=
  ⟨m.names ++ [f.tracked], m.sources ++ [f.introduced],
    m.handles ++ [⟨m.names.length, m.sources.length, f.schema⟩]⟩

/-- What the sets hold, in the order in which they were made. -/
def contents (m : Memory) : List DateFields := m.handles.map m.read

def step (m : Memory) : Event → Memory
  | .change i c =>
    match m.handles[i]? with
    | some h => m.write h (c.apply (m.read h))
    | none => m
  | .copy i =>
    match m.handles[i]? with
    | some h => m.make (m.read h)
    | none => m

def run (m : Memory) (events : List Event) : Memory := events.foldl step m

/-- The set of a schema, alone. -/
def seeded (snapshot : Option Schema) : Memory := make ⟨[], [], []⟩ (.seed snapshot)

/-- No two sets share a place. -/
structure Apart (m : Memory) : Prop where
  names : (m.handles.map Handle.namesAt).Nodup
  sources : (m.handles.map Handle.sourcesAt).Nodup
  inside : ∀ h ∈ m.handles, h.namesAt < m.names.length ∧ h.sourcesAt < m.sources.length

variable {m : Memory} {f : DateFields} {g h : Handle}

theorem read_write_self (hplace : h.namesAt < m.names.length ∧ h.sourcesAt < m.sources.length)
    (hschema : f.schema = h.schema) : (m.write h f).read h = f := by
  unfold read write
  rw [List.getElem?_set_self hplace.1, List.getElem?_set_self hplace.2, ← hschema]
  rfl

theorem read_write_of_ne (hnames : h.namesAt ≠ g.namesAt) (hsources : h.sourcesAt ≠ g.sourcesAt) :
    (m.write h f).read g = m.read g := by
  unfold read write
  rw [List.getElem?_set_ne hnames, List.getElem?_set_ne hsources]

theorem read_make_of_inside (hplace : g.namesAt < m.names.length ∧ g.sourcesAt < m.sources.length) :
    (m.make f).read g = m.read g := by
  unfold read make
  rw [List.getElem?_append_left hplace.1, List.getElem?_append_left hplace.2]

theorem contents_make (hm : m.Apart) (f : DateFields) :
    (m.make f).contents = m.contents ++ [f] := by
  have hold : m.handles.map (m.make f).read = m.handles.map m.read :=
    List.map_congr_left fun g hg => read_make_of_inside (hm.inside g hg)
  have hnew : (m.make f).read ⟨m.names.length, m.sources.length, f.schema⟩ = f := by
    unfold read make
    simp
  rw [contents, contents, ← hold]
  change List.map _ (m.handles ++ [_]) = _
  rw [List.map_append, List.map_singleton, hnew]

theorem apart_make (hm : m.Apart) (f : DateFields) : (m.make f).Apart := by
  have hnames : m.names.length ∉ m.handles.map Handle.namesAt := by
    intro hin
    obtain ⟨g, hg, heq⟩ := List.mem_map.mp hin
    have hlt := (hm.inside g hg).1
    omega
  have hsources : m.sources.length ∉ m.handles.map Handle.sourcesAt := by
    intro hin
    obtain ⟨g, hg, heq⟩ := List.mem_map.mp hin
    have hlt := (hm.inside g hg).2
    omega
  unfold make
  refine ⟨?_, ?_, fun g hg => ?_⟩
  · rw [List.map_append]
    exact List.nodup_append'.mpr ⟨hm.names, List.nodup_singleton _, by simpa using hnames⟩
  · rw [List.map_append]
    exact List.nodup_append'.mpr ⟨hm.sources, List.nodup_singleton _, by simpa using hsources⟩
  · rw [List.length_append, List.length_append, List.length_singleton, List.length_singleton]
    rcases List.mem_append.mp hg with hg | hg
    · have hplace := hm.inside g hg
      omega
    · obtain rfl := List.mem_singleton.mp hg
      exact ⟨Nat.lt_succ_self _, Nat.lt_succ_self _⟩

theorem apart_write (hm : m.Apart) (h : Handle) (f : DateFields) : (m.write h f).Apart := by
  refine ⟨hm.names, hm.sources, fun g hg => ?_⟩
  unfold write
  rw [List.length_set, List.length_set]
  exact hm.inside g hg

/-- A write is seen in the set that is written to, and in no other one. -/
theorem contents_write (hm : m.Apart) {i : Nat} (hi : m.handles[i]? = some h)
    (hschema : f.schema = h.schema) : (m.write h f).contents = m.contents.set i f := by
  apply List.ext_getElem?
  intro j
  unfold contents
  rw [List.getElem?_map, List.getElem?_set, List.getElem?_map, List.length_map]
  obtain ⟨hlt, -⟩ := List.getElem?_eq_some_iff.mp hi
  by_cases hij : i = j
  · subst hij
    rw [if_pos rfl, if_pos hlt]
    change (m.handles[i]?).map _ = _
    rw [hi]
    exact congrArg some (read_write_self (hm.inside h (List.mem_of_getElem? hi)) hschema)
  · rw [if_neg hij]
    change (m.handles[j]?).map _ = _
    cases hj : m.handles[j]? with
    | none => rfl
    | some g =>
      have hdistinct {place : Handle → Nat} (hnodup : (m.handles.map place).Nodup) :
          place h ≠ place g := by
        intro heq
        have hplaces : (m.handles.map place)[i]? = (m.handles.map place)[j]? := by
          rw [List.getElem?_map, List.getElem?_map, hi, hj, Option.map_some, Option.map_some, heq]
        have hlength : i < (m.handles.map place).length := by rwa [List.length_map]
        exact hij ((List.getElem?_inj hlength hnodup).mp hplaces)
      exact congrArg some (read_write_of_ne (hdistinct hm.names) (hdistinct hm.sources))

/-- What an event does to the contents of the sets. -/
def stepContents (fs : List DateFields) : Event → List DateFields
  | .change i c => fs.modify i c.apply
  | .copy i => fs ++ fs[i]?.toList

/-- No two sets share a place, and all are sourced. -/
structure Sound (schema : List String) (m : Memory) : Prop where
  apart : m.Apart
  sourced : ∀ f ∈ m.contents, f.Sourced schema

end Memory

open Memory

variable {schema : List String} {f : DateFields} {m : Memory}

theorem Sourced.healPipeline (h : Sourced schema f) (forced : List String) (collection : String)
    (pipeline : Value) :
    Sourced schema (Dates.healPipeline forced (.start f) collection pipeline).1.fields := by
  unfold Dates.healPipeline
  split
  · exact Dates.sourced_healStages h _
  · exact h

theorem Sourced.apply (h : Sourced schema f) (c : Change) : Sourced schema (c.apply f) := by
  cases c with
  | track name source => exact h.track name source
  | untrack name => exact h.untrack name
  | heal forced collection pipeline => exact h.healPipeline forced collection pipeline

theorem Memory.contents_step (hm : m.Sound schema) (e : Event) :
    (m.step e).contents = stepContents m.contents e := by
  cases e with
  | change i c =>
    rw [step, stepContents]
    cases hi : m.handles[i]? with
    | none =>
      rw [List.modify_eq_self]
      rw [contents, List.length_map]
      exact List.getElem?_eq_none_iff.mp hi
    | some h =>
      have hcontents : m.contents[i]? = some (m.read h) := by
        rw [contents, List.getElem?_map, hi]
        rfl
      have hsourced := hm.sourced _ (List.mem_of_getElem? hcontents)
      have hschema : (c.apply (m.read h)).schema = h.schema :=
        (hsourced.apply c).schema_eq.trans hsourced.schema_eq.symm
      rw [contents_write hm.apart hi hschema, List.modify_eq_set_getElem?, hcontents]
      rfl
  | copy i =>
    have hcontents : m.contents[i]? = m.handles[i]?.map m.read := List.getElem?_map
    rw [step, stepContents, hcontents]
    cases m.handles[i]? with
    | none => exact (List.append_nil _).symm
    | some h => exact contents_make hm.apart (m.read h)

theorem Memory.Sound.step (hm : m.Sound schema) (e : Event) : (m.step e).Sound schema := by
  refine ⟨?_, fun f hf => ?_⟩
  · cases e with
    | change i c =>
      rw [Memory.step]
      split
      · exact apart_write hm.apart _ _
      · exact hm.apart
    | copy i =>
      rw [Memory.step]
      split
      · exact apart_make hm.apart _
      · exact hm.apart
  · rw [contents_step hm] at hf
    cases e with
    | change i c =>
      obtain ⟨j, hj⟩ := List.mem_iff_getElem?.mp hf
      rw [stepContents, List.getElem?_modify] at hj
      obtain ⟨f', hf', rfl⟩ := Option.map_eq_some_iff.mp hj
      have hsourced := hm.sourced f' (List.mem_of_getElem? hf')
      split
      · exact hsourced.apply c
      · exact hsourced
    | copy i =>
      rcases List.mem_append.mp hf with hf | hf
      · exact hm.sourced f hf
      · exact hm.sourced f (List.mem_of_getElem? (Option.mem_toList.mp hf))

theorem Memory.sound_seeded (snapshot : Option Schema) :
    (seeded snapshot).Sound (DateFields.seed snapshot).schema := by
  have hempty : (Memory.mk [] [] []).Apart := by
    refine ⟨List.nodup_nil, List.nodup_nil, fun h hh => ?_⟩
    cases hh
  refine ⟨apart_make hempty _, fun f hf => ?_⟩
  rw [seeded, contents_make hempty] at hf
  obtain rfl := List.mem_singleton.mp hf
  exact Sourced.seed snapshot

theorem Memory.Sound.run (hm : m.Sound schema) (events : List Event) :
    (m.run events).Sound schema := by
  induction events generalizing m with
  | nil => exact hm
  | cons e events ih => exact ih (hm.step e)

/-- The event changes the set with the number `i`. -/
def Event.Changes (i : Nat) (e : Event) : Prop := ∃ c, e = .change i c

theorem getElem?_stepContents {fs : List DateFields} {i : Nat} (hi : i < fs.length) {e : Event}
    (he : ¬ e.Changes i) : (stepContents fs e)[i]? = fs[i]? := by
  cases e with
  | change j c =>
    have hne : j ≠ i := by
      rintro rfl
      exact he ⟨c, rfl⟩
    exact List.getElem?_modify_ne _ fs hne
  | copy j => exact List.getElem?_append_left hi

theorem length_le_stepContents (fs : List DateFields) (e : Event) :
    fs.length ≤ (stepContents fs e).length := by
  cases e with
  | change i c => rw [stepContents, List.length_modify]
  | copy i =>
    rw [stepContents, List.length_append]
    exact Nat.le_add_right _ _

theorem Memory.Sound.getElem?_run (hm : m.Sound schema) {i : Nat} (hi : i < m.contents.length)
    {events : List Event} (hevents : ∀ e ∈ events, ¬ e.Changes i) :
    (m.run events).contents[i]? = m.contents[i]? := by
  induction events generalizing m with
  | nil => rfl
  | cons e events ih =>
    obtain ⟨he, hrest⟩ := List.forall_mem_cons.mp hevents
    have hstep := contents_step hm e
    have hlength : i < (m.step e).contents.length := by
      rw [hstep]
      exact hi.trans_le (length_le_stepContents m.contents e)
    have hrun := ih (hm.step e) hlength hrest
    rw [hstep, getElem?_stepContents hi he] at hrun
    exact hrun

theorem mem_keys_iff {f : DateFields} {name : String} :
    name ∈ f.introduced.map (·.1) ↔ ∃ source, (name, source) ∈ f.introduced := by
  rw [List.mem_map]
  constructor
  · rintro ⟨⟨n, source⟩, hin, rfl⟩
    exact ⟨source, hin⟩
  · rintro ⟨source, hin⟩
    exact ⟨_, hin, rfl⟩

/-- In every set of every history that begins with the set of a schema, just the tracked names that
the schema does not have are recorded with a source, one for each. A run that begins with such a set
leaves as the source of a name a stage that it came to and that defined the name by an expression
that was a date at that point, and no later stage dropped the name. A copy holds what the original
holds, and whatever is done to it or to any other set, the original stays as it is. -/
theorem introduced_names_have_sources (snapshot : Option Schema) :
    (∀ events, ∀ f ∈ ((seeded snapshot).run events).contents,
      (f.introduced.map (·.1)).Nodup ∧
      ∀ name, (∃ source, (name, source) ∈ f.introduced) ↔
        f.contains name = true ∧ name ∉ (snapshot.map Schema.names).getD []) ∧
    (∀ forced collection pipeline name source,
      let start := Dates.Progress.start (.seed snapshot)
      (name, source) ∈ (Dates.healPipeline forced start collection pipeline).1.fields.introduced →
      ∃ vs i, pipeline = .list vs ∧
        Dates.IntroducedAt (forced.contains collection) 0 start vs name source i) ∧
    (∀ events i f, ((seeded snapshot).run events).contents[i]? = some f →
      let copied := ((seeded snapshot).run events).step (.copy i)
      copied.contents = ((seeded snapshot).run events).contents ++ [f] ∧
      ∀ later, (∀ e ∈ later, ¬ e.Changes i) → (copied.run later).contents[i]? = some f) := by
  have hschema : (DateFields.seed snapshot).schema = (snapshot.map Schema.names).getD [] := by
    cases snapshot <;> rfl
  have hsound (events : List Event) := (sound_seeded snapshot).run events
  refine ⟨fun events f hf => ?_, fun forced collection pipeline name source hin => ?_,
    fun events i f hf => ?_⟩
  · have hsourced := (hsound events).sourced f hf
    refine ⟨hsourced.single, fun name => ?_⟩
    rw [← mem_keys_iff, hsourced.names, hschema, contains_eq_decide, decide_eq_true_iff]
  · unfold Dates.healPipeline at hin
    split at hin
    · rename_i vs
      rcases Dates.mem_introduced_healStages (Sourced.seed snapshot) hin with ⟨hold, -⟩ | ⟨i, hi⟩
      · cases snapshot <;> cases hold
      · exact ⟨vs, i, rfl, hi⟩
    · cases snapshot <;> cases hin
  · have hcopied := contents_step (hsound events) (.copy i)
    have hi := (List.getElem?_eq_some_iff.mp hf).1
    rw [stepContents, hf] at hcopied
    refine ⟨hcopied, fun later hlater => ?_⟩
    have hlength : i < (((seeded snapshot).run events).step (.copy i)).contents.length := by
      rw [hcopied, List.length_append]
      omega
    rw [((hsound events).step (.copy i)).getElem?_run hlength hlater, hcopied,
      List.getElem?_append_left hi, hf]

/-- The only stage makes a date. -/
private def madePipeline : Value :=
  .list [.doc [("$addFields", .doc [("sent", .doc [("$toDate", .str "$raw")])])]]

private def madeFields : DateFields := ⟨["sent"], [], [("sent", "stage 0 ($addFields)")]⟩

theorem introduced_names_have_sources_sent :
    (∃ vs i, madePipeline = .list vs ∧
      Dates.IntroducedAt false 0 (.start .empty) vs "sent" "stage 0 ($addFields)" i) ∧
    ((((seeded none).run [.change 0 (.heal [] "orders" madePipeline)]).step (.copy 0)).run
      [.change 1 (.untrack "sent")]).contents[0]? = some madeFields := by
  obtain ⟨-, hsource, hcopy⟩ := introduced_names_have_sources none
  have hheal : (Dates.healPipeline [] (.start (.seed none)) "orders" madePipeline).1.fields =
      madeFields := by decide +kernel
  have hheld : ((seeded none).run
      [.change 0 (.heal [] "orders" madePipeline)]).contents[0]? = some madeFields :=
    congrArg some hheal
  refine ⟨hsource [] "orders" madePipeline "sent" _ ?_, (hcopy _ 0 madeFields hheld).2 _ ?_⟩
  · rw [hheal]
    exact List.mem_cons_self
  · rintro e he ⟨c, hc⟩
    rw [List.mem_singleton.mp he] at hc
    cases hc

end Inquiry.DateFields
