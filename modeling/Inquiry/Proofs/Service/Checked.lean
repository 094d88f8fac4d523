import Inquiry.Proofs.Service.Compiled
import Inquiry.Proofs.Service.Replay

/-!
# Nothing unchecked is sent

Whatever a model replies, an answer sends at most one pipeline, and only one that passed every check:
its collection is on offer, it is the plan's pipeline healed for that collection, and none of its
stages writes. What the answer reports and what is kept is this pipeline.
-/
namespace Inquiry

open Traced

namespace Store

/-- A stage of one operator, which is none that writes. -/
def ReadsOnly (stage : Value) : Prop :=
  ∃ op spec, stage = .dict [(.str op, spec)] ∧ isOperatorName op = true ∧
    op ≠ "$out" ∧ op ≠ "$merge"

/-- A stage with an entry for an operator that writes. -/
def Writes (stage : Value) : Prop :=
  (stage.get? "$out").isSome = true ∨ (stage.get? "$merge").isSome = true

theorem writesOf_eq_nil_iff {stage : Value} : writesOf stage = [] ↔ ¬ Writes stage := by
  unfold writesOf writeOperators Writes
  cases hmerge : (stage.get? "$merge").isSome <;> cases hout : (stage.get? "$out").isSome <;>
    simp [hmerge, hout]

theorem writesOf_call (op : String) (spec : Value) :
    writesOf (.dict [(.str op, spec)]) = writeOperators.filter (op = ·) := by
  refine List.filter_congr fun w _ => ?_
  by_cases h : op = w
  · simp [Value.get?, Value.lookup, h]
  · simp [Value.get?, Value.lookup, h]

theorem firstWrite?_eq_none_iff {index : Nat} {stages : List Value} :
    firstWrite? index stages = none ↔ ∀ stage ∈ stages, ¬ Writes stage := by
  induction stages generalizing index with
  | nil => simp [firstWrite?]
  | cons stage stages ih =>
    rw [firstWrite?, List.forall_mem_cons, ← writesOf_eq_nil_iff]
    cases hstage : writesOf stage with
    | nil => simpa using ih
    | cons op ops => simp

/-- Stages that write alike are refused alike. -/
theorem firstWrite?_congr {index : Nat} {vs ws : List Value}
    (h : List.Forall₂ (fun v w => writesOf v = writesOf w) vs ws) :
    firstWrite? index vs = firstWrite? index ws := by
  induction h generalizing index with
  | nil => rfl
  | cons hv _ ih =>
    rw [firstWrite?, firstWrite?, hv, ih]

theorem checkReadOnly_of_none {stages : List Value} (h : firstWrite? 0 stages = none)
    (collection : String) : checkReadOnly (.list stages) collection = .ok stages.length := by
  simp only [checkReadOnly, Store.stages, Rows.parts, bind, Except.bind, h]

theorem checkReadOnly_of_some {stages : List Value} {index : Nat} {ops : List String}
    (h : firstWrite? 0 stages = some (index, ops)) (collection : String) :
    checkReadOnly (.list stages) collection = (payloadText (.list stages)).bind fun text =>
      .error (.run (.writes index ops text collection)) := by
  simp only [checkReadOnly, Store.stages, Rows.parts, bind, Except.bind, h]

theorem firstWrite?_of_checkReadOnly {stages : List Value} {collection : String} {count : Nat}
    (h : checkReadOnly (.list stages) collection = .ok count) : firstWrite? 0 stages = none := by
  cases hfirst : firstWrite? 0 stages with
  | none => rfl
  | some found =>
    rw [checkReadOnly_of_some hfirst] at h
    cases htext : payloadText (.list stages) <;> rw [htext] at h <;> cases h

theorem readsOnly_of_checkReadOnly {stages : List Value} {collection : String} {count : Nat}
    (h : checkReadOnly (.list stages) collection = .ok count)
    (hcalls : ∀ stage ∈ stages, ∃ op spec, stage = .dict [(.str op, spec)] ∧
      isOperatorName op = true) :
    ∀ stage ∈ stages, ReadsOnly stage := by
  intro stage hstage
  obtain ⟨op, spec, rfl, hop⟩ := hcalls stage hstage
  have hwrites := firstWrite?_eq_none_iff.mp (firstWrite?_of_checkReadOnly h) _ hstage
  refine ⟨op, spec, rfl, hop, ?_, ?_⟩
  · rintro rfl
    exact hwrites (Or.inl rfl)
  · rintro rfl
    exact hwrites (Or.inr rfl)

/-- A pipeline that writes is not sent. -/
theorem sending_of_firstWrite? {settings : Settings} {stages : List Value} {index : Nat}
    {ops : List String} (h : firstWrite? 0 stages = some (index, ops))
    (hkeys : Json.badKey? (.list stages) = none) (collection : String) (given : Value) :
    sending (.ok settings) (.list stages) collection given =
      .error (.run (.writes index ops (Json.compact (.list stages)) collection)) := by
  have hlimit : ∃ limit, limitOr (.ok settings) given = .ok limit := by
    unfold limitOr
    split <;> exact ⟨_, rfl⟩
  obtain ⟨limit, hlimit⟩ := hlimit
  unfold sending
  rw [hlimit, checkReadOnly_of_some h, payloadText, hkeys]
  rfl

/-- Any other pipeline is sent, if its time limit can be read. -/
theorem sending_of_timeLimit {settings : Settings.Source} {stages : List Value} {given : Value}
    {whole : Int} (h : firstWrite? 0 stages = none) (hlimit : timeLimit settings given = .ok whole)
    (collection : String) :
    sending settings (.list stages) collection given = .ok ⟨collection, .list stages, whole⟩ := by
  unfold timeLimit at hlimit
  cases hgiven : limitOr settings given with
  | error f =>
    rw [hgiven] at hlimit
    cases hlimit
  | ok limit =>
    rw [hgiven] at hlimit
    cases hwhole : wholeLimit limit with
    | error d =>
      simp only [Except.bind, hwhole, mapError_error] at hlimit
      cases hlimit
    | ok n =>
      simp only [Except.bind, hwhole, mapError_ok] at hlimit
      cases hlimit
      exact sending_ok_iff.mpr ⟨limit, _, whole, hgiven, checkReadOnly_of_none h _, hwhole, rfl⟩

end Store

/-- Every stage of a healed pipeline is one operator. -/
theorem Dates.calls_of_healStages {force : Bool} {index : Nat} {p p' : Progress}
    {vs out : List Value} (h : healStages force index p vs = (p', .ok out)) :
    ∀ w ∈ out, ∃ op spec, w = .dict [(.str op, spec)] ∧ isOperatorName op = true := by
  have hkept := healStages_keeps_operators h
  clear h
  induction hkept with
  | nil => simp
  | cons hw _ ih =>
    obtain ⟨op, -, spec, hop, -, hw⟩ := hw
    exact List.forall_mem_cons.mpr ⟨⟨op, spec, hw, hop⟩, ih⟩

namespace Memory

/-- A keep adds one slot, and the others were there before. -/
theorem keep_slots {m m' : Memory} {now : Value} {entry : Recommendation} {id : String}
    (h : m.keep now entry = .ok (m', id)) :
    ∃ before after, m.cache = .ok before ∧ m'.cache = .ok after ∧
      ⟨id, entry, now⟩ ∈ after.slots ∧
      ∀ slot ∈ after.slots, slot ∈ before.slots ∨ slot = ⟨id, entry, now⟩ := by
  obtain ⟨c, hc, rfl, rfl⟩ := keep_ok h
  refine ⟨c, _, hc, rfl, ?_, fun slot hslot => Recommendation.Cache.mem_put hslot⟩
  rw [Recommendation.Cache.put_slots]
  exact List.mem_append_right _ (List.mem_singleton.mpr rfl)

end Memory

namespace Service

variable {s : Service} {q : Question} {c : Compiled} {mode : String}

theorem work_of_uncompiled (h : ∀ c, (compile s { q with mode := some mode }).result ≠ .ok c) :
    (∃ f, (work s q mode).result = .error f) ∧ (work s q mode).trace.runs = [] := by
  cases hc : (compile s { q with mode := some mode }).result with
  | ok c => exact absurd hc (h c)
  | error f =>
    unfold work
    rw [bind_of_error hc]
    exact ⟨⟨f, rfl⟩, silent_compile _ _⟩

theorem work_of_compiled (h : (compile s { q with mode := some mode }).result = .ok c) :
    (work s q mode).trace.runs = ((Store.sending s.settings (.list c.pipeline) c.draft.primary
        q.runLimit).toOption).toList ∧
      (∀ f, Store.sending s.settings (.list c.pipeline) c.draft.primary q.runLimit = .error f →
        (work s q mode).result = .error f) ∧
      ∀ d, (work s q mode).result = .ok d → d.compiled = c := by
  refine ⟨?_, ?_, ?_⟩
  · rw [work_runs h, Store.runs_run]
  · intro f hf
    have hrun : (Store.run s.settings s.database (.list c.pipeline) c.draft.primary
        q.runLimit).result = .error f := by
      rcases Store.run_cases s.settings s.database (.list c.pipeline) c.draft.primary q.runLimit
        with ⟨e, he, hresult, -⟩ | ⟨r, _, hr, -, -⟩
      · rw [hf] at he
        cases he
        exact hresult
      · rw [hf] at hr
        cases hr
    unfold work
    rw [bind_of_ok h]
    dsimp only
    rw [bind_of_error hrun]
  · intro d hd
    obtain ⟨compiled, hcompiled, hrest⟩ := bind_result_ok_iff.mp hd
    obtain ⟨rows, -, hrest⟩ := bind_result_ok_iff.mp hrest
    obtain ⟨drawn, -, hrest⟩ := bind_result_ok_iff.mp hrest
    obtain ⟨narrative, -, hdone⟩ := bind_result_ok_iff.mp hrest
    rw [h] at hcompiled
    cases hcompiled
    cases hdone
    rfl

variable {m m' : Memory} {now : Value} {answered : Traced Answer}

theorem answerIn_runs (s : Service) (m : Memory) (now : Value) (q : Question) (mode : String) :
    (answerIn s m now q mode).2.trace.runs = (work s q mode).trace.runs := by
  unfold answerIn
  dsimp only
  split
  · rfl
  · split
    · rfl
    · rw [runs_append, runs_append, List.append_nil]
      rfl

theorem answerIn_of_error {f : Fault} (h : (work s q mode).result = .error f) :
    (answerIn s m now q mode).1 = m ∧ (answerIn s m now q mode).2.result = .error f := by
  unfold answerIn
  dsimp only
  rw [h]
  exact ⟨rfl, rfl⟩

/-- What became of a pipeline that was sent: a fault that leaves the memory alone, or a draft that is
kept and answered. -/
inductive Finished (m : Memory) (now : Value) (q : Question) (c : Compiled) (m' : Memory)
    (result : Except Fault Answer) : Prop
  | failed (f : Fault) (memory : m' = m) (result : result = .error f)
  | kept (d : Draft) (id : Option String) (compiled : d.compiled = c)
    (keep : keep m now q d = .ok (m', id)) (result : result = answerOf q d id)

theorem answerIn_finished (h : ∀ d, (work s q mode).result = .ok d → d.compiled = c) :
    Finished m now q c (answerIn s m now q mode).1 (answerIn s m now q mode).2.result := by
  unfold answerIn
  dsimp only
  split
  · exact .failed _ rfl rfl
  · rename_i d hd
    cases hkeep : keep m now q d with
    | error f => exact .failed f rfl rfl
    | ok kept => exact .kept d kept.2 (h d hd) hkeep rfl

/-- How the answer to a question comes about. -/
inductive Course (s : Service) (m : Memory) (now : Value) (q : Question) (m' : Memory)
    (answered : Traced Answer) : Prop
  | uncompiled (f : Fault) (compiled : ∀ c, (compile s q).result ≠ .ok c)
    (runs : answered.trace.runs = []) (memory : m' = m) (result : answered.result = .error f)
  | refused (c : Compiled) (f : Fault) (compiled : (compile s q).result = .ok c)
    (sending : Store.sending s.settings (.list c.pipeline) c.draft.primary q.runLimit = .error f)
    (runs : answered.trace.runs = []) (memory : m' = m) (result : answered.result = .error f)
  | sent (c : Compiled) (run : Run) (compiled : (compile s q).result = .ok c)
    (sending : Store.sending s.settings (.list c.pipeline) c.draft.primary q.runLimit = .ok run)
    (runs : answered.trace.runs = [run]) (finished : Finished m now q c m' answered.result)

theorem answer_course (s : Service) (m : Memory) (now : Value) (q : Question) :
    Course s m now q (s.answer m now q).1 (s.answer m now q).2 := by
  unfold answer
  cases hmode : Settings.modeOr s.settings q.mode with
  | error f =>
    refine .uncompiled f (fun c hc => ?_) rfl rfl rfl
    obtain ⟨mode, hused⟩ := (prepared_of_compile hc).mode
    rw [hmode] at hused
    cases hused
  | ok mode =>
    dsimp only
    have hsame := compile_of_modeOr hmode
    have hruns := answerIn_runs s m now q mode
    cases hcompile : (compile s q).result with
    | error e =>
      have hnone : ∀ c, (compile s { q with mode := some mode }).result ≠ .ok c := by
        intro c hc
        rw [hsame, hcompile] at hc
        cases hc
      obtain ⟨⟨f, hf⟩, hsilent⟩ := work_of_uncompiled hnone
      obtain ⟨hmemory, hresult⟩ := @answerIn_of_error s q mode m now f hf
      refine .uncompiled f (fun c hc => ?_) (hruns.trans hsilent) hmemory hresult
      rw [hcompile] at hc
      cases hc
    | ok c =>
      obtain ⟨hsent, hrefused, hcompiled⟩ := work_of_compiled ((congrArg _ hsame).trans hcompile)
      cases hsending : Store.sending s.settings (.list c.pipeline) c.draft.primary q.runLimit with
      | error f =>
        obtain ⟨hmemory, hresult⟩ := @answerIn_of_error s q mode m now f (hrefused f hsending)
        refine .refused c f hcompile hsending ?_ hmemory hresult
        rw [hruns, hsent, hsending]
        rfl
      | ok run =>
        refine .sent c run hcompile hsending ?_ (answerIn_finished hcompiled)
        rw [hruns, hsent, hsending]
        rfl

/-- The checks behind a run. -/
structure Checked (s : Service) (q : Question) (c : Compiled) (run : Run) : Prop where
  compiled : (compile s q).result = .ok c
  collection : run.collection = c.draft.primary
  offered : Store.Offered s.database q.collections run.collection
  pipeline : run.pipeline = .list c.pipeline
  healed : HealedFor s c
  readsOnly : ∀ stage ∈ c.pipeline, Store.ReadsOnly stage

/-- An entry from which a run can be repeated. -/
def Repeats (run : Run) (entry : Recommendation) : Prop :=
  entry.primary = run.collection ∧ .list entry.pipeline = run.pipeline

/-- What is told and kept of a run is what was sent. -/
structure Recorded (m m' : Memory) (c : Compiled) (run : Run) (result : Except Fault Answer) :
    Prop where
  answer : ∀ a, result = .ok a → a.compiled = c
  /-- The answer's id leads to the run. -/
  recommendation : ∀ a id, result = .ok a → a.recommendation = some id →
    ∃ cache, m'.cache = .ok cache ∧ ∃ slot ∈ cache.slots, slot.id = id ∧ Repeats run slot.entry
  /-- Nothing else was added to the cache. -/
  slots : ∀ cache, m'.cache = .ok cache → ∀ slot ∈ cache.slots,
    (∃ before, m.cache = .ok before ∧ slot ∈ before.slots) ∨ Repeats run slot.entry

theorem checked_of_sending {run : Run} (hcompile : (compile s q).result = .ok c)
    (hsending : Store.sending s.settings (.list c.pipeline) c.draft.primary q.runLimit = .ok run) :
    Checked s q c run := by
  have hprepared := prepared_of_compile hcompile
  obtain ⟨hcollection, hpipeline⟩ := Store.sending_eq hsending
  obtain ⟨-, count, -, -, hcount, -, -⟩ := Store.sending_ok_iff.mp hsending
  obtain ⟨settings, schema, after, -, -, hrun⟩ := hprepared.healed
  obtain ⟨stages, hstages, hheal⟩ := Dates.healPipeline_ok_iff.mp hrun
  refine ⟨hcompile, hcollection, hcollection ▸ hprepared.offered, hpipeline, hprepared.healed, ?_⟩
  exact Store.readsOnly_of_checkReadOnly hcount (Dates.calls_of_healStages hheal)

theorem answerOf_ok {d : Draft} {id : Option String} {a : Answer} (h : answerOf q d id = .ok a) :
    a.compiled = d.compiled ∧ a.recommendation = id := by
  obtain ⟨rows, -, rfl⟩ := Expression.ok_of_map_ok h
  exact ⟨rfl, rfl⟩

theorem recorded_of_finished {run : Run} {result : Except Fault Answer}
    (h : Finished m now q c m' result) (hcollection : run.collection = c.draft.primary)
    (hpipeline : run.pipeline = .list c.pipeline) : Recorded m m' c run result := by
  have hsame : ∀ cache, m.cache = .ok cache → ∀ slot ∈ cache.slots,
      (∃ before, m.cache = .ok before ∧ slot ∈ before.slots) ∨ Repeats run slot.entry :=
    fun cache hcache slot hslot => Or.inl ⟨cache, hcache, hslot⟩
  cases h with
  | failed f memory result =>
    subst memory result
    refine ⟨fun a ha => ?_, fun a id ha => ?_, hsame⟩
    · cases ha
    · cases ha
  | kept d id compiled keep result =>
    subst compiled result
    have hanswer : ∀ a, answerOf q d id = .ok a → a.compiled = d.compiled :=
      fun a ha => (answerOf_ok ha).1
    rcases keep_ok keep with ⟨rfl, rfl⟩ | ⟨hint, name, -, rfl, hkeep⟩
    · refine ⟨hanswer, fun a id ha hid => ?_, hsame⟩
      rw [(answerOf_ok ha).2] at hid
      cases hid
    · have hrepeats : Repeats run (entryOf q d hint) := ⟨hcollection.symm, hpipeline.symm⟩
      obtain ⟨before, after, hbefore, hafter, hnew, hslots⟩ := Memory.keep_slots hkeep
      refine ⟨hanswer, fun a id ha hid => ?_, fun cache hcache slot hslot => ?_⟩
      · rw [(answerOf_ok ha).2] at hid
        cases hid
        exact ⟨after, hafter, _, hnew, rfl, hrepeats⟩
      · cases hafter.symm.trans hcache
        rcases hslots slot hslot with hold | rfl
        · exact Or.inl ⟨before, hbefore, hold⟩
        · exact Or.inr hrepeats

/-- Healing keeps the operators, so the plan and what is sent write alike. -/
theorem firstWrite?_pipeline (h : HealedFor s c) :
    Store.firstWrite? 0 c.pipeline = Store.firstWrite? 0 c.draft.pipeline := by
  obtain ⟨settings, schema, after, -, -, hrun⟩ := h
  obtain ⟨stages, hstages, hheal⟩ := Dates.healPipeline_ok_iff.mp hrun
  cases hstages
  refine (Store.firstWrite?_congr ((Dates.healStages_keeps_operators hheal).imp ?_)).symm
  rintro v w ⟨op, spec, spec', -, rfl, rfl⟩
  rw [Store.writesOf_call, Store.writesOf_call]

/-- A compiled question with a stage that writes is refused with the first such stage. -/
theorem sending_of_writes (hcompile : (compile s q).result = .ok c)
    (hwrites : ∃ stage ∈ c.draft.pipeline, Store.Writes stage) :
    ∃ index ops, Store.firstWrite? 0 c.draft.pipeline = some (index, ops) ∧
      Store.sending s.settings (.list c.pipeline) c.draft.primary q.runLimit =
        .error (.run (.writes index ops (Json.compact (.list c.pipeline)) c.draft.primary)) := by
  have hprepared := prepared_of_compile hcompile
  have hsame := firstWrite?_pipeline hprepared.healed
  obtain ⟨settings, schema, after, hsettings, -, -⟩ := hprepared.healed
  cases hfound : Store.firstWrite? 0 c.draft.pipeline with
  | none =>
    obtain ⟨stage, hstage, hwrite⟩ := hwrites
    exact absurd hwrite (Store.firstWrite?_eq_none_iff.mp hfound stage hstage)
  | some found =>
    refine ⟨found.1, found.2, rfl, ?_⟩
    rw [hsettings]
    exact Store.sending_of_firstWrite? (hsame.trans hfound) hprepared.writable _ _

theorem sending_of_reads {whole : Int} (hcompile : (compile s q).result = .ok c)
    (hreads : ∀ stage ∈ c.draft.pipeline, ¬ Store.Writes stage)
    (hlimit : Store.timeLimit s.settings q.runLimit = .ok whole) :
    Store.sending s.settings (.list c.pipeline) c.draft.primary q.runLimit =
      .ok ⟨c.draft.primary, .list c.pipeline, whole⟩ := by
  have hsame := firstWrite?_pipeline (prepared_of_compile hcompile).healed
  have hnone := hsame.trans (Store.firstWrite?_eq_none_iff.mpr hreads)
  exact Store.sending_of_timeLimit hnone hlimit _

/-- Whatever the store holds and the model replies, at most one pipeline is sent for a question, and
it was checked; the answer and the cache tell of it and of no other. Without it there is no answer and
nothing is kept. A question that compiles to a pipeline with a stage that writes is refused so, as a
failed run that names the first such stage; any other one that compiles is sent, if its time limit can
be read. -/
theorem answer_sends_checked (s : Service) (m : Memory) (now : Value) (q : Question) :
    let after := (s.answer m now q).1
    let answered := (s.answer m now q).2
    answered.trace.runs.length ≤ 1 ∧
    (∀ run ∈ answered.trace.runs, ∃ c, Checked s q c run ∧
      Recorded m after c run answered.result) ∧
    (answered.trace.runs = [] → after = m ∧ ∃ f, answered.result = .error f) ∧
    (∀ c, (compile s q).result = .ok c → (∃ stage ∈ c.draft.pipeline, Store.Writes stage) →
      answered.trace.runs = [] ∧ after = m ∧
      ∃ index ops f, Store.firstWrite? 0 c.draft.pipeline = some (index, ops) ∧
        f = .writes index ops (Json.compact (.list c.pipeline)) c.draft.primary ∧
        f.kind = .failedRun ∧ answered.result = .error (.run f)) ∧
    (∀ c whole, (compile s q).result = .ok c →
      (∀ stage ∈ c.draft.pipeline, ¬ Store.Writes stage) →
      Store.timeLimit s.settings q.runLimit = .ok whole →
      answered.trace.runs = [⟨c.draft.primary, .list c.pipeline, whole⟩]) := by
  dsimp only
  cases answer_course s m now q with
  | uncompiled f compiled runs memory result =>
    rw [runs]
    refine ⟨Nat.zero_le 1, by simp, fun _ => ⟨memory, f, result⟩, fun c hc => ?_,
      fun c _ hc => ?_⟩
    · exact absurd hc (compiled c)
    · exact absurd hc (compiled c)
  | refused c f compiled sending runs memory result =>
    rw [runs]
    refine ⟨Nat.zero_le 1, by simp, fun _ => ⟨memory, f, result⟩, fun c' hc' hwrites => ?_,
      fun c' whole hc' hreads hlimit => ?_⟩
    · cases compiled.symm.trans hc'
      obtain ⟨index, ops, hfirst, hrefused⟩ := sending_of_writes compiled hwrites
      cases sending.symm.trans hrefused
      exact ⟨rfl, memory, index, ops, _, hfirst, rfl, rfl, result⟩
    · cases compiled.symm.trans hc'
      cases sending.symm.trans (sending_of_reads compiled hreads hlimit)
  | sent c run compiled sending runs finished =>
    have hchecked := checked_of_sending compiled sending
    rw [runs]
    refine ⟨Nat.le_refl 1, ?_, fun hnone => ?_, fun c' hc' hwrites => ?_,
      fun c' whole hc' hreads hlimit => ?_⟩
    · intro run' hrun
      cases List.mem_singleton.mp hrun
      exact ⟨c, hchecked, recorded_of_finished finished hchecked.collection hchecked.pipeline⟩
    · cases hnone
    · cases compiled.symm.trans hc'
      obtain ⟨index, ops, -, hrefused⟩ := sending_of_writes compiled hwrites
      cases sending.symm.trans hrefused
    · cases compiled.symm.trans hc'
      cases sending.symm.trans (sending_of_reads compiled hreads hlimit)
      rfl

namespace Sample

def copying : String :=
  "\x7b\"primary_collection\": \"sales\", \"pipeline\": [\x7b\"$match\": \x7b\x7d\x7d, " ++
    "\x7b\"$out\": \"copy\"\x7d]\x7d"

/-- A service whose model asks for a copy of what it reads. -/
def copier : Service := { service with model := fun _ _ => ⟨.ok (some copying), []⟩ }

def order : Question := { question with collections := .strs ["sales"], mode := some "openai" }

theorem order_compiled : ∃ c, (compile copier order).result = .ok c ∧ c.draft.primary = "sales" ∧
    Store.firstWrite? 0 c.draft.pipeline = some (1, ["$out"]) := by
  have hcheck : (match (compile copier order).result with
      | .ok c => c.draft.primary = "sales" &&
          Store.firstWrite? 0 c.draft.pipeline = some (1, ["$out"])
      | .error _ => false) = true := by decide +kernel
  cases h : (compile copier order).result with
  | error f =>
    rw [h] at hcheck
    cases hcheck
  | ok c =>
    rw [h] at hcheck
    obtain ⟨hprimary, hfirst⟩ := (Bool.and_eq_true _ _).mp hcheck
    exact ⟨c, rfl, of_decide_eq_true hprimary, of_decide_eq_true hfirst⟩

end Sample

theorem answer_sends_checked_sales :
    (∃ c run, Sample.answered.2.trace.runs = [run] ∧
      Checked Sample.service Sample.question c run ∧
      ∃ cache, Sample.answered.1.cache = .ok cache ∧ ∃ slot ∈ cache.slots,
        slot.id = Recommendation.idOf 1 ∧ Repeats run slot.entry) ∧
    let m := Memory.start Sample.copier.settings
    let refused := Sample.copier.answer m (.int 0) Sample.order
    refused.2.trace.runs = [] ∧ refused.1 = m ∧
      ∃ text, refused.2.result = .error (.run (.writes 1 ["$out"] text "sales")) := by
  constructor
  · obtain ⟨a, _, ha, -, hid, -⟩ := Sample.answered_ok
    obtain ⟨hone, hchecked, hnone, -⟩ := answer_sends_checked Sample.service
      (Memory.start Sample.service.settings) (.int 0) Sample.question
    change Sample.answered.2.trace.runs.length ≤ 1 at hone
    change ∀ run ∈ Sample.answered.2.trace.runs, _ at hchecked
    change Sample.answered.2.trace.runs = [] → _ ∧ ∃ f, Sample.answered.2.result = .error f at hnone
    cases hruns : Sample.answered.2.trace.runs with
    | nil =>
      obtain ⟨-, f, hf⟩ := hnone hruns
      rw [ha] at hf
      cases hf
    | cons run runs =>
      rw [hruns, List.length_cons] at hone
      obtain rfl : runs = [] := List.eq_nil_of_length_eq_zero (by omega)
      obtain ⟨c, hrun, hrecorded⟩ := hchecked run (hruns ▸ List.mem_cons_self)
      exact ⟨c, run, rfl, hrun, hrecorded.recommendation a _ ha hid⟩
  · obtain ⟨c, hc, hprimary, hfirst⟩ := Sample.order_compiled
    have hwrites : ∃ stage ∈ c.draft.pipeline, Store.Writes stage := by
      by_contra hnone
      have hread : Store.firstWrite? 0 c.draft.pipeline = none := Store.firstWrite?_eq_none_iff.mpr
        fun stage hstage hwrite => hnone ⟨stage, hstage, hwrite⟩
      rw [hfirst] at hread
      cases hread
    obtain ⟨-, -, -, hrefused, -⟩ := answer_sends_checked Sample.copier
      (Memory.start Sample.copier.settings) (.int 0) Sample.order
    obtain ⟨hruns, hmemory, index, ops, f, hfound, rfl, -, hresult⟩ := hrefused c hc hwrites
    cases hfirst.symm.trans hfound
    rw [hprimary] at hresult
    exact ⟨hruns, hmemory, _, hresult⟩

end Service

end Inquiry
