import Inquiry.Proofs.Chart.Drawable
import Inquiry.Proofs.Recommendation.Lifetime
import Inquiry.Proofs.Service.Checked

/-!
# Which steps can fail

Reading schemas, planning, healing and running the pipeline can fail, and the first of them that does is
the fault of the question; nothing is kept of it. After them nothing fails: documents can be drawn, told
of and kept, and whatever goes wrong with a model's summary a sentence stands in for it.
-/
namespace Inquiry

open Traced
open Value (TextKeys)

/-- Every document that the store gives can be presented. -/
def Database.Presentable (db : Database) : Prop :=
  ∀ run documents, db.aggregate run = .ok documents → ∀ es, .dict es ∈ documents →
    Rows.Presentable es

namespace Rows

variable {documents rows : List Value}

/-- All rows are documents that can be presented. -/
def Presented (rows : List Value) : Prop := ∀ row ∈ rows, ∃ es, row = .dict es ∧ Presentable es

theorem Presented.isRow (h : Presented rows) : ∀ row ∈ rows, Chart.IsRow row := by
  intro row hrow
  obtain ⟨es, rfl, hes⟩ := h row hrow
  exact Value.exists_doc_of_textKeys hes.keys

theorem Presented.badKey? (h : Presented rows) : ∀ row ∈ rows, Json.badKey? row = none := by
  intro row hrow
  obtain ⟨es, rfl, hes⟩ := h row hrow
  exact hes.written

theorem mapM_plainRow_ok (h : documents.mapM plainRow = .ok rows) :
    List.Forall₂ (fun document row => plainRow document = .ok row) documents rows := by
  induction documents generalizing rows with
  | nil =>
    cases h
    exact .nil
  | cons document documents ih =>
    rw [List.mapM_cons] at h
    cases hrow : plainRow document with
    | error f => rw [hrow] at h; cases h
    | ok row =>
      cases hrows : documents.mapM plainRow with
      | error f => rw [hrow, hrows] at h; cases h
      | ok rest =>
        rw [hrow, hrows] at h
        cases h
        exact .cons hrow (ih hrows)

theorem presented_of_plainRow
    (h : List.Forall₂ (fun document row => plainRow document = .ok row) documents rows)
    (hdocuments : ∀ es, .dict es ∈ documents → Presentable es) : Presented rows := by
  induction h with
  | nil => exact List.forall_mem_nil _
  | @cons document row documents rows hrow _ ih =>
    refine List.forall_mem_cons.mpr ⟨?_, ih fun es hes => hdocuments es (.tail _ hes)⟩
    match document, hrow with
    | .dict es, hrow => exact (hdocuments es (.head _)).plain hrow

end Rows

open Rows (Presented)

/-- The rows of a run are the documents of the store, one for one. -/
theorem Store.rows_of_run {settings : Settings.Source} {db : Database} {pipeline given : Value}
    {collection : String} {rows : List Value} (hdb : db.Presentable)
    (h : (run settings db pipeline collection given).result = .ok rows) :
    Presented rows ∧ ∃ r documents, sending settings pipeline collection given = .ok r ∧
      db.aggregate r = .ok documents ∧ rows.length = documents.length := by
  obtain ⟨r, documents, hsending, haggregate, hrows⟩ := run_result_ok_iff.mp h
  have hplain := Rows.mapM_plainRow_ok hrows
  exact ⟨Rows.presented_of_plainRow hplain (hdb r documents haggregate),
    r, documents, hsending, haggregate, hplain.length_eq.symm⟩

namespace Summary

variable {rows : List Value} {interpretation : String}

theorem payloadText_ok {v : Value} (h : Json.badKey? v = none) :
    payloadText v = .ok (Json.compact v) := by
  rw [payloadText, h]

theorem template_ok (h : Presented rows) (interpretation : String) :
    ∃ text, template (.list rows) interpretation = .ok text := by
  cases rows with
  | nil => exact ⟨_, rfl⟩
  | cons row rest =>
    obtain ⟨es, rfl, hes⟩ := h row List.mem_cons_self
    have htop : Json.badKey? (.dict (es.filter fun e => e.1 != .str "_id")) = none :=
      Json.badKey?_dict_iff.mpr fun e he =>
        Json.badKey?_dict_iff.mp hes.written e (List.mem_filter.mp he).1
    have hcount : part Rows.count (.list (.dict es :: rest)) = .ok (rest.length + 1) := rfl
    have hfirst : part Rows.first (.list (.dict es :: rest)) = .ok (.dict es) := rfl
    rw [template, if_neg (by simp [Value.isGiven]), hcount, hfirst]
    dsimp only [bind, Except.bind, topResult]
    split
    · exact ⟨_, rfl⟩
    · rw [payloadText_ok htop]
      exact ⟨_, rfl⟩

theorem prompt_ok (h : Presented rows) (size : Int) (query interpretation : String) :
    ∃ text, prompt size query (.list rows) interpretation = .ok text := by
  have hshown : Json.badKey? (.list (Rows.takeFront size rows)) = none := by
    refine Json.badKey?_list_iff.mpr fun row hrow => h.badKey? row ?_
    unfold Rows.takeFront at hrow
    split at hrow <;> exact List.mem_of_mem_take hrow
  have htext := payloadText_ok hshown
  change ∃ text, (payloadText (.list (Rows.takeFront size rows)) >>= fun text => _) = .ok text
  rw [htext]
  exact ⟨_, rfl⟩

/-- What is told of a result when a model replies this. -/
def told (count : Nat) (interpretation : String) (reply : Except Fault (Option String)) : String :=
  match ofReply reply with
  | .ok text => text
  | .error _ => fallback count interpretation

/-- A narrative that a model's reply came to: its text if it has one, and otherwise the sentence that
stands in, with the number of rows. -/
structure FromReply (reply : Except Fault (Option String)) (count : Nat)
    (interpretation narrative : String) : Prop where
  text : ∀ text, reply = .ok (some text) → Text.trim text ≠ "" → narrative = Text.trim text
  fallback : (∀ text, reply = .ok (some text) → Text.trim text = "") →
    narrative = fallback count interpretation

theorem told_of_text {text : String} (h : Text.trim text ≠ "") (count : Nat)
    (interpretation : String) :
    told count interpretation (.ok (some text)) = Text.trim text := by
  have hempty : (Text.trim text).isEmpty = false := by simpa using h
  simp only [told, ofReply, Option.getD_some, hempty, Bool.false_eq_true, if_false]

/-- A fault, no reply and a blank one all come to the sentence that stands in. -/
theorem told_of_no_text {reply : Except Fault (Option String)}
    (h : ∀ text, reply = .ok (some text) → Text.trim text = "") (count : Nat)
    (interpretation : String) :
    told count interpretation reply = fallback count interpretation := by
  match reply, h with
  | .error f, _ => rfl
  | .ok none, _ => rfl
  | .ok (some text), h =>
    rw [told, ofReply, Option.getD_some, h text rfl]
    rfl

theorem fromReply_told (reply : Except Fault (Option String)) (count : Nat)
    (interpretation : String) :
    FromReply reply count interpretation (told count interpretation reply) where
  text text hreply htext := by rw [hreply, told_of_text htext]
  fallback h := told_of_no_text h count interpretation

theorem write_mock {mode : String} (h : mode = Provider.mock.name) (s : Settings.Source)
    (model : Model) (n : Nat) (query : String) (result limit : Value) :
    (write s model n query result interpretation mode limit).result =
      template result interpretation := by
  rw [write, if_pos h]
  rfl

/-- What a reply does not say is a fault of the summary and no other one. -/
theorem ofReply_cases (reply : Except Fault (Option String)) :
    (∃ text, ofReply reply = .ok text) ∨ ∃ f, ofReply reply = .error (.summary f) := by
  unfold ofReply
  split
  · exact .inr ⟨_, rfl⟩
  · dsimp only
    split
    · exact .inr ⟨_, rfl⟩
    · exact .inl ⟨_, rfl⟩

/-- No reply of a model is a fault of the question. -/
theorem write_model {settings : Settings} {mode query text : String}
    (hmode : mode ≠ Provider.mock.name) (hprompt : prompt settings.summarySampleSize query
      (.list rows) interpretation = .ok text) (model : Model) (n : Nat) (limit : Value) :
    (write (.ok settings) model n query (.list rows) interpretation mode limit).result =
      .ok (told rows.length interpretation (model n ⟨text, some mode, limit⟩).result) := by
  have hasked : (byModel (.ok settings) model n query (.list rows) interpretation (some mode)
      limit).result = ofReply (model n ⟨text, some mode, limit⟩).result := by
    have hbound : ((.ok settings : Settings.Source).bind fun s =>
        prompt s.summarySampleSize query (.list rows) interpretation) = .ok text := hprompt
    rw [byModel, hbound]
    rfl
  rw [write, if_neg hmode, orFallback, hasked, told]
  rcases ofReply_cases (model n ⟨text, some mode, limit⟩).result with ⟨told, h⟩ | ⟨f, h⟩
  · rw [h] at hasked ⊢
    exact hasked
  · rw [h]
    rfl

end Summary

namespace Memory

/-- The cache is set up, and the clock showed numbers whenever an entry was kept. -/
def Timed (m : Memory) : Prop :=
  ∃ cache, m.cache = .ok cache ∧ ∀ slot ∈ cache.slots, ∃ x, Number.ofValue? slot.created = some x

variable {m m' : Memory}

theorem timed_startWith (ids : Nat → String) (settings : Settings) :
    (startWith ids (.ok settings)).Timed :=
  ⟨_, rfl, List.forall_mem_nil _⟩

theorem Timed.keep (h : m.Timed) (now : Value) (entry : Recommendation) :
    ∃ kept, m.keep now entry = .ok kept := by
  obtain ⟨cache, hcache, hslots⟩ := h
  have hput := Recommendation.Cache.putAt_of_numbers hslots (m.ids m.issued) entry now
  unfold Memory.keep
  rw [hcache]
  simp only [bind, Except.bind, hput]
  exact ⟨_, rfl⟩

theorem Timed.of_keep (h : m.Timed) {now : Value} (hnow : ∃ x, Number.ofValue? now = some x)
    {entry : Recommendation} {id : String} (hkeep : m.keep now entry = .ok (m', id)) :
    m'.Timed := by
  obtain ⟨before, hbefore, hslots⟩ := h
  obtain ⟨cache, after, hcache, hafter, -, hchange⟩ := keep_slots hkeep
  cases hbefore.symm.trans hcache
  refine ⟨after, hafter, fun slot hslot => ?_⟩
  rcases hchange slot hslot with hold | rfl
  · exact hslots slot hold
  · exact hnow

end Memory

namespace Service

variable {s : Service} {settings : Settings} {m m' : Memory} {now : Value} {q : Question}
  {mode : String} {c : Compiled} {rows : List Value} {f : Fault}

theorem chart_of_presented (hthreshold : 0 ≤ settings.zoomThreshold) (h : Presented rows)
    (hint : Option Hint) (interpretation : Option String) (recommended : Bool) :
    ∃ drawn, (chart (.ok settings) hint rows interpretation recommended).result = .ok drawn ∧
      (drawn.isSome = true ↔ recommended = true ∧ rows ≠ []) := by
  cases recommended with
  | false => exact ⟨none, rfl, by simp⟩
  | true =>
    cases rows with
    | nil => exact ⟨none, rfl, by simp⟩
    | cons first rest =>
      obtain ⟨drawn, hdrawn, -⟩ := @Chart.build_rows settings.zoomThreshold
        (hint.getD Hint.default) first interpretation rest hthreshold h.isRow h.badKey?
      refine ⟨some drawn, ?_, by simp⟩
      change Chart.ofResult settings.zoomThreshold hint (.list (first :: rest)) interpretation true =
        _
      rw [Chart.ofResult_list, hdrawn]
      rfl

theorem keep_of_timed (h : m.Timed) (now : Value) (q : Question) (d : Draft) :
    ∃ kept, keep m now q d = .ok kept := by
  unfold keep
  split
  · exact ⟨_, rfl⟩
  · obtain ⟨kept, hkept⟩ := h.keep now _
    rw [hkept]
    exact ⟨_, rfl⟩

theorem answerOf_of_presented {d : Draft} (h : Presented d.rows) (q : Question)
    (id : Option String) :
    answerOf q d id = .ok ⟨q.text, d.compiled, d.rows, d.chart, d.narrative, id⟩ := by
  have hkeys : ∀ row ∈ d.rows, ∃ es, row = .dict es ∧ TextKeys es := by
    intro row hrow
    obtain ⟨es, rfl, hes⟩ := h row hrow
    exact ⟨es, rfl, hes.keys⟩
  rw [answerOf, resultRows, Shape.list_document_eq hkeys]
  rfl

/-- The fault of the first step that fails: reading the schemas, planning, healing and running. -/
inductive FirstFault (s : Service) (q : Question) (f : Fault) : Prop
  | schemas (fault : (Store.schemas s.database q.collections).result = .error f)
  | plan (schemas : Schemas)
    (listed : (Store.schemas s.database q.collections).result = .ok schemas)
    (fault : (Plan.resolve s.settings s.model q.text schemas q.mode q.modelLimit).result = .error f)
  | healing (schemas : Schemas) (draft : Plan)
    (listed : (Store.schemas s.database q.collections).result = .ok schemas)
    (planned : (Plan.resolve s.settings s.model q.text schemas q.mode q.modelLimit).result =
      .ok draft)
    (fault : (heal s.settings schemas draft).result = .error f)
  | execution (c : Compiled) (compiled : (compile s q).result = .ok c)
    (fault : (Store.run s.settings s.database (.list c.pipeline) c.draft.primary
      q.runLimit).result = .error f)

/-- The question compiles to a pipeline and the pipeline has rows. -/
structure Ran (s : Service) (q : Question) (c : Compiled) (rows : List Value) : Prop where
  compiled : (compile s q).result = .ok c
  ran : (Store.run s.settings s.database (.list c.pipeline) c.draft.primary q.runLimit).result =
    .ok rows

theorem firstFault_of_compile (h : (compile s q).result = .error f) : FirstFault s q f := by
  cases hschemas : (Store.schemas s.database q.collections).result with
  | error e =>
    rw [compile, bind_of_error hschemas] at h
    cases h
    exact .schemas hschemas
  | ok schemas =>
    rw [compile, bind_of_ok hschemas] at h
    cases hdraft : (Plan.resolve s.settings s.model q.text schemas q.mode q.modelLimit).result with
    | error e =>
      dsimp only at h
      rw [bind_of_error hdraft] at h
      cases h
      exact .plan schemas hschemas hdraft
    | ok draft =>
      dsimp only at h
      rw [bind_of_ok hdraft] at h
      exact .healing schemas draft hschemas hdraft h

/-- A question has a first fault, or it runs. -/
theorem fault_or_ran (s : Service) (q : Question) :
    (∃ f, FirstFault s q f) ∨ ∃ c rows, Ran s q c rows := by
  cases hcompile : (compile s q).result with
  | error f => exact .inl ⟨f, firstFault_of_compile hcompile⟩
  | ok c =>
    cases hrun : (Store.run s.settings s.database (.list c.pipeline) c.draft.primary
        q.runLimit).result with
    | error f => exact .inl ⟨f, .execution c hcompile hrun⟩
    | ok rows => exact .inr ⟨c, rows, hcompile, hrun⟩

/-- A first fault is a fault of compiling or of the run of what was compiled. -/
theorem FirstFault.cases (h : FirstFault s q f) : (compile s q).result = .error f ∨
    ∃ c, (compile s q).result = .ok c ∧ (Store.run s.settings s.database (.list c.pipeline)
      c.draft.primary q.runLimit).result = .error f := by
  cases h with
  | schemas fault => exact .inl (by rw [compile, bind_of_error fault])
  | plan schemas listed fault =>
    refine .inl ?_
    rw [compile, bind_of_ok listed]
    dsimp only
    rw [bind_of_error fault]
  | healing schemas draft listed planned fault =>
    refine .inl ?_
    rw [compile, bind_of_ok listed]
    dsimp only
    rw [bind_of_ok planned]
    exact fault
  | execution c compiled fault => exact .inr ⟨c, compiled, fault⟩

theorem FirstFault.work (h : FirstFault s q f)
    (hmode : Settings.modeOr s.settings q.mode = .ok mode) : (work s q mode).result = .error f := by
  have hsame := compile_of_modeOr hmode
  unfold Service.work
  rcases h.cases with hcompile | ⟨c, hcompile, hrun⟩
  · rw [← hsame] at hcompile
    rw [bind_of_error hcompile]
  · rw [← hsame] at hcompile
    rw [bind_of_ok hcompile]
    dsimp only
    rw [bind_of_error hrun]

/-- The narrative of an answer over these rows. In mock mode no model is asked. -/
structure Narrated (s : Service) (q : Question) (rows : List Value)
    (interpretation narrative : String) : Prop where
  mock : Settings.modeOr s.settings q.mode = .ok Provider.mock.name →
    Summary.template (.list rows) interpretation = .ok narrative
  model : ∀ mode, Settings.modeOr s.settings q.mode = .ok mode → mode ≠ Provider.mock.name →
    ∃ prompt, Summary.FromReply (s.model 1 ⟨prompt, some mode, q.modelLimit⟩).result rows.length
      interpretation narrative

/-- What an answer is when its question ran. -/
structure Answers (s : Service) (q : Question) (c : Compiled) (rows : List Value) (a : Answer) :
    Prop where
  compiled : a.compiled = c
  results : a.rows = rows
  /-- There are as many rows as documents that the store gave. -/
  counted : ∃ run documents, Store.sending s.settings (.list c.pipeline) c.draft.primary q.runLimit =
    .ok run ∧ s.database.aggregate run = .ok documents ∧ rows.length = documents.length
  narrative : Narrated s q rows c.draft.interpretation a.narrative
  /-- There is a chart just if one is recommended and there is a row. -/
  chart : a.chart.isSome = true ↔ c.draft.recommended = true ∧ rows ≠ []
  visual : a.toValue.get? "can_visualize" = some (.bool a.chart.isSome)

theorem exists_narrative (hsettings : s.settings = .ok settings) (hrows : Presented rows)
    (hmode : Settings.modeOr s.settings q.mode = .ok mode) (interpretation : String) :
    ∃ narrative, (Summary.write s.settings s.model 1 q.text (.list rows) interpretation mode
        q.modelLimit).result = .ok narrative ∧ Narrated s q rows interpretation narrative := by
  by_cases hmock : mode = Provider.mock.name
  · obtain ⟨narrative, htext⟩ := Summary.template_ok hrows interpretation
    refine ⟨narrative, (Summary.write_mock hmock _ _ _ _ _ _).trans htext, fun _ => htext, ?_⟩
    intro mode' hmode' hne
    cases hmode.symm.trans hmode'
    exact absurd hmock hne
  · obtain ⟨prompt, hprompt⟩ :=
      Summary.prompt_ok hrows settings.summarySampleSize q.text interpretation
    refine ⟨_, hsettings ▸ Summary.write_model hmock hprompt s.model 1 q.modelLimit, ?_, ?_⟩
    · intro hmode'
      cases hmode.symm.trans hmode'
      exact absurd rfl hmock
    · intro mode' hmode' _
      cases hmode.symm.trans hmode'
      exact ⟨prompt, Summary.fromReply_told _ _ _⟩

/-- The work on a question that runs comes to a draft. -/
theorem work_of_ran (hsettings : s.settings = .ok settings)
    (hthreshold : 0 ≤ settings.zoomThreshold) (hrows : Presented rows) (h : Ran s q c rows)
    (hmode : Settings.modeOr s.settings q.mode = .ok mode) :
    ∃ d, (work s q mode).result = .ok d ∧ d.compiled = c ∧ d.rows = rows ∧
      Narrated s q rows c.draft.interpretation d.narrative ∧
      (d.chart.isSome = true ↔ c.draft.recommended = true ∧ rows ≠ []) := by
  have hcompile : (compile s { q with mode := some mode }).result = .ok c := by
    rw [compile_of_modeOr hmode, h.compiled]
  obtain ⟨drawn, hdrawn, hchart⟩ := chart_of_presented hthreshold hrows c.draft.hint
    (some c.draft.interpretation) c.draft.recommended
  rw [← hsettings] at hdrawn
  obtain ⟨narrative, hwrite, hnarrated⟩ := exists_narrative hsettings hrows hmode
    c.draft.interpretation
  refine ⟨⟨c, rows, drawn, narrative⟩, ?_, rfl, rfl, hnarrated, hchart⟩
  unfold work
  exact bind_result_ok_iff.mpr ⟨c, hcompile, bind_result_ok_iff.mpr ⟨rows, h.ran,
    bind_result_ok_iff.mpr ⟨drawn, hdrawn, bind_result_ok_iff.mpr ⟨narrative, hwrite, rfl⟩⟩⟩⟩

theorem exists_mode (hsettings : s.settings = .ok settings) (q : Question) :
    ∃ mode, Settings.modeOr s.settings q.mode = .ok mode := by
  rw [hsettings]
  cases q.mode <;> exact ⟨_, rfl⟩

theorem answer_of_ran (hsettings : s.settings = .ok settings)
    (hthreshold : 0 ≤ settings.zoomThreshold) (hdb : s.database.Presentable) (hm : m.Timed)
    (h : Ran s q c rows) (now : Value) :
    ∃ a, (s.answer m now q).2.result = .ok a ∧ Answers s q c rows a := by
  obtain ⟨hrows, hcounted⟩ := Store.rows_of_run hdb h.ran
  obtain ⟨mode, hmode⟩ := exists_mode hsettings q
  obtain ⟨d, hwork, hcompiled, hdrows, hnarrative, hchart⟩ :=
    work_of_ran hsettings hthreshold hrows h hmode
  obtain ⟨kept, hkept⟩ := keep_of_timed hm now q d
  have hpresented : Presented d.rows := by rwa [hdrows]
  have hanswer := answerOf_of_presented hpresented q kept.2
  refine ⟨⟨q.text, d.compiled, d.rows, d.chart, d.narrative, kept.2⟩, ?_, hcompiled, hdrows,
    hcounted, hnarrative, hchart, rfl⟩
  unfold answer
  rw [hmode]
  unfold answerIn
  simp only [hwork, hkept, hanswer]

theorem answer_of_fault (hsettings : s.settings = .ok settings) (h : FirstFault s q f) (m : Memory)
    (now : Value) : (s.answer m now q).2.result = .error f ∧ (s.answer m now q).1 = m := by
  obtain ⟨mode, hmode⟩ := exists_mode hsettings q
  obtain ⟨hmemory, hresult⟩ := @answerIn_of_error s q mode m now f (h.work hmode)
  unfold answer
  rw [hmode]
  exact ⟨hresult, hmemory⟩

/-- A question fails with the fault of its first step that fails, and then nothing is kept of it. One
whose pipeline has run is answered, whatever the model does that is asked for a summary. -/
theorem answer_fails_at_first_fault (hsettings : s.settings = .ok settings)
    (hthreshold : 0 ≤ settings.zoomThreshold) (hdb : s.database.Presentable) (hm : m.Timed)
    (now : Value) (q : Question) :
    let after := (s.answer m now q).1
    let answered := (s.answer m now q).2
    (∀ f, answered.result = .error f ↔ FirstFault s q f) ∧
    (∀ f, answered.result = .error f → after = m) ∧
    (∀ c rows, Ran s q c rows → ∃ a, answered.result = .ok a ∧ Answers s q c rows a) := by
  dsimp only
  have hfault : ∀ f, (s.answer m now q).2.result = .error f → FirstFault s q f := by
    intro f hf
    rcases fault_or_ran s q with ⟨e, he⟩ | ⟨c, rows, h⟩
    · have hsame := (answer_of_fault hsettings he m now).1
      rw [hf] at hsame
      cases hsame
      exact he
    · obtain ⟨a, ha, -⟩ := answer_of_ran hsettings hthreshold hdb hm h now
      rw [hf] at ha
      cases ha
  refine ⟨fun f => ⟨hfault f, fun h => (answer_of_fault hsettings h m now).1⟩, ?_, ?_⟩
  · exact fun f hf => (answer_of_fault hsettings (hfault f hf) m now).2
  · exact fun c rows h => answer_of_ran hsettings hthreshold hdb hm h now

/-- Under a clock of numbers the memory stays one that answering leaves no fault to. -/
theorem timed_answer (hm : m.Timed) (hnow : ∃ x, Number.ofValue? now = some x) (s : Service)
    (q : Question) : (s.answer m now q).1.Timed := by
  have hkept {m' : Memory} {c : Compiled} {result : Except Fault Answer}
      (h : Finished m now q c m' result) : m'.Timed := by
    cases h with
    | failed f memory result =>
      rw [memory]
      exact hm
    | kept d id compiled keep result =>
      rcases keep_ok keep with ⟨rfl, -⟩ | ⟨hint, name, -, -, hkeep⟩
      · exact hm
      · exact hm.of_keep hnow hkeep
  cases answer_course s m now q with
  | uncompiled f compiled runs memory result =>
    rw [memory]
    exact hm
  | refused c f compiled sending runs memory result =>
    rw [memory]
    exact hm
  | sent c run compiled sending runs finished => exact hkept finished

namespace Sample

def listing : String :=
  "\x7b\"primary_collection\": \"sales\", \"pipeline\": [], " ++
    "\"visualization\": \x7b\"type\": \"bar\"\x7d\x7d"

/-- A service whose model plans and then times out over the summary. -/
def lister : Service :=
  { service with model := fun n _ =>
      ⟨if n = 0 then .ok (some listing) else .error (.model (.timedOut "openai" "60")), []⟩ }

/-- The same service on a store that keys a document by a year. -/
def yearly : Service :=
  { lister with database := { regions with aggregate := fun _ => .ok [.dict [(.int 2024, .int 5)]] } }

theorem regions_presentable : regions.Presentable := by
  rintro run documents ⟨⟩ es hes
  simp only [List.mem_cons, List.not_mem_nil, or_false] at hes
  rcases hes with hes | hes
  · cases hes
    exact ⟨Value.textKeys_doc _, by decide⟩
  · cases hes
    exact ⟨Value.textKeys_doc _, by decide⟩

theorem order_ran : ∃ c rows, Ran lister order c rows ∧ rows.length = 2 ∧
    c.draft.interpretation = "Query processed successfully" := by
  have hcheck : (match (compile lister order).result with
      | .error _ => false
      | .ok c =>
        c.draft.interpretation = "Query processed successfully" &&
          match (Store.run lister.settings lister.database (.list c.pipeline) c.draft.primary
              order.runLimit).result with
          | .error _ => false
          | .ok rows => rows.length = 2) = true := by decide +kernel
  cases hcompile : (compile lister order).result with
  | error f =>
    rw [hcompile] at hcheck
    cases hcheck
  | ok c =>
    cases hrun : (Store.run lister.settings lister.database (.list c.pipeline) c.draft.primary
        order.runLimit).result with
    | error f => simp [hcompile, hrun] at hcheck
    | ok rows =>
      simp only [hcompile, hrun, Bool.and_eq_true, decide_eq_true_eq] at hcheck
      exact ⟨c, rows, ⟨hcompile, hrun⟩, hcheck.2, hcheck.1⟩

end Sample

theorem exists_error {α : Type} {x : Except Fault α} (h : x.toOption.isNone = true) :
    ∃ f, x = .error f := by
  cases x with
  | error f => exact ⟨f, rfl⟩
  | ok a => cases h

theorem answer_fails_at_first_fault_timed_out :
    (∃ a, (Sample.lister.answer (.start Sample.lister.settings) (.int 0) Sample.order).2.result =
      .ok a ∧ a.narrative = "Found 2 result(s) for your query: Query processed successfully") ∧
    let lost := { Sample.order with collections := .strs ["lost"] }
    (Sample.lister.answer (.start Sample.lister.settings) (.int 0) lost).1 =
      .start Sample.lister.settings := by
  have htimed : (Memory.start Sample.lister.settings).Timed :=
    Memory.timed_startWith _ Settings.default
  have htheorem (q : Question) := answer_fails_at_first_fault (s := Sample.lister) rfl (by decide)
    Sample.regions_presentable htimed (.int 0) q
  constructor
  · obtain ⟨c, rows, hran, hcount, hinterpretation⟩ := Sample.order_ran
    obtain ⟨-, -, hanswered⟩ := htheorem Sample.order
    obtain ⟨a, ha, hanswers⟩ := hanswered c rows hran
    obtain ⟨prompt, hreply⟩ := hanswers.narrative.model "openai" rfl (by decide)
    refine ⟨a, ha, ?_⟩
    rw [hreply.fallback (fun text htext => by cases htext), hcount, hinterpretation]
    decide
  · intro lost
    obtain ⟨hfaults, hnothing, -⟩ := htheorem lost
    obtain ⟨f, hf⟩ : ∃ f, (Store.schemas Sample.lister.database lost.collections).result =
        .error f := exists_error (by decide +kernel)
    exact hnothing f ((hfaults f).mpr (.schemas hf))

/-- A document with a number as a key cannot be handed over in an answer. That shows when the
recommendation has been kept already, and none of the steps has failed. -/
theorem answer_of_year_key :
    let answered := Sample.yearly.answer (.start Sample.yearly.settings) (.int 0) Sample.order
    answered.1 ≠ .start Sample.yearly.settings ∧
      ∃ f, answered.2.result = .error f ∧ ¬ FirstFault Sample.yearly Sample.order f := by
  intro answered
  have hcheck : (answered.1.issued = 1 && answered.2.result.toOption.isNone) = true := by
    decide +kernel
  obtain ⟨hissued, hnone⟩ := (Bool.and_eq_true _ _).mp hcheck
  have hchanged : answered.1 ≠ .start Sample.yearly.settings := by
    intro hsame
    rw [hsame] at hissued
    cases hissued
  obtain ⟨f, hf⟩ := exists_error hnone
  exact ⟨hchanged, f, hf, fun hfirst => hchanged (answer_of_fault rfl hfirst _ _).2⟩

end Service

end Inquiry
