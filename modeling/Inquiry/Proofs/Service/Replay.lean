import Inquiry.Proofs.Recommendation.Issued
import Inquiry.Proofs.Service.Runs

/-!
# Drawing the chart of an answer again

What an answer keeps is enough to send its pipeline again and to draw its chart again. The work on the
selected ids is `renderAll`; one chart, drawn for the hint that was kept, serves all of them.
-/
namespace Inquiry

open Traced
open Recommendation (idCount)

namespace Store

/-- The time limit of a run, in whole milliseconds. -/
def timeLimit (settings : Settings.Source) (given : Value) : Except Fault Int :=
  (limitOr settings given).bind fun limit => (wholeLimit limit).mapError .defect

theorem timeLimit_null (s : Settings) : timeLimit (.ok s) .null = .ok s.queryTimeoutMs := rfl

/-- A pipeline that was sent once is sent whenever its time limit can be read. -/
theorem sending_again {settings settings' : Settings.Source} {pipeline given given' : Value}
    {collection : String} {r : Run} (h : sending settings pipeline collection given = .ok r) :
    sending settings' pipeline collection given' =
      (timeLimit settings' given').map fun whole => { r with limit := whole } := by
  obtain ⟨_, count, whole, -, hcount, -, rfl⟩ := sending_ok_iff.mp h
  unfold sending timeLimit
  cases limitOr settings' given' with
  | error f => rfl
  | ok limit =>
    rw [hcount]
    rfl

end Store

namespace Rendering

/-- The id that was selected. -/
def selected : Rendering → Value
  | .chart id _ => id
  | .unmatched id _ => id
  | .noRows id => id

/-- A selected id gives a chart or a diagnostic, and not both. -/
theorem chart_or_diagnostic (r : Rendering) :
    (r.chartValue?.isSome ∧ r.diagnosticValue? = none) ∨
      (r.chartValue? = none ∧ r.diagnosticValue?.isSome) := by
  cases r with
  | chart id c => exact Or.inl ⟨rfl, rfl⟩
  | unmatched id recommendation => exact Or.inr ⟨rfl, rfl⟩
  | noRows id => exact Or.inr ⟨rfl, rfl⟩

/-- What the id of a hint comes to when this was drawn for the hint. -/
def ofDrawn (id : Value) : Option Chart → Rendering
  | none => .noRows id
  | some c => .chart id c

/-- What an id comes to in a recommendation with one hint. -/
def ofId (recommendation : Value) (hint : Hint) (drawn : Option Chart) (id : String) : Rendering :=
  if hint.id = id then ofDrawn (.str id) drawn else .unmatched (.str id) recommendation

theorem selected_ofId (recommendation : Value) (hint : Hint) (drawn : Option Chart) (id : String) :
    (ofId recommendation hint drawn id).selected = .str id := by
  unfold ofId
  split
  · cases drawn <;> rfl
  · rfl

end Rendering

/-- The charts as they are handed over. -/
def Rendered.charts (r : Rendered) : List Value := r.renderings.filterMap (·.chartValue?)

namespace Service

variable {s : Service} {q : Question} {mode : String} {m m' : Memory} {now : Value} {a : Answer}
  {t : Trace}

/-- Only the pipeline of the compiled question is sent: what comes after it is the chart and the
summary. -/
theorem work_runs {c : Compiled} (h : (compile s { q with mode := some mode }).result = .ok c) :
    (work s q mode).trace.runs = (Store.run s.settings s.database (.list c.pipeline)
      c.draft.primary q.runLimit).trace.runs := by
  refine (runs_bind_of_silent (silent_compile _ _) h).trans ?_
  exact Silent.runs_bind fun rows => (silent_chart _ _ _ _ _).bind fun _ =>
    (Summary.silent_write _ _ _ _ _ _ _ _).bind fun _ => silent_done _

/-- A draft takes the rows of the one pipeline that was sent for it, and its chart is drawn from
them. -/
theorem work_ok {d : Draft} (h : (work s q mode).result = .ok d) :
    (Store.run s.settings s.database (.list d.compiled.pipeline) d.compiled.draft.primary
        q.runLimit).result = .ok d.rows ∧
      (chart s.settings d.compiled.draft.hint d.rows (some d.compiled.draft.interpretation)
        d.compiled.draft.recommended).result = .ok d.chart ∧
      (work s q mode).trace.runs = (Store.run s.settings s.database (.list d.compiled.pipeline)
        d.compiled.draft.primary q.runLimit).trace.runs := by
  obtain ⟨compiled, hcompiled, hrest⟩ := bind_result_ok_iff.mp h
  obtain ⟨rows, hrows, hrest⟩ := bind_result_ok_iff.mp hrest
  obtain ⟨drawn, hdrawn, hrest⟩ := bind_result_ok_iff.mp hrest
  obtain ⟨narrative, -, hdone⟩ := bind_result_ok_iff.mp hrest
  cases hdone
  exact ⟨hrows, hdrawn, work_runs hcompiled⟩

/-- An answer is made of a draft; if it has an id, what is kept under it is the draft's. -/
theorem answerIn_ok (h : answerIn s m now q mode = (m', ⟨.ok a, t⟩)) :
    ∃ d, (work s q mode).result = .ok d ∧ a.compiled = d.compiled ∧ a.chart = d.chart ∧
      t.runs = (work s q mode).trace.runs ∧
      ∀ id, a.recommendation = some id → ∃ hint, d.compiled.draft.hint = some hint ∧
        m.keep now (entryOf q d hint) = .ok (m', id) := by
  unfold answerIn at h
  dsimp only at h
  split at h
  · cases h
  · rename_i d hwork
    cases hkeep : keep m now q d with
    | error f =>
      rw [hkeep] at h
      cases h
    | ok kept =>
      rw [hkeep] at h
      obtain ⟨hafter, hanswer⟩ := Prod.mk.inj h
      obtain ⟨hresult, htrace⟩ := Traced.mk.inj hanswer
      unfold answerOf at hresult
      cases hrows : resultRows d.rows with
      | error f =>
        rw [hrows] at hresult
        cases hresult
      | ok rows =>
        rw [hrows] at hresult
        cases hresult
        refine ⟨d, hwork, rfl, rfl, ?_, ?_⟩
        · rw [← htrace, runs_append, runs_append, List.append_nil]
          rfl
        · intro id hid
          cases hafter
          rcases keep_ok hkeep with ⟨-, hnone⟩ | ⟨hint, name, hhint, hname, hkept⟩
          · cases hid.symm.trans hnone
          · cases hid.symm.trans hname
            exact ⟨hint, hhint, hkept⟩

theorem answer_ok (h : s.answer m now q = (m', ⟨.ok a, t⟩)) :
    ∃ mode, answerIn s m now q mode = (m', ⟨.ok a, t⟩) := by
  unfold answer at h
  split at h
  · cases h
  · exact ⟨_, h⟩

section Ids

variable (settings : Settings.Source) (recommendation : Value) {entry : Recommendation} {hint : Hint}
  (rows : List Value)

theorem hint?_of_single (h : entry.hints = [hint]) (id : String) :
    entry.hint? id = if hint.id = id then some hint else none := by
  unfold Recommendation.hint?
  rw [h, List.find?_cons]
  by_cases hid : hint.id = id
  · rw [if_pos hid, decide_eq_true hid]
  · rw [if_neg hid, decide_eq_false hid]
    rfl

theorem renderOne_result (h : entry.hints = [hint]) (id : String) :
    (renderOne settings recommendation entry rows (.str id)).result =
      if hint.id = id then
        (chart settings (some hint) rows (some entry.interpretation) true).result.map
          (Rendering.ofDrawn (.str id))
      else .ok (.unmatched (.str id) recommendation) := by
  have hkey : ((Value.str id).str?.bind entry.hint?) = entry.hint? id := rfl
  unfold renderOne
  rw [Rows.asKey_str]
  change (ofResult (.ok (Value.str id)) >>= _).result = _
  rw [ofResult_ok_bind, hkey, hint?_of_single h]
  by_cases hid : hint.id = id
  · rw [if_pos hid, if_pos hid]
    cases hdrawn : (chart settings (some hint) rows (some entry.interpretation) true).result with
    | error f =>
      dsimp only
      rw [bind_of_error hdrawn]
      rfl
    | ok drawn =>
      dsimp only
      rw [bind_of_ok hdrawn]
      cases drawn <;> rfl
  · rw [if_neg hid, if_neg hid]
    rfl

theorem silent_renderOne (id : Value) :
    (renderOne settings recommendation entry rows id).Silent := by
  refine (silent_ofResult _).bind fun key => ?_
  split
  · exact (silent_log _).bind fun _ => silent_done _
  · exact (silent_chart _ _ _ _ _).bind fun _ => silent_done _

theorem silent_renderAll (ids : List Value) :
    (renderAll settings recommendation entry rows ids).Silent := by
  induction ids with
  | nil => exact silent_done _
  | cons id ids ih =>
    exact (silent_renderOne _ _ _ id).bind fun _ => ih.bind fun _ => silent_done _

variable {settings recommendation rows} {f : String → Rendering} {ids : List String}

theorem renderAll_ok
    (h : ∀ id ∈ ids, (renderOne settings recommendation entry rows (.str id)).result = .ok (f id)) :
    (renderAll settings recommendation entry rows (ids.map .str)).result = .ok (ids.map f) := by
  induction ids with
  | nil => rfl
  | cons id ids ih =>
    obtain ⟨hid, hids⟩ := List.forall_mem_cons.mp h
    rw [List.map_cons, renderAll, bind_of_ok hid, bind_of_ok (ih hids)]
    rfl

/-- The selected ids come to a fault if one of them does and no other fault is possible. -/
theorem renderAll_error {e : Fault}
    (h : ∀ id ∈ ids, (renderOne settings recommendation entry rows (.str id)).result = .ok (f id) ∨
      (renderOne settings recommendation entry rows (.str id)).result = .error e)
    (hfault : ∃ id ∈ ids,
      (renderOne settings recommendation entry rows (.str id)).result = .error e) :
    (renderAll settings recommendation entry rows (ids.map .str)).result = .error e := by
  induction ids with
  | nil =>
    obtain ⟨id, hid, -⟩ := hfault
    cases hid
  | cons id ids ih =>
    obtain ⟨hid, hids⟩ := List.forall_mem_cons.mp h
    rw [List.map_cons, renderAll]
    rcases hid with hid | hid
    · have hlater : ∃ id ∈ ids,
          (renderOne settings recommendation entry rows (.str id)).result = .error e := by
        obtain ⟨id', hmem, hid'⟩ := hfault
        rcases List.mem_cons.mp hmem with rfl | hmem
        · rw [hid] at hid'
          cases hid'
        · exact ⟨id', hmem, hid'⟩
      rw [bind_of_ok hid, bind_of_error (ih hids hlater)]
    · rw [bind_of_error hid]

theorem renderAll_of_drawn (h : entry.hints = [hint]) {drawn : Option Chart}
    (hdrawn : (chart settings (some hint) rows (some entry.interpretation) true).result = .ok drawn) :
    (renderAll settings recommendation entry rows (ids.map .str)).result =
      .ok (ids.map (Rendering.ofId recommendation hint drawn)) := by
  refine renderAll_ok fun id _ => ?_
  rw [renderOne_result settings recommendation rows h, hdrawn, Rendering.ofId]
  split <;> rfl

/-- What is selected does not decide what the hint's chart is, only whether it is drawn: an id that is
not the hint's needs nothing drawn. -/
theorem renderAll_result (settings : Settings.Source) (recommendation : Value) (rows : List Value)
    (h : entry.hints = [hint]) (ids : List String) :
    (renderAll settings recommendation entry rows (ids.map .str)).result =
      if hint.id ∈ ids then
        (chart settings (some hint) rows (some entry.interpretation) true).result.map
          fun drawn => ids.map (Rendering.ofId recommendation hint drawn)
      else .ok (ids.map (Rendering.ofId recommendation hint none)) := by
  have hone := renderOne_result settings recommendation rows h
  split
  · rename_i hmem
    cases hdrawn : (chart settings (some hint) rows (some entry.interpretation) true).result with
    | ok drawn => exact renderAll_of_drawn h hdrawn
    | error e =>
      refine renderAll_error (f := Rendering.ofId recommendation hint none) ?_ ⟨hint.id, hmem, ?_⟩
      · intro id _
        rw [hone, hdrawn, Rendering.ofId]
        by_cases hid : hint.id = id
        · exact Or.inr (if_pos hid)
        · rw [if_neg hid, if_neg hid]
          exact Or.inl rfl
      · rw [hone, hdrawn, if_pos rfl]
        rfl
  · rename_i hmem
    refine renderAll_ok fun id hid => ?_
    have hne : hint.id ≠ id := fun heq => hmem (heq ▸ hid)
    rw [hone, Rendering.ofId, if_neg hne, if_neg hne]

/-- The charts are those of the hint's id. -/
theorem filterMap_ofId (recommendation : Value) (hint : Hint) (drawn : Option Chart)
    (ids : List String) :
    (ids.map (Rendering.ofId recommendation hint drawn)).filterMap (·.chartValue?) =
      (ids.filter (hint.id = ·)).filterMap
        fun id => (Rendering.ofDrawn (.str id) drawn).chartValue? := by
  induction ids with
  | nil => rfl
  | cons id ids ih =>
    rw [List.map_cons, List.filterMap_cons, ih, List.filter_cons]
    by_cases hid : hint.id = id
    · rw [if_pos (decide_eq_true hid), Rendering.ofId, if_pos hid, List.filterMap_cons]
    · rw [if_neg (by simpa using hid), Rendering.ofId, if_neg hid]
      rfl

end Ids

section Entry

variable (s : Service) (recommendation limit : Value) {entry : Recommendation} {hint : Hint}
  (ids : List String)

theorem renderEntry_runs :
    (renderEntry s recommendation entry (.strs ids) limit).trace.runs =
      (Store.run s.settings s.database (.list entry.pipeline) entry.primary limit).trace.runs :=
  Silent.runs_bind fun _ => (silent_ofResult _).bind fun _ =>
    (silent_renderAll _ _ _ _).bind fun _ => silent_done _

theorem renderEntry_of_rows {rows : List Value} (h : (Store.run s.settings s.database
    (.list entry.pipeline) entry.primary limit).result = .ok rows) :
    (renderEntry s recommendation entry (.strs ids) limit).result =
      (renderAll s.settings recommendation entry rows (ids.map .str)).result.map
        fun renderings => ⟨recommendation, entry.primary, rows.length, renderings⟩ := by
  unfold renderEntry
  rw [bind_of_ok h]
  change (ofResult (.ok (ids.map Value.str)) >>= fun ids =>
    renderAll s.settings recommendation entry rows ids >>= fun renderings =>
      done (⟨recommendation, entry.primary, rows.length, renderings⟩ : Rendered)).result = _
  rw [ofResult_ok_bind]
  cases hall : (renderAll s.settings recommendation entry rows (ids.map .str)).result with
  | error f =>
    rw [bind_of_error hall]
    rfl
  | ok renderings =>
    rw [bind_of_ok hall]
    rfl

theorem renderEntry_of_fault {f : Fault} (h : (Store.run s.settings s.database
    (.list entry.pipeline) entry.primary limit).result = .error f) :
    (renderEntry s recommendation entry (.strs ids) limit).result = .error f := by
  unfold renderEntry
  rw [bind_of_error h]

end Entry

/-- What drawing again owes to the answer that it goes back to: `sent` is the one run of the answer,
`hint` is its plan's, and `render` draws the selected ids with a later service. -/
structure Replays (s s' : Service) (a : Answer) (sent : Run) (hint : Hint) (limit : Value)
    (render : List String → Traced Rendered) : Prop where
  /-- The same pipeline goes to the same collection, under the time limit of now. -/
  runs : ∀ ids, (render ids).trace.runs =
    (Store.timeLimit s'.settings limit).toOption.toList.map fun whole => { sent with limit := whole }
  /-- The same rows give the same chart under the id of the hint, and no fault. -/
  chart : s'.settings = s.settings → ∀ whole, Store.timeLimit s'.settings limit = .ok whole →
    s'.database.aggregate { sent with limit := whole } = s.database.aggregate sent →
    ∀ c, a.chart = some c → ∀ ids, ∃ out, (render ids).result = .ok out ∧
      out.charts = (ids.filter (hint.id = ·)).map fun id => Rendering.withId (.str id) c.toValue
  /-- Every selected id gives one chart or one diagnostic, in order. -/
  one_each : ∀ ids out, (render ids).result = .ok out →
    out.renderings.map (·.selected) = ids.map .str ∧
    ∀ r ∈ out.renderings, (r.chartValue?.isSome ∧ r.diagnosticValue? = none) ∨
      (r.chartValue? = none ∧ r.diagnosticValue?.isSome)
  /-- The charts are those of the ids that are known, also in whether there is a fault. -/
  unknown : ∀ ids, (render ids).result.map (·.charts) =
    (render (ids.filter (hint.id = ·))).result.map (·.charts)

/-- The rows of a kept pipeline come to charts. -/
theorem renderEntry_result {s : Service} {recommendation limit : Value} {entry : Recommendation}
    {hint : Hint} (h : entry.hints = [hint]) {rows : List Value} (hrows : (Store.run s.settings
      s.database (.list entry.pipeline) entry.primary limit).result = .ok rows) (ids : List String) :
    (renderEntry s recommendation entry (.strs ids) limit).result =
      (if hint.id ∈ ids then
        (chart s.settings (some hint) rows (some entry.interpretation) true).result.map
          fun drawn => ids.map (Rendering.ofId recommendation hint drawn)
      else .ok (ids.map (Rendering.ofId recommendation hint none))).map
        fun renderings => ⟨recommendation, entry.primary, rows.length, renderings⟩ := by
  rw [renderEntry_of_rows s recommendation limit ids hrows, renderAll_result _ _ _ h]

theorem renderEntry_ok {s : Service} {recommendation limit : Value} {entry : Recommendation}
    {hint : Hint} {ids : List String} {out : Rendered} (h : entry.hints = [hint])
    (hout : (renderEntry s recommendation entry (.strs ids) limit).result = .ok out) :
    ∃ drawn, out.renderings = ids.map (Rendering.ofId recommendation hint drawn) := by
  cases hrun : (Store.run s.settings s.database (.list entry.pipeline) entry.primary limit).result with
  | error f =>
    rw [renderEntry_of_fault s recommendation limit ids hrun] at hout
    cases hout
  | ok rows =>
    rw [renderEntry_result h hrun] at hout
    split at hout
    · cases hdrawn : (chart s.settings (some hint) rows (some entry.interpretation) true).result with
      | error f =>
        rw [hdrawn] at hout
        cases hout
      | ok drawn =>
        rw [hdrawn] at hout
        cases hout
        exact ⟨drawn, rfl⟩
    · cases hout
      exact ⟨none, rfl⟩

/-- Ids that are not the hint's change neither the charts nor whether there is a fault. -/
theorem renderEntry_charts {s : Service} {recommendation limit : Value} {entry : Recommendation}
    {hint : Hint} (h : entry.hints = [hint]) (ids : List String) :
    (renderEntry s recommendation entry (.strs ids) limit).result.map (·.charts) =
      (renderEntry s recommendation entry (.strs (ids.filter (hint.id = ·))) limit).result.map
        (·.charts) := by
  cases hrun : (Store.run s.settings s.database (.list entry.pipeline) entry.primary limit).result with
  | error f =>
    rw [renderEntry_of_fault s recommendation limit _ hrun,
      renderEntry_of_fault s recommendation limit _ hrun]
  | ok rows =>
    have hcharts (drawn : Option Chart) :
        (ids.map (Rendering.ofId recommendation hint drawn)).filterMap (·.chartValue?) =
          ((ids.filter (hint.id = ·)).map (Rendering.ofId recommendation hint drawn)).filterMap
            (·.chartValue?) := by
      rw [filterMap_ofId, filterMap_ofId, List.filter_filter]
      simp only [Bool.and_self]
    rw [renderEntry_result h hrun, renderEntry_result h hrun]
    by_cases hmem : hint.id ∈ ids
    · have hkept : hint.id ∈ ids.filter (hint.id = ·) :=
        List.mem_filter.mpr ⟨hmem, decide_eq_true rfl⟩
      rw [if_pos hmem, if_pos hkept]
      cases (chart s.settings (some hint) rows (some entry.interpretation) true).result with
      | error f => rfl
      | ok drawn => exact congrArg Except.ok (hcharts drawn)
    · have hkept : hint.id ∉ ids.filter (hint.id = ·) := fun hin => hmem (List.mem_filter.mp hin).1
      rw [if_neg hmem, if_neg hkept]
      exact congrArg Except.ok (hcharts none)

/-- A chart is only drawn when one is recommended. -/
theorem recommended_of_chart {settings : Settings.Source} {hint : Option Hint} {rows : List Value}
    {interpretation : Option String} {recommended : Bool} {c : Chart}
    (h : (chart settings hint rows interpretation recommended).result = .ok (some c)) :
    recommended = true := by
  cases recommended with
  | true => rfl
  | false =>
    cases settings with
    | error f => cases h
    | ok settings => cases h

/-- The entry that a draft keeps is drawn again as the draft was. -/
theorem replays_entryOf (s' : Service) (recommendation limit : Value) {s : Service} {q : Question}
    {mode : String} {d : Draft} {a : Answer} {hint : Hint} {sent : Run}
    (hwork : (work s q mode).result = .ok d) (hchart : a.chart = d.chart)
    (hhint : d.compiled.draft.hint = some hint) (hsending : Store.sending s.settings
      (.list d.compiled.pipeline) d.compiled.draft.primary q.runLimit = .ok sent) :
    Replays s s' a sent hint limit
      fun ids => renderEntry s' recommendation (entryOf q d hint) (.strs ids) limit := by
  obtain ⟨hrows, hdrawn, -⟩ := work_ok hwork
  obtain ⟨_, documents, hsent, haggregate, hplain⟩ := Store.run_result_ok_iff.mp hrows
  cases hsending.symm.trans hsent
  have hsingle : (entryOf q d hint).hints = [hint] := rfl
  have hagain : Store.sending s'.settings (.list (entryOf q d hint).pipeline)
      (entryOf q d hint).primary limit =
        (Store.timeLimit s'.settings limit).map fun whole => { sent with limit := whole } :=
    Store.sending_again hsending
  refine ⟨?_, ?_, ?_, ?_⟩
  · intro ids
    rw [renderEntry_runs, Store.runs_run, hagain]
    cases Store.timeLimit s'.settings limit <;> rfl
  · intro hsettings whole hwhole hsame c hc ids
    have hrowsAgain : (Store.run s'.settings s'.database (.list (entryOf q d hint).pipeline)
        (entryOf q d hint).primary limit).result = .ok d.rows := by
      refine Store.run_result_ok_iff.mpr ⟨{ sent with limit := whole }, documents, ?_, ?_, hplain⟩
      · rw [hagain, hwhole]
        rfl
      · rw [hsame, haggregate]
    rw [← hchart, hc] at hdrawn
    rw [recommended_of_chart hdrawn, hhint, ← hsettings] at hdrawn
    have hall : (renderEntry s' recommendation (entryOf q d hint) (.strs ids) limit).result =
        .ok ⟨recommendation, (entryOf q d hint).primary, d.rows.length,
          ids.map (Rendering.ofId recommendation hint (some c))⟩ := by
      rw [renderEntry_of_rows s' _ _ _ hrowsAgain, renderAll_of_drawn hsingle hdrawn]
      rfl
    refine ⟨_, hall, ?_⟩
    rw [Rendered.charts, filterMap_ofId]
    exact congrFun List.filterMap_eq_map (ids.filter (hint.id = ·))
  · intro ids out hout
    obtain ⟨drawn, hrenderings⟩ := renderEntry_ok hsingle hout
    refine ⟨?_, fun r _ => r.chart_or_diagnostic⟩
    rw [hrenderings, List.map_map]
    exact List.map_congr_left fun id' _ => Rendering.selected_ofId _ _ _ id'
  · exact renderEntry_charts hsingle

/-- Drawing again agrees with the answer that it goes back to, however the service was used in
between, as long as the recommendation can be read. The ids may be any, as long as no two of those that
were given out are the same. -/
theorem render_replays_answer (s' : Service) (limit : Value) {tokens : Nat → String}
    {source : Settings.Source} {s : Service} {m m₁ m₂ m₃ : Memory} {now now' : Value} {q : Question}
    {a : Answer} {t : Trace} {id : String} {entry : Recommendation}
    (hm : Memory.Later (Memory.startWith tokens source) m)
    (hanswer : s.answer m now q = (m₁, ⟨.ok a, t⟩)) (hid : a.recommendation = some id)
    (hlater : Memory.Later m₁ m₂) (hids : m₂.given.Nodup)
    (hfound : m₂.read now' (.str id) = .ok (m₃, some entry)) :
    ∃ sent hint, t.runs = [sent] ∧ sent.collection = a.compiled.draft.primary ∧
      sent.pipeline = .list a.compiled.pipeline ∧ a.compiled.draft.hint = some hint ∧
      Replays s s' a sent hint limit
        fun ids => (s'.render m₂ now' (.str id) (.strs ids) limit).2 := by
  obtain ⟨mode, hin⟩ := answer_ok hanswer
  obtain ⟨d, hwork, hcompiled, hchart, hruns, hkeep⟩ := answerIn_ok hin
  obtain ⟨hint, hhint, hkept⟩ := hkeep id hid
  obtain ⟨hrows, -, hsentRuns⟩ := work_ok hwork
  obtain ⟨sent, -, hsending, -, -⟩ := Store.run_result_ok_iff.mp hrows
  obtain ⟨hcollection, hpipeline⟩ := Store.sending_eq hsending
  -- What is read is what was kept of the draft.
  obtain rfl := Memory.entry_of_read hm hkept hlater hids hfound
  have hrender : (fun ids => (s'.render m₂ now' (.str id) (.strs ids) limit).2) =
      fun ids => renderEntry s' (.str id) (entryOf q d hint) (.strs ids) limit := by
    funext ids
    unfold render
    rw [hfound]
  refine ⟨sent, hint, ?_, ?_, ?_, ?_, ?_⟩
  · rw [hruns, hsentRuns, Store.runs_run, hsending]
    rfl
  · rw [hcollection, hcompiled]
  · rw [hpipeline, hcompiled]
  · rw [hcompiled, hhint]
  · rw [hrender]
    exact replays_entryOf s' (.str id) limit hwork hchart hhint hsending

namespace Sample

def regions : Database where
  names := .ok ["sales"]
  sample := fun _ => .ok (some (.doc [("region", .str "north"), ("amount", .int 5)]))
  aggregate := fun _ => .ok [.doc [("region", .str "north"), ("totalAmount", .int 5)],
    .doc [("region", .str "south"), ("totalAmount", .int 7)]]

def service : Service := ⟨.ok Settings.default, regions, fun _ _ => ⟨.ok none, []⟩⟩

def question : Question := ⟨"amount by region", .null, some "mock", .null, .null⟩

def answered : Memory × Traced Answer :=
  service.answer (Memory.start service.settings) (.int 0) question

/-- The question is asked a second time. -/
def later : Memory := (service.answer answered.1 (.int 10) question).1

theorem answered_ok : ∃ a c, answered.2.result = .ok a ∧ a.chart = some c ∧
    a.recommendation = some (Recommendation.idOf 1) ∧
    a.compiled.draft.hint.map (·.id) = some "primary" := by
  have hcheck : (match answered.2.result with
      | .ok a => a.chart.isSome && a.recommendation = some (Recommendation.idOf 1) &&
          a.compiled.draft.hint.map (·.id) = some "primary"
      | .error _ => false) = true := by decide +kernel
  cases h : answered.2.result with
  | error f =>
    rw [h] at hcheck
    cases hcheck
  | ok a =>
    rw [h] at hcheck
    obtain ⟨hcheck, hhint⟩ := (Bool.and_eq_true _ _).mp hcheck
    obtain ⟨hchart, hid⟩ := (Bool.and_eq_true _ _).mp hcheck
    obtain ⟨c, hc⟩ := Option.isSome_iff_exists.mp hchart
    exact ⟨a, c, rfl, hc, of_decide_eq_true hid, of_decide_eq_true hhint⟩

theorem later_read : ∃ m entry,
    later.read (.int 20) (.str (Recommendation.idOf 1)) = .ok (m, some entry) := by
  have hcheck : (match later.read (.int 20) (.str (Recommendation.idOf 1)) with
      | .ok (_, entry) => entry.isSome
      | .error _ => false) = true := by decide +kernel
  cases h : later.read (.int 20) (.str (Recommendation.idOf 1)) with
  | error f =>
    rw [h] at hcheck
    cases hcheck
  | ok r =>
    rw [h] at hcheck
    obtain ⟨entry, hentry⟩ := Option.isSome_iff_exists.mp hcheck
    exact ⟨r.1, entry, by rw [← hentry]⟩

end Sample

theorem render_replays_answer_regions :
    ∃ a t c out, Sample.answered.2 = ⟨.ok a, t⟩ ∧ a.chart = some c ∧
      a.recommendation = some (Recommendation.idOf 1) ∧
      (Sample.service.render Sample.later (.int 20) (.str (Recommendation.idOf 1))
        (.strs ["primary", "map", "primary"]) .null).2.result = .ok out ∧
      out.charts = [Rendering.withId (.str "primary") c.toValue,
        Rendering.withId (.str "primary") c.toValue] := by
  obtain ⟨a, c, hresult, hc, hid, hhintId⟩ := Sample.answered_ok
  obtain ⟨m, entry, hfound⟩ := Sample.later_read
  have hanswer : Sample.service.answer (Memory.start Sample.service.settings) (.int 0)
      Sample.question = (Sample.answered.1, ⟨.ok a, Sample.answered.2.trace⟩) := by
    rw [← hresult]
    rfl
  have hlater : Memory.Later Sample.answered.1 Sample.later :=
    .single (.answered Sample.service (.int 10) Sample.question)
  have hids : Sample.later.given.Nodup :=
    Memory.nodup_given_of_counted (.trans (.single (.answered _ _ _)) hlater) (by decide +kernel)
  obtain ⟨sent, hint, -, -, -, hhint, hreplays⟩ :=
    render_replays_answer Sample.service .null .refl hanswer hid hlater hids hfound
  have hname : hint.id = "primary" := by
    rw [hhint] at hhintId
    exact Option.some.inj hhintId
  obtain ⟨out, hout, hcharts⟩ :=
    hreplays.chart rfl _ (Store.timeLimit_null _) rfl c hc ["primary", "map", "primary"]
  rw [hname] at hcharts
  exact ⟨a, _, c, out, by rw [← hresult], hc, hid, hout, hcharts⟩

end Service

end Inquiry
