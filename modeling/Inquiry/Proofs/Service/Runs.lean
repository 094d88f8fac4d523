import Inquiry.Service.Render

/-!
# What is sent to the document store

Of all the work on a question only `Store.run` sends a pipeline, and it sends at most one: the one
that it was given, if it may run and the time limit can be read. Work that sends nothing is `Silent`.
-/
namespace Inquiry

namespace Traced

variable {α β : Type}

theorem bind_of_ok {t : Traced α} {a : α} (h : t.result = .ok a) (f : α → Traced β) :
    t >>= f = ⟨(f a).result, t.trace ++ (f a).trace⟩ := by
  change andThen t f = _
  rw [andThen, h]

theorem bind_of_error {t : Traced α} {e : Fault} (h : t.result = .error e) (f : α → Traced β) :
    t >>= f = ⟨.error e, t.trace⟩ := by
  change andThen t f = _
  rw [andThen, h]

theorem bind_result_ok_iff {t : Traced α} {f : α → Traced β} {b : β} :
    (t >>= f).result = .ok b ↔ ∃ a, t.result = .ok a ∧ (f a).result = .ok b := by
  cases h : t.result with
  | error e =>
    rw [bind_of_error h]
    simp
  | ok a =>
    rw [bind_of_ok h]
    simp

theorem empty_append (t : Trace) : Trace.empty ++ t = t := rfl

theorem ofResult_ok_bind (a : α) (f : α → Traced β) : (ofResult (.ok a) >>= f) = f a := by
  rw [bind_of_ok rfl, ofResult, empty_append]

theorem log_bind (lines : List Log.Line) (f : Unit → Traced β) :
    (log lines >>= f) = ⟨(f ()).result, ⟨lines, [], []⟩ ++ (f ()).trace⟩ := rfl

theorem runs_append (a b : Trace) : (a ++ b).runs = a.runs ++ b.runs := rfl

/-- The work sends no pipeline. -/
def Silent (t : Traced α) : Prop := t.trace.runs = []

theorem silent_done (a : α) : (done a).Silent := rfl

theorem silent_fail (f : Fault) : (fail f : Traced α).Silent := rfl

theorem silent_ofResult (r : Except Fault α) : (ofResult r).Silent := rfl

theorem silent_log (lines : List Log.Line) : (log lines).Silent := rfl

theorem silent_ask (model : Model) (n : Nat) (r : ModelRequest) : (ask model n r).Silent := rfl

theorem Silent.bind {t : Traced α} {f : α → Traced β} (ht : t.Silent) (hf : ∀ a, (f a).Silent) :
    (t >>= f).Silent := by
  cases h : t.result with
  | error e =>
    rw [bind_of_error h]
    exact ht
  | ok a =>
    rw [bind_of_ok h]
    change _ ++ _ = []
    rw [ht, hf a, List.append_nil]

theorem runs_bind_of_silent {t : Traced α} {f : α → Traced β} {a : α} (ht : t.Silent)
    (h : t.result = .ok a) : (t >>= f).trace.runs = (f a).trace.runs := by
  rw [bind_of_ok h, runs_append, ht, List.nil_append]

theorem Silent.runs_bind {t : Traced α} {f : α → Traced β} (hf : ∀ a, (f a).Silent) :
    (t >>= f).trace.runs = t.trace.runs := by
  cases h : t.result with
  | error e => rw [bind_of_error h]
  | ok a => rw [bind_of_ok h, runs_append, hf a, List.append_nil]

end Traced

open Traced

namespace Store

theorem silent_metadataFault {α : Type} (action : String) (collection : Option String)
    (f : Failure) : (metadataFault action collection f : Traced α).Silent := by
  cases f <;> rfl

theorem silent_collections (db : Database) : (collections db).Silent := by
  unfold collections
  split
  · exact silent_done _
  · exact silent_metadataFault _ _ _

theorem silent_describe (db : Database) (name : String) : (describe db name).Silent := by
  unfold describe
  split
  · exact silent_metadataFault _ _ _
  · exact silent_ofResult _
  · exact (silent_log _).bind fun _ => silent_done _

theorem silent_describeAll (db : Database) (names : List String) :
    (describeAll db names).Silent := by
  induction names with
  | nil => exact silent_done _
  | cons name names ih =>
    exact (silent_describe db name).bind fun _ => ih.bind fun _ => silent_done _

theorem silent_schemasOf (db : Database) (available : List String) (requested : List Value) :
    (schemasOf db available requested).Silent := by
  refine (silent_log _).bind fun _ => ?_
  split
  · exact silent_fail _
  · exact silent_describeAll _ _

theorem silent_schemas (db : Database) (requested : Value) : (schemas db requested).Silent := by
  refine (silent_collections db).bind fun available => ?_
  split
  · split
    · exact silent_fail _
    · exact silent_describeAll _ _
  · split
    · exact silent_fail _
    · exact silent_schemasOf _ _ _

end Store

namespace Advice

theorem silent_readSeries (es : List (Value × Value)) : (readSeries es).Silent := by
  unfold readSeries
  split
  · split
    · exact silent_done _
    · exact (silent_log _).bind fun _ => silent_done _
  · exact silent_fail _

theorem silent_readAllSeries (objects : List (List (Value × Value))) :
    (readAllSeries objects).Silent := by
  induction objects with
  | nil => exact silent_done _
  | cons es rest ih =>
    exact (silent_readSeries es).bind fun _ => ih.bind fun _ => silent_done _

theorem silent_read (advice : Value) : (read advice).Silent := by
  unfold read
  split
  · exact (silent_readAllSeries _).bind fun _ => silent_done _
  · exact silent_done _

end Advice

namespace Plan

theorem silent_ofValue (data : Value) (schemas : Schemas) : (ofValue data schemas).Silent := by
  refine (silent_ofResult _).bind fun _ => (silent_ofResult _).bind fun _ =>
    (Advice.silent_read _).bind fun _ => ?_
  split
  · exact silent_done _
  · exact silent_fail _

theorem silent_byModel (model : Model) (query : String) (schemas : Schemas) (mode : String)
    (limit : Value) : (byModel model query schemas mode limit).Silent :=
  (silent_ask _ _ _).bind fun _ => (silent_log _).bind fun _ => (silent_ofResult _).bind fun _ =>
    silent_ofValue _ _

theorem silent_resolve (s : Settings.Source) (model : Model) (query : String) (schemas : Schemas)
    (mode : Option String) (limit : Value) : (resolve s model query schemas mode limit).Silent := by
  unfold resolve
  split
  · exact silent_fail _
  · refine (silent_ofResult _).bind fun mode => ?_
    have hplan : ∀ plan : Plan, (if plan.openValues.all (Json.fits Json.logDepth) then
        (do Traced.log [resolvedLine mode plan]; .done plan)
        else (.fail (.defect .tooNested) : Traced Plan)).Silent := by
      intro plan
      split
      · exact (silent_log _).bind fun _ => silent_done _
      · exact silent_fail _
    split
    · exact (silent_done _).bind hplan
    · exact (silent_byModel _ _ _ _ _).bind hplan

end Plan

namespace Summary

theorem silent_byModel (s : Settings.Source) (model : Model) (n : Nat) (query : String)
    (result : Value) (interpretation : String) (provider : Option String) (limit : Value) :
    (byModel s model n query result interpretation provider limit).Silent := by
  unfold byModel
  split
  · exact silent_fail _
  · rfl

theorem silent_orFallback (result : Value) (interpretation : String) {t : Traced String}
    (h : t.Silent) : (orFallback result interpretation t).Silent := by
  unfold orFallback
  split
  · change _ ++ _ = []
    rw [h, List.append_nil]
  · exact h

theorem silent_write (s : Settings.Source) (model : Model) (n : Nat) (query : String)
    (result : Value) (interpretation mode : String) (limit : Value) :
    (write s model n query result interpretation mode limit).Silent := by
  unfold write
  split
  · exact silent_ofResult _
  · exact silent_orFallback _ _ (silent_byModel _ _ _ _ _ _ _ _)

end Summary

namespace Service

theorem silent_heal (s : Settings.Source) (schemas : Schemas) (draft : Plan) :
    (heal s schemas draft).Silent := by
  unfold heal
  split
  · unfold healWith
    dsimp only
    split <;> rfl
  · rfl

theorem silent_compile (s : Service) (q : Question) : (compile s q).Silent :=
  (Store.silent_schemas _ _).bind fun _ => (Plan.silent_resolve _ _ _ _ _ _).bind fun _ =>
    silent_heal _ _ _

theorem silent_chart (s : Settings.Source) (hint : Option Hint) (rows : List Value)
    (interpretation : Option String) (recommended : Bool) :
    (chart s hint rows interpretation recommended).Silent := by
  unfold chart
  split
  · rfl
  · split
    · exact silent_fail _
    · exact silent_done _

end Service

namespace Store

theorem mapError_ok {ε ε' α : Type} (f : ε → ε') (a : α) :
    (Except.ok a : Except ε α).mapError f = .ok a := rfl

theorem mapError_error {ε ε' α : Type} (f : ε → ε') (e : ε) :
    (Except.error e : Except ε α).mapError f = .error (f e) := rfl

/-- The run that a pipeline is sent as, or why it is not sent. -/
def sending (settings : Settings.Source) (pipeline : Value) (collection : String) (given : Value) :
    Except Fault Run :=
  (limitOr settings given).bind fun limit =>
    (checkReadOnly pipeline collection).bind fun _ =>
      ((wholeLimit limit).mapError .defect).map fun whole => ⟨collection, pipeline, whole⟩

theorem sending_ok_iff {settings : Settings.Source} {pipeline given : Value} {collection : String}
    {r : Run} :
    sending settings pipeline collection given = .ok r ↔
      ∃ limit count whole, limitOr settings given = .ok limit ∧
        checkReadOnly pipeline collection = .ok count ∧ wholeLimit limit = .ok whole ∧
        r = ⟨collection, pipeline, whole⟩ := by
  unfold sending
  cases hlimit : limitOr settings given with
  | error f => simp [Except.bind]
  | ok limit =>
    cases hcount : checkReadOnly pipeline collection with
    | error f => simp [Except.bind]
    | ok count =>
      cases hwhole : wholeLimit limit with
      | error d => simp [Except.bind, mapError_error, Except.map, hwhole]
      | ok whole => simp [Except.bind, mapError_ok, Except.map, hwhole, eq_comm]

theorem sending_eq {settings : Settings.Source} {pipeline given : Value} {collection : String}
    {r : Run} (h : sending settings pipeline collection given = .ok r) :
    r.collection = collection ∧ r.pipeline = pipeline := by
  obtain ⟨-, -, whole, -, -, -, rfl⟩ := sending_ok_iff.mp h
  exact ⟨rfl, rfl⟩

theorem runFault_result {α : Type} (pipeline : Value) (collection : String) (limit : Value)
    (whole : Int) (f : Failure) :
    ∃ e, (runFault pipeline collection limit whole f : Traced α).result = .error e := by
  cases f with
  | other f => exact ⟨f, rfl⟩
  | driver reason timedOut limitPassed =>
    cases limitPassed <;> unfold runFault <;>
      cases h : payloadText pipeline <;> exact ⟨_, rfl⟩

theorem silent_runFault {α : Type} (pipeline : Value) (collection : String) (limit : Value)
    (whole : Int) (f : Failure) :
    (runFault pipeline collection limit whole f : Traced α).Silent := by
  cases f with
  | other f => exact silent_fail f
  | driver reason timedOut limitPassed =>
    cases limitPassed <;>
      exact (silent_log _).bind fun _ => (silent_ofResult _).bind fun _ => silent_fail _

/-- What is done with the answer of the store. -/
def received (pipeline : Value) (collection : String) (limit : Value) (whole : Int)
    (answer : Except Failure (List Value)) : Traced (List Value) :=
  match answer with
  | .error f => runFault pipeline collection limit whole f
  | .ok documents => do
    let rows ← Traced.ofResult (documents.mapM Rows.plainRow)
    Traced.log [Log.info .execution (Log.eventText "Pipeline done"
      [("collection", .str collection), ("rows", .ofNat rows.length)])]
    .done rows

theorem silent_received (pipeline : Value) (collection : String) (limit : Value) (whole : Int)
    (answer : Except Failure (List Value)) :
    (received pipeline collection limit whole answer).Silent := by
  cases answer with
  | error f => exact silent_runFault _ _ _ _ _
  | ok documents =>
    exact (silent_ofResult _).bind fun _ => (silent_log _).bind fun _ => silent_done _

theorem received_result_ok_iff {pipeline : Value} {collection : String} {limit : Value}
    {whole : Int} {answer : Except Failure (List Value)} {rows : List Value} :
    (received pipeline collection limit whole answer).result = .ok rows ↔
      ∃ documents, answer = .ok documents ∧ documents.mapM Rows.plainRow = .ok rows := by
  cases answer with
  | error f =>
    obtain ⟨e, he⟩ := runFault_result (α := List Value) pipeline collection limit whole f
    change (runFault pipeline collection limit whole f).result = _ ↔ _
    rw [he]
    simp
  | ok documents =>
    constructor
    · intro h
      obtain ⟨rows', hrows, h⟩ := bind_result_ok_iff.mp h
      cases h
      exact ⟨documents, rfl, hrows⟩
    · rintro ⟨_, hdocuments, hrows⟩
      cases hdocuments
      exact bind_result_ok_iff.mpr ⟨rows, hrows, rfl⟩

variable {settings : Settings.Source} {db : Database} {pipeline given : Value} {collection : String}

/-- A run is refused before it is sent, or it is sent and the answer of the store is received. -/
theorem run_cases (settings : Settings.Source) (db : Database) (pipeline : Value)
    (collection : String) (given : Value) :
    (∃ f, sending settings pipeline collection given = .error f ∧
      (run settings db pipeline collection given).result = .error f ∧
      (run settings db pipeline collection given).Silent) ∨
    (∃ r limit, sending settings pipeline collection given = .ok r ∧
      (run settings db pipeline collection given).result =
        (received pipeline collection limit r.limit (db.aggregate r)).result ∧
      (run settings db pipeline collection given).trace.runs = [r]) := by
  unfold sending run
  cases hlimit : limitOr settings given with
  | error e => exact Or.inl ⟨e, rfl, rfl, rfl⟩
  | ok limit =>
    cases hcount : checkReadOnly pipeline collection with
    | error e => exact Or.inl ⟨e, rfl, rfl, rfl⟩
    | ok count =>
      rw [ofResult_ok_bind, ofResult_ok_bind, log_bind]
      cases hwhole : wholeLimit limit with
      | error d =>
        left
        refine ⟨.defect d, ?_, ?_, ?_⟩
        · simp only [Except.bind, hwhole, mapError_error, Except.map]
        · rfl
        · rfl
      | ok whole =>
        right
        refine ⟨⟨collection, pipeline, whole⟩, limit, ?_, ?_, ?_⟩
        · simp only [Except.bind, hwhole, mapError_ok, Except.map]
        · change (ofResult (.ok whole) >>= fun whole => sent ⟨collection, pipeline, whole⟩ >>=
            fun _ => received pipeline collection limit whole
              (db.aggregate ⟨collection, pipeline, whole⟩)).result = _
          rw [ofResult_ok_bind]
          rfl
        · change [] ++ (ofResult (.ok whole) >>= fun whole => sent ⟨collection, pipeline, whole⟩ >>=
            fun _ => received pipeline collection limit whole
              (db.aggregate ⟨collection, pipeline, whole⟩)).trace.runs = _
          rw [ofResult_ok_bind, List.nil_append]
          change [_] ++ (received _ _ _ _ _).trace.runs = _
          rw [silent_received, List.append_nil]

theorem runs_run :
    (run settings db pipeline collection given).trace.runs =
      ((sending settings pipeline collection given).toOption).toList := by
  rcases run_cases settings db pipeline collection given with ⟨f, h, -, hs⟩ | ⟨r, _, h, -, hs⟩
  · rw [h]
    exact hs
  · rw [h]
    exact hs

theorem run_result_ok_iff {rows : List Value} :
    (run settings db pipeline collection given).result = .ok rows ↔
      ∃ r documents, sending settings pipeline collection given = .ok r ∧
        db.aggregate r = .ok documents ∧ documents.mapM Rows.plainRow = .ok rows := by
  rcases run_cases settings db pipeline collection given with ⟨f, h, hr, -⟩ | ⟨r, _, h, hr, -⟩
  · rw [h, hr]
    simp
  · rw [h, hr, received_result_ok_iff]
    constructor
    · rintro ⟨documents, hdocuments, hrows⟩
      exact ⟨r, documents, rfl, hdocuments, hrows⟩
    · rintro ⟨r', documents, hsame, hdocuments, hrows⟩
      cases hsame
      exact ⟨documents, hdocuments, hrows⟩

end Store

end Inquiry
