import Inquiry.Proofs.Dates.Composition
import Inquiry.Proofs.Dates.Written
import Inquiry.Proofs.Plan.Shaped
import Inquiry.Proofs.Store.Listed

/-!
# What a compiled question is

Its pipeline is the plan's, healed against the date fields of the one collection that it goes to. That
collection is on offer, and JSON has a form for the pipeline, so a message can show it.
-/
namespace Inquiry.Service

open Traced

variable {s : Service} {q : Question} {c : Compiled} {mode : String}

/-- The pipeline is the plan's, healed against the date fields of the collection that it goes to. -/
def HealedFor (s : Service) (c : Compiled) : Prop :=
  ∃ settings schema after, s.settings = .ok settings ∧
    (Store.describe s.database c.draft.primary).result = .ok schema ∧
    Dates.healPipeline settings.forcedCollections (.start (.seed (some schema))) c.draft.primary
      (.list c.draft.pipeline) = (after, .ok c.pipeline)

theorem healWith_ok {forced : List String} {schemas : Schemas} {draft : Plan}
    (h : (healWith forced schemas draft).result = .ok c) :
    c.draft = draft ∧ ∃ after, Dates.healPipeline forced
      (.start (.seed (schemas.lookup draft.primary))) draft.primary (.list draft.pipeline) =
        (after, .ok c.pipeline) := by
  unfold healWith at h
  dsimp only at h
  split at h
  · cases h
  · rename_i pipeline hpipeline
    cases h
    exact ⟨rfl, _, Prod.ext rfl hpipeline⟩

theorem heal_ok {source : Settings.Source} {schemas : Schemas} {draft : Plan}
    (h : (heal source schemas draft).result = .ok c) :
    ∃ settings, source = .ok settings ∧
      (healWith settings.forcedCollections schemas draft).result = .ok c := by
  unfold heal at h
  split at h
  · exact ⟨_, rfl, h⟩
  · cases h

theorem mem_of_lookup {schemas : Schemas} {name : String} {schema : Schema}
    (h : schemas.lookup name = some schema) : (name, schema) ∈ schemas := by
  obtain ⟨before, after, rfl, -⟩ := List.lookup_eq_some_iff.mp h
  exact List.mem_append_right before List.mem_cons_self

/-- What is known of a question that compiles. -/
structure Prepared (s : Service) (q : Question) (c : Compiled) : Prop where
  mode : ∃ mode, Settings.modeOr s.settings q.mode = .ok mode
  offered : Store.Offered s.database q.collections c.draft.primary
  healed : HealedFor s c
  writable : Json.badKey? (.list c.pipeline) = none

theorem prepared_of_compile (h : (compile s q).result = .ok c) : Prepared s q c := by
  obtain ⟨schemas, hschemas, h⟩ := bind_result_ok_iff.mp h
  obtain ⟨draft, hdraft, h⟩ := bind_result_ok_iff.mp h
  obtain ⟨settings, hsettings, hheal⟩ := heal_ok h
  obtain ⟨rfl, after, hrun⟩ := healWith_ok hheal
  obtain ⟨hmode, hfits⟩ := Plan.resolve_ok hdraft
  obtain ⟨schema, hlookup⟩ := Option.isSome_iff_exists.mp hfits.primary
  obtain ⟨hoffered, hdescribe⟩ := Store.schemas_ok hschemas _ (mem_of_lookup hlookup)
  rw [hlookup] at hrun
  obtain ⟨stages, hstages, hheal⟩ := Dates.healPipeline_ok_iff.mp hrun
  cases hstages
  exact ⟨hmode, hoffered, ⟨settings, schema, after, hsettings, hdescribe, hrun⟩,
    Json.badKey?_list_iff.mpr (Dates.badKey?_healStages hheal hfits.stages)⟩

/-- The mode that is used is the one that compiling would choose. -/
theorem compile_of_modeOr (h : Settings.modeOr s.settings q.mode = .ok mode) :
    compile s { q with mode := some mode } = compile s q := by
  have hresolve (schemas : Schemas) :
      Plan.resolve s.settings s.model q.text schemas (some mode) q.modelLimit =
        Plan.resolve s.settings s.model q.text schemas q.mode q.modelLimit := by
    unfold Plan.resolve
    rw [h]
    rfl
  unfold compile
  simp only [hresolve]

end Inquiry.Service
