import Inquiry.Dates.Definitions

/-!
Healing a pipeline: stage after stage is read, healed against the date fields known at that
point, and then allowed to change them. A malformed stage stops the run and leaves what the earlier
stages did.
-/
namespace Inquiry.Dates

/-- What a run carries from stage to stage, and from run to run. -/
structure Progress where
  fields : DateFields
  diagnostics : List Diagnostic
  deriving Repr, DecidableEq, Inhabited

namespace Progress

def start (fields : DateFields) : Progress := ⟨fields, []⟩

/-- One stage: its healed form, and the progress after it. -/
def step (force : Bool) (p : Progress) (index : Nat) (s : Stage) : Progress × Stage :=
  let healed := healStage p.fields.contains force s
  (⟨propagate index healed p.fields,
    p.diagnostics ++ diagnoseStage p.fields.contains force index s⟩, healed)

end Progress

/-- The stages of a pipeline from `index` on. -/
def healStages (force : Bool) (index : Nat) (p : Progress) :
    List Value → Progress × Except Malformed (List Value)
  | [] => (p, .ok [])
  | v :: vs =>
    match Stage.ofValue index v with
    | .error m => (p, .error m)
    | .ok s =>
      let (p, healed) := p.step force index s
      let (p, rest) := healStages force (index + 1) p vs
      (p, rest.map (healed.toValue :: ·))

/-- A whole pipeline, which has to be a list. Conversions are forced out of the collections in
`forced`. -/
def healPipeline (forced : List String) (p : Progress) (collection : String) (pipeline : Value) :
    Progress × Except Malformed (List Value) :=
  match pipeline with
  | .list stages => healStages (forced.contains collection) 0 p stages
  | v => (p, .error (.notPipeline v.typeName collection))

def Diagnostic.logLine (d : Diagnostic) : Log.Line :=
  let text := "Stage " ++ toString d.stage ++ " at " ++ d.pathText ++ ": " ++ d.message
  if d.isMismatch then Log.warning .healing text else Log.info .healing text

def summaryLine (p : Progress) (collection : String) (stages : Nat) : Log.Line :=
  let names := p.fields.names
  Log.info .healing ("Sanitized " ++ toString stages ++ " stage(s) for " ++ collection ++ ": " ++
    toString p.diagnostics.length ++ " diagnostic(s), " ++
    toString (p.diagnostics.countP (·.isMismatch)) ++ " mismatch(es), date fields=" ++
    (if names.isEmpty then "-" else ", ".intercalate names))

/-- The lines of a run that went from `before` to `after`. -/
def logLines (forced : List String) (before after : Progress) (collection : String)
    (pipeline : Value) (result : Except Malformed (List Value)) : List Log.Line :=
  let opening := match pipeline with
    | .list _ =>
      if forced.contains collection then
        [Log.info .healing
          ("Forced conversion removal is active for collection " ++ collection)]
      else []
    | _ => []
  let closing := match result with
    | .ok stages => [summaryLine after collection stages.length]
    | .error _ => []
  opening ++ (after.diagnostics.drop before.diagnostics.length).map Diagnostic.logLine ++ closing

end Inquiry.Dates
