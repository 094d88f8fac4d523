import Inquiry.Proofs.Dates.KeyOrder

/-!
# Changes inside documents

What a stage defines is found by going through documents, whose fields may be documents again. A
change of expressions that goes into the fields of a document, and makes no document of what is
none, therefore keeps the names that are defined and changes their expressions.
-/
namespace Inquiry.Dates

open Expression (find?)

/-- A change that acts on a document field by field, and leaves everything else without fields. -/
structure KeepsDocuments (g : Expression → Expression) : Prop where
  document : ∀ es, (Expression.keyed es).isDocument = true →
    g (.keyed es) = .keyed (es.map fun d => (d.1, g d.2))
  other : ∀ e, e.isDocument = false → (g e).isDocument = false

theorem definitionsOf_of_not_document {e : Expression} (h : e.isDocument = false)
    (path name : String) : definitionsOf path name e = [(path ++ name, e)] := by
  match e with
  | .scalar v => rfl
  | .fieldRef f => rfl
  | .array xs => rfl
  | .keyed [] => rfl
  | .keyed [(key, x)] =>
    rw [definitionsOf]
    split
    · rfl
    · rename_i hkey
      simp [Expression.isDocument, Expression.call?, hkey] at h
  | .keyed (_ :: _ :: _) => cases h

theorem exists_keyed_of_isDocument {e : Expression} (h : e.isDocument = true) :
    ∃ es, e = .keyed es := by
  cases e with
  | keyed es => exact ⟨es, rfl⟩
  | _ => cases h

theorem definitionsOf_document {es : List (String × Expression)}
    (h : (Expression.keyed es).isDocument = true) (path name : String) :
    definitionsOf path name (.keyed es) = definitions (path ++ name ++ ".") es := by
  match es, h with
  | [(key, x)], h =>
    have hkey : isOperatorName key = false := by
      simpa [Expression.isDocument, Expression.call?] using h
    rw [definitionsOf, hkey, definitions, definitions, List.append_nil]
    rfl
  | _ :: _ :: _, _ => rfl

/-- Only the keys tell whether a mapping is a document. -/
theorem isDocument_map (g : Expression → Expression) (es : List (String × Expression)) :
    (Expression.keyed (es.map fun d => (d.1, g d.2))).isDocument =
      (Expression.keyed es).isDocument := by
  match es with
  | [] => rfl
  | [(key, x)] =>
    cases hkey : isOperatorName key <;> simp [Expression.isDocument, Expression.call?, hkey]
  | _ :: _ :: _ => rfl

theorem rootDefinitions_of_not_document {e : Expression} (h : e.isDocument = false) :
    rootDefinitions e = [] := by
  cases e with
  | keyed es => rw [rootDefinitions, h]; rfl
  | _ => rfl

theorem rootDefinitions_document {es : List (String × Expression)}
    (h : (Expression.keyed es).isDocument = true) :
    rootDefinitions (.keyed es) = definitions "" es := if_pos h

/-- A stage whose spec is no mapping defines nothing. -/
theorem stageDefinitions_of_not_keyed {spec : Expression} (h : ∀ es, spec ≠ .keyed es)
    (operator : String) : stageDefinitions ⟨operator, spec⟩ = [] := by
  cases spec with
  | keyed es => exact absurd rfl (h es)
  | _ => simp [stageDefinitions, Expression.get?, rootDefinitions]

namespace KeepsDocuments

variable {g : Expression → Expression}

theorem definitions_map {es : List (String × Expression)} {path : String}
    (h : ∀ d ∈ es, definitionsOf path d.1 (g d.2) =
      (definitionsOf path d.1 d.2).map fun d => (d.1, g d.2)) :
    definitions path (es.map fun d => (d.1, g d.2)) =
      (definitions path es).map fun d => (d.1, g d.2) := by
  rw [definitions_eq_flatMap, definitions_eq_flatMap, List.flatMap_map, List.map_flatMap]
  exact List.flatMap_congr h

theorem definitionsOf_eq (hg : KeepsDocuments g) (path name : String) (e : Expression) :
    definitionsOf path name (g e) = (definitionsOf path name e).map fun d => (d.1, g d.2) := by
  induction e generalizing path name with
  | keyed es ih =>
    cases hdoc : (Expression.keyed es).isDocument with
    | true =>
      rw [hg.document es hdoc, definitionsOf_document (by rwa [isDocument_map]),
        definitionsOf_document hdoc]
      exact definitions_map fun d hd => ih d hd _ _
    | false =>
      rw [definitionsOf_of_not_document (hg.other _ hdoc), definitionsOf_of_not_document hdoc]
      rfl
  | _ =>
    rw [definitionsOf_of_not_document (hg.other _ rfl), definitionsOf_of_not_document rfl]
    rfl

theorem definitions_eq (hg : KeepsDocuments g) (path : String) (es : List (String × Expression)) :
    definitions path (es.map fun d => (d.1, g d.2)) =
      (definitions path es).map fun d => (d.1, g d.2) :=
  definitions_map fun d _ => hg.definitionsOf_eq path d.1 d.2

theorem groupDefinitions_eq (hg : KeepsDocuments g) (es : List (String × Expression)) :
    groupDefinitions (es.map fun d => (d.1, g d.2)) =
      (groupDefinitions es).map fun d => (d.1, g d.2) := by
  rw [groupDefinitions_eq_flatMap, groupDefinitions_eq_flatMap, List.flatMap_map, List.map_flatMap]
  refine List.flatMap_congr fun d _ => ?_
  dsimp only
  split
  · exact hg.definitionsOf_eq "" d.1 d.2
  · rfl

theorem rootDefinitions_parts (hg : KeepsDocuments g) (es : List (String × Expression)) :
    rootDefinitions (.keyed (es.map fun d => (d.1, g d.2))) =
      (rootDefinitions (.keyed es)).map fun d => (d.1, g d.2) := by
  cases hdoc : (Expression.keyed es).isDocument with
  | true =>
    rw [rootDefinitions_document (by rwa [isDocument_map]), rootDefinitions_document hdoc]
    exact hg.definitions_eq "" es
  | false =>
    rw [rootDefinitions_of_not_document (by rwa [isDocument_map]),
      rootDefinitions_of_not_document hdoc]
    rfl

theorem rootDefinitions_eq (hg : KeepsDocuments g) (root : Expression) :
    rootDefinitions (g root) = (rootDefinitions root).map fun d => (d.1, g d.2) := by
  cases hdoc : root.isDocument with
  | true =>
    match root, hdoc with
    | .keyed es, hdoc => rw [hg.document es hdoc, hg.rootDefinitions_parts]
  | false =>
    rw [rootDefinitions_of_not_document (hg.other _ hdoc), rootDefinitions_of_not_document hdoc]
    rfl

/-- A stage with the parts of its spec changed defines the same names by the changed expressions. -/
theorem stageDefinitions_eq (hg : KeepsDocuments g) (operator : String)
    (es : List (String × Expression)) :
    stageDefinitions ⟨operator, .keyed (es.map fun d => (d.1, g d.2))⟩ =
      (stageDefinitions ⟨operator, .keyed es⟩).map fun d => (d.1, g d.2) := by
  unfold stageDefinitions
  dsimp only
  split_ifs
  · exact hg.definitions_eq "" es
  · exact hg.groupDefinitions_eq es
  · rw [Expression.get?_keyed, Expression.get?_keyed, Expression.find?_map]
    cases find? "newRoot" es with
    | none => rfl
    | some root => exact hg.rootDefinitions_eq root
  · exact hg.rootDefinitions_parts es
  · rfl

end KeepsDocuments

end Inquiry.Dates
