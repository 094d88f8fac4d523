import Inquiry.Proofs.Dates.Conversion
import Inquiry.Proofs.Dates.Run
import Inquiry.Proofs.Expression.Canonical
import Inquiry.Proofs.Json.Keys

/-!
# Writing healed pipelines

A tree is written with the keys of the value that it was read from, and healing only drops parts of a
tree. So a pipeline that JSON has a form for still has one when it is healed.
-/
namespace Inquiry

open Json (badKey? badKeyItems? badKeyEntries? badKey?_list_iff badKey?_dict_iff)

namespace Expression

/-- The key that JSON has no form for is the same before and after: a sequence is written as a list,
and everything else as it was. -/
theorem badKey?_of_ofValue {path : String} {v : Value} {e : Expression}
    (h : ofValue path v = .ok e) : badKey? e.toValue = badKey? v := by
  refine ofValue_induction (motive := fun v e => badKey? e.toValue = badKey? v) ?_
    (fun _ _ _ => rfl) ?_ ?_ h
  · intro s
    rw [toValue_ofText]
  · intro xs es hes
    have hitems : badKeyItems? (toItems es) = badKeyItems? xs := by
      induction hes with
      | nil => rfl
      | cons he _ ih => rw [toItems, badKeyItems?, badKeyItems?, he, ih]
    exact ⟨hitems, hitems⟩
  · intro es ds hds
    change badKeyEntries? (toEntries ds) = badKeyEntries? es
    induction hds with
    | nil => rfl
    | cons hd _ ih =>
      cases hd with
      | payload v => rw [toEntries, badKeyEntries?, badKeyEntries?, ih, toValue]
      | value outside read => rw [toEntries, badKeyEntries?, badKeyEntries?, ih, read]

theorem badKey?_keyed_iff {es : List (String × Expression)} :
    badKey? (keyed es).toValue = none ↔ ∀ d ∈ es, badKey? d.2.toValue = none := by
  rw [toValue, badKey?]
  induction es with
  | nil => simp [toEntries, badKeyEntries?]
  | cons d es ih =>
    have hkey : Json.keyAllowed (.str d.1) = true := rfl
    rw [toEntries, badKeyEntries?, if_pos hkey, Option.or_eq_none_iff, ih, List.forall_mem_cons]

theorem badKey?_array_iff {xs : List Expression} :
    badKey? (array xs).toValue = none ↔ ∀ x ∈ xs, badKey? x.toValue = none := by
  rw [toValue, badKey?]
  induction xs with
  | nil => simp [toItems, badKeyItems?]
  | cons x xs ih => rw [toItems, badKeyItems?, Option.or_eq_none_iff, ih, List.forall_mem_cons]

end Expression

theorem Stage.badKey?_of_ofValue {index : Int} {v : Value} {s : Stage}
    (h : ofValue index v = .ok s) (hv : badKey? v = none) : badKey? s.spec.toValue = none := by
  unfold ofValue at h
  split at h
  · rename_i key w
    obtain ⟨-, hw⟩ := badKey?_dict_iff.mp hv _ List.mem_cons_self
    split at h
    · split at h
      · split at h
        · cases h
          exact hw
        · obtain ⟨spec, hspec, rfl⟩ := Expression.ok_of_map_ok h
          exact (Expression.badKey?_of_ofValue hspec).trans hw
      · cases h
    · cases h
  · cases h
  · cases h

namespace Dates

open Expression (badKey?_keyed_iff badKey?_array_iff)

variable {known : String → Bool} {force : Bool}

theorem badKey?_collapse {e : Expression} (h : badKey? e.toValue = none) :
    badKey? (collapse known force e).toValue = none := by
  unfold collapse
  split
  · rfl
  · exact h

theorem badKey?_heal {e : Expression} (h : badKey? e.toValue = none) :
    badKey? (heal known force e).toValue = none := by
  induction e with
  | scalar v => exact h
  | fieldRef path => rfl
  | keyed es ih =>
    rw [heal]
    refine badKey?_collapse (badKey?_keyed_iff.mpr ?_)
    have hes := badKey?_keyed_iff.mp h
    rw [healEntries_eq_map]
    intro d hd
    obtain ⟨c, hc, rfl⟩ := List.mem_map.mp hd
    exact ih c hc (hes c hc)
  | array xs ih =>
    rw [heal]
    refine badKey?_array_iff.mpr ?_
    have hxs := badKey?_array_iff.mp h
    rw [healItems_eq_map]
    intro y hy
    obtain ⟨x, hx, rfl⟩ := List.mem_map.mp hy
    exact ih x hx (hxs x hx)

variable {index : Nat} {p p' : Progress} {vs out : List Value}

theorem badKey?_healStages (h : healStages force index p vs = (p', .ok out))
    (hvs : ∀ v ∈ vs, badKey? v = none) : ∀ w ∈ out, badKey? w = none := by
  induction vs generalizing index p out with
  | nil =>
    obtain ⟨-, rfl⟩ := healStages_nil_ok_iff.mp h
    simp
  | cons v vs ih =>
    obtain ⟨s, rest, hs, hrun, rfl⟩ := healStages_cons_ok_iff.mp h
    obtain ⟨hv, hvs⟩ := List.forall_mem_cons.mp hvs
    have hspec : badKey? (heal p.fields.contains force s.spec).toValue = none :=
      badKey?_heal (Stage.badKey?_of_ofValue hs hv)
    refine List.forall_mem_cons.mpr ⟨?_, ih hrun hvs⟩
    exact badKey?_keyed_iff.mpr (by simpa [healStage] using hspec)

end Dates

end Inquiry
