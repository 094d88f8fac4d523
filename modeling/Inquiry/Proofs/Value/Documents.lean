import Inquiry.Proofs.Json.Keys
import Inquiry.Proofs.Value.Entries
import Inquiry.Rows.Plain
import Inquiry.Shape

/-!
# Documents

A mapping whose keys are texts is read as it is. It keeps its keys when its values become what JSON can
hold, and so do the mappings in it.
-/
namespace Inquiry

open Value (TextKeys)

variable {es : List (Value × Value)}

theorem Value.textKeys_doc (fields : List (String × Value)) :
    TextKeys (fields.map fun f => (.str f.1, f.2)) := by
  intro e he
  obtain ⟨f, -, rfl⟩ := List.mem_map.mp he
  exact ⟨f.1, rfl⟩

theorem Value.exists_doc_of_textKeys (h : TextKeys es) :
    ∃ fields : List (String × Value), Value.dict es = .doc fields := by
  induction es with
  | nil => exact ⟨[], rfl⟩
  | cons e es ih =>
    obtain ⟨⟨key, hkey⟩, hes⟩ := List.forall_mem_cons.mp h
    obtain ⟨fields, hfields⟩ := ih hes
    refine ⟨(key, e.2) :: fields, ?_⟩
    rw [Value.doc, List.map_cons, ← Value.dict.inj hfields, ← hkey]

namespace Shape

theorem textEntries_of_textKeys (h : TextKeys es) : ∃ fields, textEntries es = .ok fields := by
  induction es with
  | nil => exact ⟨[], rfl⟩
  | cons e es ih =>
    obtain ⟨key, v⟩ := e
    obtain ⟨⟨name, hname⟩, hes⟩ := List.forall_mem_cons.mp h
    obtain ⟨fields, hfields⟩ := ih hes
    obtain rfl : key = .str name := hname
    exact ⟨(name, v) :: fields, by rw [textEntries, hfields]; rfl⟩

theorem document_of_textKeys (h : TextKeys es) : document (.dict es) = .ok (.dict es) := by
  obtain ⟨fields, hfields⟩ := textEntries_of_textKeys h
  rw [document, hfields]
  change Except.ok (if es.all (fun e => e.1.str?.isSome) then _ else _) = _
  rw [if_pos h.all_isSome]

theorem itemsFrom_eq {read : Value → Checked Value} {vs : List Value}
    (h : ∀ v ∈ vs, read v = .ok v) (i : Nat) : itemsFrom read i vs = .ok vs := by
  induction vs generalizing i with
  | nil => rfl
  | cons v vs ih =>
    obtain ⟨hv, hvs⟩ := List.forall_mem_cons.mp h
    rw [itemsFrom, hv, ih hvs]
    rfl

theorem list_document_eq {vs : List Value} (h : ∀ v ∈ vs, ∃ es, v = .dict es ∧ TextKeys es) :
    list document (.list vs) = .ok vs := by
  refine itemsFrom_eq (fun v hv => ?_) 0
  obtain ⟨es, rfl, hes⟩ := h v hv
  exact document_of_textKeys hes

end Shape

namespace Rows

open Json (badKey? badKeyItems? badKeyEntries? keyAllowed)

variable {v w : Value} {vs ws : List Value} {fs : List (Value × Value)}

theorem plain_dict_ok (h : plain (.dict es) = .ok w) :
    ∃ fs, plainEntries es = .ok fs ∧ w = .dict fs := by
  rw [plain] at h
  cases hes : plainEntries es with
  | error f => rw [hes] at h; cases h
  | ok fs =>
    rw [hes] at h
    cases h
    exact ⟨fs, rfl, rfl⟩

theorem plainItems_cons_ok (h : plainItems (v :: vs) = .ok ws) :
    ∃ w rest, plain v = .ok w ∧ plainItems vs = .ok rest ∧ ws = w :: rest := by
  rw [plainItems] at h
  cases hv : plain v with
  | error f => rw [hv] at h; cases h
  | ok w =>
    cases hvs : plainItems vs with
    | error f => rw [hv, hvs] at h; cases h
    | ok rest =>
      rw [hv, hvs] at h
      cases h
      exact ⟨w, rest, rfl, rfl, rfl⟩

theorem plainEntries_cons_ok {k : Value} (h : plainEntries ((k, v) :: es) = .ok fs) :
    ∃ w rest, plain v = .ok w ∧ plainEntries es = .ok rest ∧ fs = (k, w) :: rest := by
  rw [plainEntries] at h
  cases hv : plain v with
  | error f => rw [hv] at h; cases h
  | ok w =>
    cases hes : plainEntries es with
    | error f => rw [hv, hes] at h; cases h
    | ok rest =>
      rw [hv, hes] at h
      cases h
      exact ⟨w, rest, rfl, rfl, rfl⟩

theorem plainEntries_keys (h : plainEntries es = .ok fs) : fs.map (·.1) = es.map (·.1) := by
  induction es generalizing fs with
  | nil =>
    cases h
    rfl
  | cons e es ih =>
    obtain ⟨w, rest, -, hrest, rfl⟩ := plainEntries_cons_ok h
    rw [List.map_cons, List.map_cons, ih hrest]

theorem badKey?_decimalFloat {d : Decimal.BaseTen} (h : decimalFloat d = .ok w) :
    badKey? w = none := by
  unfold decimalFloat at h
  split at h
  · cases h
    rfl
  · cases h

mutual

theorem badKey?_plain :
    ∀ {v w : Value}, plain v = .ok w → badKey? v = none → badKey? w = none
  | .list vs, w, h, hkeys | .tuple vs, w, h, hkeys => by
    rw [plain] at h
    rw [badKey?] at hkeys
    cases hvs : plainItems vs with
    | error f => rw [hvs] at h; cases h
    | ok ws =>
      rw [hvs] at h
      cases h
      rw [badKey?]
      exact badKeyItems?_plainItems hvs hkeys
  | .dict es, w, h, hkeys => by
    rw [badKey?] at hkeys
    obtain ⟨fs, hfs, rfl⟩ := plain_dict_ok h
    rw [badKey?]
    exact badKeyEntries?_plainEntries hfs hkeys
  | .decimal128 d, w, h, _ | .decimal d, w, h, _ => badKey?_decimalFloat h
  | .objectId _, w, h, _ | .moment _, w, h, _ | .day _, w, h, _ | .duration _, w, h, _
  | .bytes _, w, h, _ | .null, w, h, _ | .bool _, w, h, _ | .int _, w, h, _ | .int64 _, w, h, _
  | .float _, w, h, _ | .str _, w, h, _ | .set _, w, h, _ => by
    cases h
    rfl

theorem badKeyItems?_plainItems :
    ∀ {vs ws : List Value}, plainItems vs = .ok ws → badKeyItems? vs = none →
      badKeyItems? ws = none
  | [], ws, h, _ => by
    cases h
    rfl
  | v :: vs, ws, h, hkeys => by
    obtain ⟨w, rest, hw, hrest, rfl⟩ := plainItems_cons_ok h
    rw [badKeyItems?, Option.or_eq_none_iff] at hkeys ⊢
    exact ⟨badKey?_plain hw hkeys.1, badKeyItems?_plainItems hrest hkeys.2⟩

theorem badKeyEntries?_plainEntries :
    ∀ {es fs : List (Value × Value)}, plainEntries es = .ok fs → badKeyEntries? es = none →
      badKeyEntries? fs = none
  | [], fs, h, _ => by
    cases h
    rfl
  | (k, v) :: es, fs, h, hkeys => by
    obtain ⟨w, rest, hw, hrest, rfl⟩ := plainEntries_cons_ok h
    rw [badKeyEntries?] at hkeys ⊢
    split at hkeys
    · rename_i hallowed
      rw [Option.or_eq_none_iff] at hkeys
      rw [if_pos hallowed, Option.or_eq_none_iff]
      exact ⟨badKey?_plain hw hkeys.1, badKeyEntries?_plainEntries hrest hkeys.2⟩
    · cases hkeys

end

/-- A document that JSON has a form for: its own keys are texts, and those below them keys that JSON
can write. -/
structure Presentable (es : List (Value × Value)) : Prop where
  keys : TextKeys es
  written : badKey? (.dict es) = none

theorem Presentable.plain (h : Presentable es) (hplain : plain (.dict es) = .ok w) :
    ∃ fs, w = .dict fs ∧ Presentable fs := by
  obtain ⟨fs, hfs, rfl⟩ := plain_dict_ok hplain
  exact ⟨fs, rfl, h.keys.of_keys (plainEntries_keys hfs), badKey?_plain hplain h.written⟩

end Rows

end Inquiry
