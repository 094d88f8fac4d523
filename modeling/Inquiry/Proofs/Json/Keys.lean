import Inquiry.Json.Printer
import Inquiry.Json.Reader
import Inquiry.Rows.Path

/-!
# Keys that JSON has a form for

A value can be written when all its keys can, at every depth; the parts of such a value can be written
too, and so can everything that is read from a text.
-/
namespace Inquiry.Json

theorem badKeyItems?_eq_none_iff {vs : List Value} :
    badKeyItems? vs = none ↔ ∀ v ∈ vs, badKey? v = none := by
  induction vs with
  | nil => simp [badKeyItems?]
  | cons v vs ih => rw [badKeyItems?, Option.or_eq_none_iff, ih, List.forall_mem_cons]

theorem badKeyEntries?_eq_none_iff {es : List (Value × Value)} :
    badKeyEntries? es = none ↔ ∀ e ∈ es, keyAllowed e.1 = true ∧ badKey? e.2 = none := by
  induction es with
  | nil => simp [badKeyEntries?]
  | cons e es ih =>
    rw [badKeyEntries?, List.forall_mem_cons, ← ih]
    by_cases hkey : keyAllowed e.1 = true
    · rw [if_pos hkey, Option.or_eq_none_iff]
      simp [hkey]
    · rw [if_neg hkey]
      simp [hkey]

theorem badKey?_list_iff {vs : List Value} :
    badKey? (.list vs) = none ↔ ∀ v ∈ vs, badKey? v = none := by
  rw [badKey?, badKeyItems?_eq_none_iff]

theorem badKey?_dict_iff {es : List (Value × Value)} :
    badKey? (.dict es) = none ↔ ∀ e ∈ es, keyAllowed e.1 = true ∧ badKey? e.2 = none := by
  rw [badKey?, badKeyEntries?_eq_none_iff]

theorem badKey?_lookup {es : List (Value × Value)} {key : String} {v : Value}
    (h : ∀ e ∈ es, keyAllowed e.1 = true ∧ badKey? e.2 = none) (hv : Value.lookup key es = some v) :
    badKey? v = none := by
  induction es with
  | nil => cases hv
  | cons e es ih =>
    obtain ⟨⟨-, he⟩, hes⟩ := List.forall_mem_cons.mp h
    unfold Value.lookup at hv
    split at hv
    · cases hv
    · rename_i hcons
      obtain ⟨rfl, rfl⟩ := List.cons.inj hcons
      split at hv
      · cases hv
        exact he
      · exact ih hes hv
    · rename_i hcons
      obtain ⟨rfl, rfl⟩ := List.cons.inj hcons
      exact ih hes hv

theorem badKey?_get? {v w : Value} {key : String} (h : badKey? v = none)
    (hw : v.get? key = some w) : badKey? w = none := by
  match v, hw with
  | .dict es, hw => exact badKey?_lookup (badKey?_dict_iff.mp h) hw

theorem badKey?_getD {v : Value} {key : String} (h : badKey? v = none) :
    badKey? (v.getD key) = none := by
  rw [Value.getD]
  cases hw : v.get? key with
  | none => rfl
  | some w => exact badKey?_get? h hw

theorem badKey?_walk {v : Value} {path : List String} (h : badKey? v = none) :
    badKey? (Rows.walk v path) = none := by
  induction path generalizing v with
  | nil => exact h
  | cons key path ih => exact ih (badKey?_getD h)

/-- What a row holds at a path can be written when the row can. -/
theorem badKey?_nested {row : Value} {path : String} (h : badKey? row = none) :
    badKey? (Rows.nested row path) = none := by
  unfold Rows.nested
  split
  · rfl
  · split
    · rename_i v hv
      exact badKey?_get? h hv
    · exact badKey?_walk h

theorem badKey?_insertEntry {es : List (Value × Value)} {key v : Value}
    (hkey : keyAllowed key = true) (hv : badKey? v = none)
    (h : ∀ e ∈ es, keyAllowed e.1 = true ∧ badKey? e.2 = none) :
    ∀ e ∈ Value.insertEntry key v es, keyAllowed e.1 = true ∧ badKey? e.2 = none := by
  induction es with
  | nil => simpa [Value.insertEntry] using ⟨hkey, hv⟩
  | cons d es ih =>
    obtain ⟨hd, hes⟩ := List.forall_mem_cons.mp h
    rw [Value.insertEntry]
    split
    · exact List.forall_mem_cons.mpr ⟨⟨hd.1, hv⟩, hes⟩
    · exact List.forall_mem_cons.mpr ⟨hd, ih hes⟩

theorem badKey?_ofPairs {pairs : List (Value × Value)}
    (h : ∀ p ∈ pairs, keyAllowed p.1 = true ∧ badKey? p.2 = none) :
    badKey? (Value.ofPairs pairs) = none := by
  rw [Value.ofPairs, badKey?_dict_iff]
  suffices hfold : ∀ es : List (Value × Value),
      (∀ e ∈ es, keyAllowed e.1 = true ∧ badKey? e.2 = none) →
      ∀ e ∈ pairs.foldl (fun es p => Value.insertEntry p.1 p.2 es) es,
        keyAllowed e.1 = true ∧ badKey? e.2 = none from hfold [] (by simp)
  induction pairs with
  | nil => exact fun _ hes => hes
  | cons p pairs ih =>
    obtain ⟨hp, hpairs⟩ := List.forall_mem_cons.mp h
    exact fun es hes => ih hpairs _ (badKey?_insertEntry hp.1 hp.2 hes)

/-- What is read, if anything is, can be written. -/
def ReadsWritable (r : Except Stop (Value × List Char)) : Prop :=
  ∀ v rest, r = .ok (v, rest) → badKey? v = none

theorem readsWritable_error (stop : Stop) : ReadsWritable (.error stop) := by
  intro v rest h
  cases h

theorem readsWritable_ok {v : Value} (h : badKey? v = none) (rest : List Char) :
    ReadsWritable (.ok (v, rest)) := by
  intro w rest' hw
  cases hw
  exact h

theorem ReadsWritable.bind {r : Except Stop (Value × List Char)}
    {next : Value × List Char → Except Stop (Value × List Char)} (h : ReadsWritable r)
    (hnext : ∀ v rest, badKey? v = none → ReadsWritable (next (v, rest))) :
    ReadsWritable (r >>= next) := by
  match r, h with
  | .error stop, _ => exact readsWritable_error stop
  | .ok (v, rest), h => exact hnext v rest (h v rest rfl)

theorem ReadsWritable.ite {p : Prop} [Decidable p] {r r' : Except Stop (Value × List Char)}
    (h : ReadsWritable r) (h' : ReadsWritable r') : ReadsWritable (if p then r else r') := by
  split <;> assumption

theorem badKey?_of_readName? {s rest : List Char} {v : Value} (h : readName? s = some (v, rest)) :
    badKey? v = none := by
  obtain ⟨⟨word, w⟩, hmem, hw⟩ := List.exists_of_findSome?_eq_some h
  dsimp only at hw
  split at hw
  · cases hw
    simp only [names, List.mem_cons, Prod.mk.injEq, List.not_mem_nil, or_false] at hmem
    rcases hmem with ⟨-, rfl⟩ | ⟨-, rfl⟩ | ⟨-, rfl⟩ | ⟨-, rfl⟩ | ⟨-, rfl⟩ | ⟨-, rfl⟩ <;> rfl
  · cases hw

theorem badKey?_number (p : NumberParts) : badKey? p.value = none := by
  unfold NumberParts.value
  split <;> rfl

theorem readsWritable_readNumber (s : List Char) : ReadsWritable (readNumber s) :=
  ReadsWritable.ite (readsWritable_error _) <| ReadsWritable.ite (readsWritable_error _) <|
    readsWritable_ok (badKey?_number _) _

theorem readsWritable_readString (opening acc s : List Char)
    {next : String × List Char → Except Stop (Value × List Char)}
    (hnext : ∀ t rest, ReadsWritable (next (t, rest))) :
    ReadsWritable (readString opening acc s >>= next) := by
  cases readString opening acc s with
  | error stop => exact readsWritable_error stop
  | ok r => exact hnext r.1 r.2

section Call

variable {fuel : Nat} (hvalue : ∀ room s, ReadsWritable (readValue room fuel s))
  (hmembers : ∀ room es s, (∀ e ∈ es, keyAllowed e.1 = true ∧ badKey? e.2 = none) →
    ReadsWritable (readMembers room fuel es s))
  (hitems : ∀ room acc s, (∀ v ∈ acc, badKey? v = none) → ReadsWritable (readItems room fuel acc s))

include hmembers hitems in
theorem readsWritable_readValue (room : Nat) (s : List Char) :
    ReadsWritable (readValue room (fuel + 1) s) := by
  unfold readValue
  split
  · exact readsWritable_readString _ _ _ fun t rest => readsWritable_ok rfl rest
  · split
    · exact readsWritable_error _
    · split
      · exact readsWritable_ok rfl _
      · exact hmembers _ _ _ (by simp)
  · split
    · exact readsWritable_error _
    · split
      · exact readsWritable_ok rfl _
      · exact hitems _ _ _ (by simp)
  · split
    · rename_i r hname
      exact readsWritable_ok (badKey?_of_readName? hname) r.2
    · exact readsWritable_readNumber _

include hvalue hmembers in
theorem readsWritable_readMembers (room : Nat) {es : List (Value × Value)} (s : List Char)
    (hes : ∀ e ∈ es, keyAllowed e.1 = true ∧ badKey? e.2 = none) :
    ReadsWritable (readMembers room (fuel + 1) es s) := by
  unfold readMembers
  split
  · refine readsWritable_readString _ _ _ fun key rest => ?_
    dsimp only
    split
    · refine (hvalue _ _).bind fun v rest hv => ?_
      have hentries := @badKey?_insertEntry _ (.str key) _ rfl hv hes
      dsimp only
      split
      · exact readsWritable_ok (badKey?_dict_iff.mpr hentries) _
      · exact hmembers _ _ _ hentries
      · exact readsWritable_error _
    · exact readsWritable_error _
  · exact readsWritable_error _

include hvalue hitems in
theorem readsWritable_readItems (room : Nat) {acc : List Value} (s : List Char)
    (hacc : ∀ v ∈ acc, badKey? v = none) : ReadsWritable (readItems room (fuel + 1) acc s) := by
  unfold readItems
  refine (hvalue _ _).bind fun v rest hv => ?_
  have hitemsAcc : ∀ w ∈ v :: acc, badKey? w = none := List.forall_mem_cons.mpr ⟨hv, hacc⟩
  dsimp only
  split
  · refine readsWritable_ok (badKey?_list_iff.mpr ?_) _
    intro w hw
    exact hitemsAcc w (List.mem_reverse.mp hw)
  · exact hitems _ _ _ hitemsAcc
  · exact readsWritable_error _

end Call

/-- By induction on the fuel, for the three functions at once: each call has one less. -/
theorem readsWritable_all (fuel : Nat) :
    (∀ room s, ReadsWritable (readValue room fuel s)) ∧
      (∀ room es s, (∀ e ∈ es, keyAllowed e.1 = true ∧ badKey? e.2 = none) →
        ReadsWritable (readMembers room fuel es s)) ∧
      (∀ room acc s, (∀ v ∈ acc, badKey? v = none) → ReadsWritable (readItems room fuel acc s)) := by
  induction fuel with
  | zero =>
    refine ⟨?_, ?_, ?_⟩
    · intro room s
      rw [readValue]
      exact readsWritable_error _
    · intro room es s _
      rw [readMembers]
      exact readsWritable_error _
    · intro room acc s _
      rw [readItems]
      exact readsWritable_error _
  | succ fuel ih =>
    obtain ⟨hvalue, hmembers, hitems⟩ := ih
    exact ⟨readsWritable_readValue hmembers hitems,
      fun room _ => readsWritable_readMembers hvalue hmembers room,
      fun room _ => readsWritable_readItems hvalue hitems room⟩

theorem badKey?_of_parse {text : String} {v : Value} (h : parse text = .ok v) :
    badKey? v = none := by
  unfold parse at h
  split at h
  · rename_i w hread
    cases h
    unfold readAll at hread
    cases hvalue : readValue maxDepth (2 * text.toList.length + 2) (skipSpace text.toList) with
    | error stop =>
      rw [hvalue] at hread
      cases hread
    | ok r =>
      rw [hvalue] at hread
      obtain ⟨w, rest⟩ := r
      have hw := (readsWritable_all _).1 _ _ w rest hvalue
      simp only [bind, Except.bind] at hread
      split at hread
      · cases hread
        exact hw
      · cases hread
  · cases h

end Inquiry.Json
