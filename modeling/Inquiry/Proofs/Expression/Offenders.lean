import Inquiry.Proofs.Expression.Reading

/-!
# Reading and writing undo one another

What can be read is written back as it was, key by key, with lists in place of tuples, and reads as
the same tree again. What cannot be read is refused with the path of its first offender: of all keys
that are no text and all leaves that do not stand for themselves, the one whose address comes first.
-/
namespace Inquiry.Expression

mutual

/-- A value with lists in place of tuples, outside of the payloads of `$literal`. -/
def listed : Value → Value
  | .dict es => .dict (listedEntries es)
  | .list xs => .list (listedItems xs)
  | .tuple xs => .list (listedItems xs)
  | v => v

def listedItems : List Value → List Value
  | [] => []
  | x :: xs => listed x :: listedItems xs

def listedEntries : List (Value × Value) → List (Value × Value)
  | [] => []
  | (.str key, v) :: es => (.str key, if key = "$literal" then v else listed v) :: listedEntries es
  | (key, v) :: es => (key, listed v) :: listedEntries es

end

theorem toValue_of_ofValue {path : String} {v : Value} {e : Expression}
    (h : ofValue path v = .ok e) : e.toValue = listed v := by
  refine ofValue_induction (motive := fun v e => e.toValue = listed v) toValue_ofText ?_ ?_ ?_ h
  · intro v hleaf _
    cases v with
    | dict | list | tuple => cases hleaf
    | _ => rfl
  · intro xs es hes
    have hitems : toItems es = listedItems xs := by
      induction hes with
      | nil => rfl
      | cons he _ ih => rw [toItems, listedItems, he, ih]
    exact ⟨congrArg Value.list hitems, congrArg Value.list hitems⟩
  · intro es ds hds
    have hentries : toEntries ds = listedEntries es := by
      induction hds with
      | nil => rfl
      | cons hd _ ih =>
        cases hd with
        | payload v => rw [toEntries, listedEntries, if_pos rfl, ih, toValue]
        | value outside read => rw [toEntries, listedEntries, if_neg outside, ih, read]
    exact congrArg Value.dict hentries

/-- An offender of a value that stands at `path`: its address, which goes down by the numbers of items
and entries, the path that is shown for it, and what is wrong with it. A key that is no text is shown
by the path of its mapping. Nothing below such a key, and nothing in a payload of `$literal`, has a
path, so no offender is sought there. -/
inductive Offender : String → Value → List Nat → String → Malformed → Prop
  | leaf {path v} (single : isContainer v = false) (strange : isLeaf v = false) :
      Offender path v [] path (.unsupported path v.typeName)
  | key {path es i k v} (entry : es[i]? = some (k, v)) (notText : ∀ s, k ≠ .str s) :
      Offender path (.dict es) [i] path (.keyNotText path k)
  | entry {path es i key v address place m} (entry : es[i]? = some (.str key, v))
      (outside : key ≠ "$literal") (below : Offender (joinPath path key) v address place m) :
      Offender path (.dict es) (i :: address) place m
  | item {path xs} {i : Nat} {v address place m} (item : xs[i]? = some v)
      (below : Offender (indexPath path i) v address place m) :
      Offender path (.list xs) (i :: address) place m
  | tupleItem {path xs} {i : Nat} {v address place m} (item : xs[i]? = some v)
      (below : Offender (indexPath path i) v address place m) :
      Offender path (.tuple xs) (i :: address) place m

/-- Every other offender has a later address. Addresses are compared number by number, so this is the
order in which a document is written down. -/
def FirstOffender (path : String) (v : Value) (place : String) (m : Malformed) : Prop :=
  ∃ address, Offender path v address place m ∧
    ∀ address' place' m', Offender path v address' place' m' →
      (place' = place ∧ m' = m) ∨ address < address'

theorem Offender.details {path : String} {v : Value} {address : List Nat} {place : String}
    {m : Malformed} (h : Offender path v address place m) :
    (Fault.malformed m).report? = some ⟨.malformedPipeline, m.message, [("path", .str place)]⟩ := by
  induction h with
  | leaf single strange => rfl
  | key entry notText => rfl
  | entry entry outside below ih => exact ih
  | item item below ih => exact ih
  | tupleItem item below ih => exact ih

theorem Readable.not_offender {path : String} {v : Value} {address : List Nat} {place : String}
    {m : Malformed} (hv : Readable v) (h : Offender path v address place m) : False := by
  induction h with
  | leaf single strange =>
    cases hv with
    | leaf leaf => exact absurd (leaf.symm.trans strange) (by decide)
    | list | tuple | dict => cases single
  | key entry notText =>
    cases hv with
    | leaf leaf => cases leaf
    | dict keys values =>
      obtain ⟨s, hs⟩ := keys _ (List.mem_of_getElem? entry)
      exact notText s hs
  | entry entry outside below ih =>
    cases hv with
    | leaf leaf => cases leaf
    | dict keys values =>
      exact ih (values _ (List.mem_of_getElem? entry) fun hkey => outside (Value.str.inj hkey))
  | item item below ih =>
    cases hv with
    | leaf leaf => cases leaf
    | list items => exact ih (items _ (List.mem_of_getElem? item))
  | tupleItem item below ih =>
    cases hv with
    | leaf leaf => cases leaf
    | tuple items => exact ih (items _ (List.mem_of_getElem? item))

theorem error_of_map_error {ε α β : Type} {f : α → β} {x : Except ε α} {m : ε}
    (h : x.map f = .error m) : x = .error m := by
  cases x with
  | error m' => exact congrArg Except.error (Except.error.inj h)
  | ok a => cases h

/-- The reader stops at the first part that it cannot read, so all parts before that one are
readable. -/
theorem ofItems_error {path : String} {i : Nat} {vs : List Value} {m : Malformed}
    (h : ofItems path i vs = .error m) : ∃ k v, vs[k]? = some v ∧
      ofValue (indexPath path ((i + k : Nat) : Int)) v = .error m ∧
      ∀ l w, l < k → vs[l]? = some w → Readable w := by
  induction vs generalizing i with
  | nil => cases h
  | cons v vs ih =>
    rw [ofItems] at h
    split at h
    · rename_i hv
      cases h
      exact ⟨0, v, rfl, hv, fun l w hl => absurd hl (Nat.not_lt_zero l)⟩
    · rename_i e he
      obtain ⟨k, w, hk, hw, hbefore⟩ := ih (error_of_map_error h)
      refine ⟨k + 1, w, hk, by rwa [Nat.add_assoc, Nat.add_comm 1] at hw, fun l x hl hx => ?_⟩
      cases l with
      | zero =>
        cases hx
        exact readable_of_ofValue he
      | succ l => exact hbefore l x (Nat.lt_of_succ_lt_succ hl) hx

/-- An entry that does not stop the reader. -/
def EntryReadable (d : Value × Value) : Prop :=
  (∃ key, d.1 = .str key) ∧ (d.1 ≠ .str "$literal" → Readable d.2)

/-- An entry at which the reader stops. -/
def StopsAt (path : String) (m : Malformed) (d : Value × Value) : Prop :=
  ((∀ s, d.1 ≠ .str s) ∧ m = .keyNotText path d.1) ∨
    ∃ key, d.1 = .str key ∧ key ≠ "$literal" ∧ ofValue (joinPath path key) d.2 = .error m

theorem ofEntries_error {path : String} {es : List (Value × Value)} {m : Malformed}
    (h : ofEntries path es = .error m) : ∃ (k : Nat) (d : Value × Value), es[k]? = some d ∧
      StopsAt path m d ∧ ∀ l c, l < k → es[l]? = some c → EntryReadable c := by
  induction es with
  | nil => cases h
  | cons d es ih =>
    -- An entry that is passed stands before the one at which the reader stops later.
    have later (hd : EntryReadable d) (hes : ofEntries path es = .error m) :
        ∃ (k : Nat) (c : Value × Value), (d :: es)[k]? = some c ∧ StopsAt path m c ∧
          ∀ l c, l < k → (d :: es)[l]? = some c → EntryReadable c := by
      obtain ⟨k, c, hk, hc, hbefore⟩ := ih hes
      refine ⟨k + 1, c, hk, hc, fun l b hl hb => ?_⟩
      cases l with
      | zero =>
        cases hb
        exact hd
      | succ l => exact hbefore l b (Nat.lt_of_succ_lt_succ hl) hb
    have first (hd : StopsAt path m d) :
        ∃ (k : Nat) (c : Value × Value), (d :: es)[k]? = some c ∧ StopsAt path m c ∧
          ∀ l c, l < k → (d :: es)[l]? = some c → EntryReadable c :=
      ⟨0, d, rfl, hd, fun l c hl => absurd hl (Nat.not_lt_zero l)⟩
    unfold ofEntries at h
    split at h
    · contradiction
    · rename_i key v es' hcons
      cases hcons
      split at h
      · rename_i hkey
        refine later ⟨⟨key, rfl⟩, fun hne => absurd (congrArg Value.str hkey) hne⟩ ?_
        exact error_of_map_error h
      · rename_i hkey
        split at h
        · rename_i hv
          cases h
          exact first (.inr ⟨key, rfl, hkey, hv⟩)
        · rename_i e he
          exact later ⟨⟨key, rfl⟩, fun _ => readable_of_ofValue he⟩ (error_of_map_error h)
    · rename_i k v es' hnotText hcons
      cases hcons
      cases h
      exact first (.inl ⟨fun s hs => hnotText s hs, rfl⟩)

/-- The first offender of a part is the first one of the whole, if all parts before it are readable. -/
theorem firstOffender_item {path : String} {xs : List Value} {k : Nat} {v : Value} {place : String}
    {m : Malformed} (hk : xs[k]? = some v) (hv : FirstOffender (indexPath path k) v place m)
    (hbefore : ∀ l w, l < k → xs[l]? = some w → Readable w) :
    FirstOffender path (.list xs) place m ∧ FirstOffender path (.tuple xs) place m := by
  obtain ⟨address, hfirst, hothers⟩ := hv
  have compare (l : Nat) (w : Value) (address' : List Nat) (place' : String) (m' : Malformed)
      (hl : xs[l]? = some w) (h : Offender (indexPath path (l : Nat)) w address' place' m') :
      (place' = place ∧ m' = m) ∨ k :: address < l :: address' := by
    rcases Nat.lt_trichotomy l k with hlt | rfl | hlt
    · exact ((hbefore l w hlt hl).not_offender h).elim
    · obtain rfl : v = w := Option.some.inj (hk.symm.trans hl)
      exact (hothers _ _ _ h).imp id fun hlt => List.cons_lt_cons_iff.mpr (.inr ⟨rfl, hlt⟩)
    · exact .inr (List.cons_lt_cons_iff.mpr (.inl hlt))
  refine ⟨⟨_, .item hk hfirst, fun address' place' m' h => ?_⟩,
    ⟨_, .tupleItem hk hfirst, fun address' place' m' h => ?_⟩⟩
  · cases h with
    | leaf single => cases single
    | item hl below => exact compare _ _ _ _ _ hl below
  · cases h with
    | leaf single => cases single
    | tupleItem hl below => exact compare _ _ _ _ _ hl below

theorem EntryReadable.not_offender {path : String} {es : List (Value × Value)} {l : Nat}
    {d : Value × Value} {address : List Nat} {place : String} {m : Malformed}
    (hd : EntryReadable d) (hl : es[l]? = some d)
    (h : Offender path (.dict es) (l :: address) place m) : False := by
  cases h with
  | key hentry notText =>
    obtain rfl := Option.some.inj (hl.symm.trans hentry)
    obtain ⟨⟨s, hs⟩, -⟩ := hd
    exact notText s hs
  | entry hentry outside below =>
    obtain rfl := Option.some.inj (hl.symm.trans hentry)
    exact (hd.2 fun hkey => outside (Value.str.inj hkey)).not_offender below

theorem firstOffender_entry {path : String} {es : List (Value × Value)} {k : Nat}
    {place : String} {m : Malformed}
    (hbefore : ∀ l d, l < k → es[l]? = some d → EntryReadable d)
    (h : ∃ address, Offender path (.dict es) (k :: address) place m ∧
      ∀ address' place' m', Offender path (.dict es) (k :: address') place' m' →
        (place' = place ∧ m' = m) ∨ address < address') :
    FirstOffender path (.dict es) place m := by
  obtain ⟨address, hfirst, hothers⟩ := h
  refine ⟨k :: address, hfirst, fun address' place' m' h => ?_⟩
  obtain ⟨l, rest, d, rfl, hl⟩ : ∃ l rest d, address' = l :: rest ∧ es[l]? = some d := by
    cases h with
    | leaf single => cases single
    | key hentry => exact ⟨_, _, _, rfl, hentry⟩
    | entry hentry => exact ⟨_, _, _, rfl, hentry⟩
  rcases Nat.lt_trichotomy l k with hlt | rfl | hlt
  · exact ((hbefore l d hlt hl).not_offender hl h).elim
  · exact (hothers _ _ _ h).imp id fun hlt => List.cons_lt_cons_iff.mpr (.inr ⟨rfl, hlt⟩)
  · exact .inr (List.cons_lt_cons_iff.mpr (.inl hlt))

/-- The key is the only offender under its number. -/
theorem firstOffender_key {path : String} {es : List (Value × Value)} {k : Nat}
    {d : Value × Value} (hk : es[k]? = some d) (notText : ∀ s, d.1 ≠ .str s)
    (hbefore : ∀ l d, l < k → es[l]? = some d → EntryReadable d) :
    FirstOffender path (.dict es) path (.keyNotText path d.1) := by
  refine firstOffender_entry hbefore ⟨[], .key hk notText, fun address' place' m' h => ?_⟩
  cases h with
  | key hentry =>
    obtain rfl := Option.some.inj (hk.symm.trans hentry)
    exact .inl ⟨rfl, rfl⟩
  | entry hentry =>
    obtain rfl := Option.some.inj (hk.symm.trans hentry)
    exact absurd rfl (notText _)

theorem firstOffender_below {path key : String} {es : List (Value × Value)} {k : Nat} {v : Value}
    {place : String} {m : Malformed} (hk : es[k]? = some (.str key, v)) (outside : key ≠ "$literal")
    (hv : FirstOffender (joinPath path key) v place m)
    (hbefore : ∀ l d, l < k → es[l]? = some d → EntryReadable d) :
    FirstOffender path (.dict es) place m := by
  obtain ⟨address, hfirst, hothers⟩ := hv
  refine firstOffender_entry hbefore ⟨address, .entry hk outside hfirst, fun address' place' m' h => ?_⟩
  cases h with
  | key hentry notText =>
    cases Option.some.inj (hk.symm.trans hentry)
    exact absurd rfl (notText key)
  | entry hentry outside' below =>
    cases Option.some.inj (hk.symm.trans hentry)
    exact hothers _ _ _ below

theorem firstOffender_single {path : String} {v : Value} {m : Malformed}
    (single : isContainer v = false) (h : ofValue path v = .error m) :
    FirstOffender path v path m := by
  obtain ⟨strange, rfl⟩ : isLeaf v = false ∧ m = .unsupported path v.typeName := by
    cases v with
    | dict | list | tuple => cases single
    | null | bool | int | int64 | float | str | moment | day => cases h
    | objectId | decimal128 | decimal | bytes | duration | set =>
      cases h
      exact ⟨rfl, rfl⟩
  refine ⟨[], .leaf single strange, fun address' place' m' h => ?_⟩
  cases h with
  | leaf => exact .inl ⟨rfl, rfl⟩
  | key | entry | item | tupleItem => cases single

/-- What cannot be read is refused for its first offender. -/
theorem firstOffender_of_ofValue {path : String} {v : Value} {m : Malformed}
    (h : ofValue path v = .error m) : ∃ place, FirstOffender path v place m := by
  induction v using containers_induction generalizing path m with
  | single v single => exact ⟨path, firstOffender_single single h⟩
  | dict es ih =>
    obtain ⟨k, d, hk, hstop, hbefore⟩ := ofEntries_error (error_of_map_error h)
    rcases hstop with ⟨notText, rfl⟩ | ⟨key, hkey, outside, hd⟩
    · exact ⟨path, firstOffender_key hk notText hbefore⟩
    · obtain ⟨place, hplace⟩ := ih d (List.mem_of_getElem? hk) hd
      have hentry : es[k]? = some (.str key, d.2) := by rw [hk, ← hkey]
      exact ⟨place, firstOffender_below hentry outside hplace hbefore⟩
  | list xs ih =>
    obtain ⟨k, v, hk, hv, hbefore⟩ := ofItems_error (error_of_map_error h)
    rw [Nat.zero_add] at hv
    obtain ⟨place, hplace⟩ := ih v (List.mem_of_getElem? hk) hv
    exact ⟨place, (firstOffender_item hk hplace hbefore).1⟩
  | tuple xs ih =>
    obtain ⟨k, v, hk, hv, hbefore⟩ := ofItems_error (error_of_map_error h)
    rw [Nat.zero_add] at hv
    obtain ⟨place, hplace⟩ := ih v (List.mem_of_getElem? hk) hv
    exact ⟨place, (firstOffender_item hk hplace hbefore).2⟩

/-- Exactly what is made of mappings with text keys, sequences and plain leaves, payloads of
`$literal` apart, can be read. It is written back as it was and reads as the same tree; what cannot be
read is reported with the path of its first offender. -/
theorem reading_and_writing_inverse (path : String) (v : Value) :
    ((∃ e, ofValue path v = .ok e) ↔ Readable v) ∧
      (∀ e, ofValue path v = .ok e → e.toValue = listed v ∧ ofValue path e.toValue = .ok e) ∧
      ∀ m, ofValue path v = .error m → ∃ place, FirstOffender path v place m ∧
        (Fault.malformed m).report? =
          some ⟨.malformedPipeline, m.message, [("path", .str place)]⟩ := by
  refine ⟨ofValue_ok_iff, fun e he => ⟨toValue_of_ofValue he, ?_⟩, fun m hm => ?_⟩
  · exact ofValue_toValue (canonical_of_ofValue he) path
  · obtain ⟨place, hplace⟩ := firstOffender_of_ofValue hm
    obtain ⟨address, hfirst, -⟩ := id hplace
    exact ⟨place, hplace, hfirst.details⟩

end Inquiry.Expression
