import Inquiry.Proofs.Expression.Induction

/-!
# Reading a written tree

`Canonical` tells the trees that values are read as: a leaf is no field reference in disguise, a
reference has a path that reads back, and a payload of `$literal` is a leaf whatever it holds. Such a
tree is written as a value that reads as the same tree, at whatever path it is read.
-/
namespace Inquiry.Expression

inductive Canonical : Expression → Prop
  | scalar {v} (leaf : isLeaf v = true) (plain : ∀ s, v = .str s → fieldPath? s = none) :
      Canonical (.scalar v)
  | fieldRef {path} (signed : fieldPath? ("$" ++ path) = some path) : Canonical (.fieldRef path)
  | keyed {es} (literal : ∀ d ∈ es, d.1 = "$literal" → ∃ v, d.2 = .scalar v)
      (entries : ∀ d ∈ es, d.1 ≠ "$literal" → Canonical d.2) : Canonical (.keyed es)
  | array {xs} (items : ∀ x ∈ xs, Canonical x) : Canonical (.array xs)

/-- A field path is the text after the sign. -/
theorem sign_append_fieldPath? {s path : String} (h : fieldPath? s = some path) :
    "$" ++ path = s := by
  unfold fieldPath? at h
  split at h
  · rename_i c rest hs
    split at h
    · cases h
    · cases h
      apply String.toList_injective
      have hrest : (String.ofList (c :: rest)).toList = c :: rest := String.toList_ofList
      rw [String.toList_append, hrest, hs]
      rfl
  · cases h

theorem toValue_ofText (s : String) : (ofText s).toValue = .str s := by
  unfold ofText
  split
  · rename_i path h
    rw [toValue, sign_append_fieldPath? h]
  · rfl

theorem canonical_ofText (s : String) : Canonical (ofText s) := by
  unfold ofText
  split
  · rename_i path h
    refine .fieldRef ?_
    rw [sign_append_fieldPath? h, h]
  · rename_i h
    refine .scalar rfl ?_
    intro t ht
    cases ht
    exact h

theorem Canonical.literal {es : List (String × Expression)} (h : Canonical (.keyed es))
    {e : Expression} (he : ("$literal", e) ∈ es) : ∃ v, e = .scalar v := by
  cases h with
  | keyed literal entries => exact literal _ he rfl

theorem Canonical.entry {es : List (String × Expression)} (h : Canonical (.keyed es))
    {key : String} {e : Expression} (he : (key, e) ∈ es) (hkey : key ≠ "$literal") :
    Canonical e := by
  cases h with
  | keyed literal entries => exact entries _ he hkey

theorem Canonical.cons {es : List (String × Expression)} (h : Canonical (.keyed es)) {key : String}
    {e : Expression} (hliteral : key = "$literal" → ∃ v, e = .scalar v)
    (he : key ≠ "$literal" → Canonical e) : Canonical (.keyed ((key, e) :: es)) := by
  cases h with
  | keyed literal entries =>
    exact .keyed (List.forall_mem_cons.mpr ⟨hliteral, literal⟩)
      (List.forall_mem_cons.mpr ⟨he, entries⟩)

theorem canonical_call {op : String} {operand : Expression} (hop : op ≠ "$literal")
    (h : Canonical operand) : Canonical (.keyed [(op, operand)]) := by
  have hnil : Canonical (.keyed []) := .keyed (by simp) (by simp)
  exact hnil.cons (absurd · hop) fun _ => h

theorem Canonical.items {xs : List Expression} (h : Canonical (.array xs)) :
    ∀ x ∈ xs, Canonical x := by
  cases h with
  | array items => exact items

def isScalar : Expression → Bool
  | .scalar _ => true
  | _ => false

mutual

/-- Whether a tree is canonical, as it is computed. -/
def isCanonical : Expression → Bool
  | .scalar v => isLeaf v && (v.str?.bind fieldPath?).isNone
  | .fieldRef path => fieldPath? ("$" ++ path) == some path
  | .keyed es => canonicalEntries es
  | .array xs => canonicalItems xs

def canonicalItems : List Expression → Bool
  | [] => true
  | x :: xs => isCanonical x && canonicalItems xs

def canonicalEntries : List (String × Expression) → Bool
  | [] => true
  | (key, e) :: es =>
    (if key = "$literal" then isScalar e else isCanonical e) && canonicalEntries es

end

theorem isScalar_iff {e : Expression} : isScalar e = true ↔ ∃ v, e = .scalar v := by
  cases e <;> simp [isScalar]

theorem canonical_scalar_iff {v : Value} :
    Canonical (.scalar v) ↔ isLeaf v = true ∧ ∀ s, v = .str s → fieldPath? s = none := by
  constructor
  · intro h
    cases h with
    | scalar leaf plain => exact ⟨leaf, plain⟩
  · exact fun ⟨leaf, plain⟩ => .scalar leaf plain

theorem canonical_array_cons_iff {x : Expression} {xs : List Expression} :
    Canonical (.array (x :: xs)) ↔ Canonical x ∧ Canonical (.array xs) := by
  constructor
  · intro h
    obtain ⟨hx, hxs⟩ := List.forall_mem_cons.mp h.items
    exact ⟨hx, .array hxs⟩
  · exact fun ⟨hx, hxs⟩ => .array (List.forall_mem_cons.mpr ⟨hx, hxs.items⟩)

theorem canonical_keyed_cons_iff {key : String} {e : Expression}
    {es : List (String × Expression)} : Canonical (.keyed ((key, e) :: es)) ↔
      (if key = "$literal" then isScalar e = true else Canonical e) ∧ Canonical (.keyed es) := by
  constructor
  · intro h
    refine ⟨?_, .keyed (fun d hd hkey => ?_) fun d hd hkey => ?_⟩
    · split
      · rename_i hkey
        subst hkey
        exact isScalar_iff.mpr (h.literal List.mem_cons_self)
      · rename_i hkey
        exact h.entry List.mem_cons_self hkey
    · obtain ⟨key', e'⟩ := d
      subst hkey
      exact h.literal (List.mem_cons_of_mem _ hd)
    · exact h.entry (List.mem_cons_of_mem _ hd) hkey
  · rintro ⟨he, hes⟩
    split at he
    · rename_i hkey
      exact hes.cons (fun _ => isScalar_iff.mp he) fun hne => absurd hkey hne
    · rename_i hkey
      exact hes.cons (fun heq => absurd heq hkey) fun _ => he

theorem isCanonical_iff (e : Expression) : isCanonical e = true ↔ Canonical e := by
  induction e with
  | scalar v =>
    rw [isCanonical, canonical_scalar_iff, Bool.and_eq_true]
    cases v <;> simp [Value.str?]
  | fieldRef path =>
    rw [isCanonical, beq_iff_eq]
    constructor
    · exact .fieldRef
    · intro h
      cases h with
      | fieldRef signed => exact signed
  | keyed es ih =>
    rw [isCanonical]
    induction es with
    | nil => simp [canonicalEntries, Canonical.keyed]
    | cons d es ihes =>
      obtain ⟨hd, hes⟩ := List.forall_mem_cons.mp ih
      rw [canonicalEntries, Bool.and_eq_true, ihes hes, canonical_keyed_cons_iff]
      split
      · exact Iff.rfl
      · rw [hd]
  | array xs ih =>
    rw [isCanonical]
    induction xs with
    | nil => simp [canonicalItems, Canonical.array]
    | cons x xs ihxs =>
      obtain ⟨hx, hxs⟩ := List.forall_mem_cons.mp ih
      rw [canonicalItems, Bool.and_eq_true, hx, ihxs hxs, canonical_array_cons_iff]

instance (e : Expression) : Decidable (Canonical e) := decidable_of_iff _ (isCanonical_iff e)

/-- What is read is canonical. -/
theorem canonical_of_ofValue {path : String} {v : Value} {e : Expression}
    (h : ofValue path v = .ok e) : Canonical e := by
  refine ofValue_induction (motive := fun _ e => Canonical e) canonical_ofText ?_ ?_ ?_ h
  · exact fun v hleaf htext => .scalar hleaf fun s hs => absurd hs (htext s)
  · intro _ es hes
    have hall : ∀ e ∈ es, Canonical e := by
      induction hes with
      | nil => exact List.forall_mem_nil _
      | cons he _ ih => exact List.forall_mem_cons.mpr ⟨he, ih⟩
    exact ⟨.array hall, .array hall⟩
  · intro _ _ hds
    induction hds with
    | nil => exact .keyed (List.forall_mem_nil _) (List.forall_mem_nil _)
    | cons hd _ ih =>
      cases hd with
      | payload v => exact ih.cons (fun _ => ⟨v, rfl⟩) fun hne => absurd rfl hne
      | value outside read => exact ih.cons (fun heq => absurd heq outside) fun _ => read

theorem ofValue_leaf {v : Value} (leaf : isLeaf v = true)
    (plain : ∀ s, v = .str s → fieldPath? s = none) (path : String) :
    ofValue path v = .ok (.scalar v) := by
  cases v with
  | str s => rw [ofValue, ofText, plain s rfl]
  | null | bool | int | int64 | float | moment | day => rfl
  | objectId | decimal128 | decimal | bytes | duration | list | tuple | set | dict => cases leaf

theorem ofItems_toItems {xs : List Expression}
    (h : ∀ x ∈ xs, ∀ p, ofValue p x.toValue = .ok x) (path : String) (i : Nat) :
    ofItems path i (toItems xs) = .ok xs := by
  induction xs generalizing i with
  | nil => rfl
  | cons x xs ih =>
    obtain ⟨hx, hxs⟩ := List.forall_mem_cons.mp h
    exact ofItems_cons_ok_iff.mpr ⟨x, xs, hx _, ih hxs (i + 1), rfl⟩

theorem ofEntries_toEntries {es : List (String × Expression)}
    (literal : ∀ d ∈ es, d.1 = "$literal" → ∃ v, d.2 = .scalar v)
    (h : ∀ d ∈ es, d.1 ≠ "$literal" → ∀ p, ofValue p d.2.toValue = .ok d.2) (path : String) :
    ofEntries path (toEntries es) = .ok es := by
  induction es with
  | nil => rfl
  | cons d es ih =>
    obtain ⟨key, e⟩ := d
    obtain ⟨hliteral, hliterals⟩ := List.forall_mem_cons.mp literal
    obtain ⟨he, hes⟩ := List.forall_mem_cons.mp h
    refine ofEntries_cons_ok_iff.mpr ⟨(key, e), es, ?_, ih hliterals hes, rfl⟩
    by_cases hkey : key = "$literal"
    · obtain ⟨v, rfl⟩ := hliteral hkey
      subst hkey
      exact .payload v
    · exact .value hkey (he hkey _)

/-- A canonical tree is written as a value that reads as the tree. -/
theorem ofValue_toValue {e : Expression} (h : Canonical e) (path : String) :
    ofValue path e.toValue = .ok e := by
  induction h generalizing path with
  | scalar leaf plain => exact ofValue_leaf leaf plain path
  | fieldRef signed => rw [toValue, ofValue, ofText, signed]
  | keyed literal entries ih =>
    rw [toValue, ofValue, ofEntries_toEntries literal (fun d hd hkey p => ih d hd hkey p)]
    rfl
  | array items ih =>
    rw [toValue, ofValue, ofItems_toItems fun x hx p => ih x hx p]
    rfl

end Inquiry.Expression

namespace Inquiry.Stage

open Expression (Canonical canonical_call)

theorem canonical_of_ofValue {index : Int} {v : Value} {s : Stage} (h : ofValue index v = .ok s) :
    isOperatorName s.operator = true ∧ Canonical s.toExpression := by
  unfold ofValue at h
  split at h
  · split at h
    · split at h
      · rename_i op hop
        split at h
        · rename_i hlit
          cases h
          refine ⟨hop, .keyed ?_ ?_⟩
          · simp
          · simp [hlit]
        · rename_i hlit
          obtain ⟨spec, hspec, rfl⟩ := Expression.ok_of_map_ok h
          refine ⟨hop, .keyed ?_ ?_⟩
          · simp [hlit]
          · simpa using fun _ => Expression.canonical_of_ofValue hspec
      · cases h
    · cases h
  · cases h
  · cases h

/-- A canonical stage is written as a value that reads as the stage, wherever it stands. -/
theorem ofValue_toValue {s : Stage} (hop : isOperatorName s.operator = true)
    (h : Canonical s.toExpression) (index : Int) : ofValue index s.toValue = .ok s := by
  obtain ⟨op, spec⟩ := s
  change (if isOperatorName op then _ else _) = _
  rw [if_pos hop]
  split
  · rename_i hlit
    cases hlit
    obtain ⟨v, hv⟩ := h.literal List.mem_cons_self
    cases hv
    rfl
  · rename_i hlit
    rw [Expression.ofValue_toValue (h.entry List.mem_cons_self hlit)]
    rfl

/-- A canonical specification is read back under the name of any operator but `$literal`. -/
theorem ofValue_toValue_call {op : String} {spec : Expression} (hop : isOperatorName op = true)
    (hlit : op ≠ "$literal") (hspec : Canonical spec) (index : Int) :
    ofValue index (Stage.mk op spec).toValue = .ok ⟨op, spec⟩ :=
  ofValue_toValue hop (canonical_call hlit hspec) index

end Inquiry.Stage
