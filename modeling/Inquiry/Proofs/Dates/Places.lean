import Mathlib.Data.List.Basic
import Mathlib.Tactic.Choose
import Inquiry.Proofs.Dates.Conversion
import Inquiry.Proofs.Expression.Places

/-!
# Reports and the places they are about

The reports on a tree come in post-order, at most one for a node, and the report on a node is made
from its path and from its operand as it is once healed. Beside them stands what healing leaves at each
place: the healed node, unless a conversion above it gave way to its field.
-/
namespace Inquiry.Dates

open Expression (find? addressed mem_addressed_iff place?_cons_eq_some_iff PostBefore)

/-- A reference to the field `f`, or a document whose `date` is one. -/
inductive RefersTo (f : String) : Expression → Prop
  | field : RefersTo f (.fieldRef f)
  | date {es} (document : (Expression.keyed es).operator? = none)
      (date : find? "date" es = some (.fieldRef f)) : RefersTo f (.keyed es)

/-- An operand that is, or has as its only item, what refers to the field `f`. -/
inductive TakenOf (f : String) : Expression → Prop
  | operand {e} (refers : RefersTo f e) : TakenOf f e
  | item {e} (refers : RefersTo f e) : TakenOf f (.array [e])

/-- A date part that is taken of a field that is not known to hold dates. -/
structure UnknownPart (known : String → Bool) (op : String) (operand : Expression) (f : String) :
    Prop where
  part : op ∈ partOperators
  taken : TakenOf f operand
  unknown : known f = false

theorem RefersTo.unwrapSingle {f : String} {e : Expression} (h : RefersTo f e) :
    e.unwrapSingle = e := by
  cases h <;> rfl

/-- The test of the healer and the list of spellings agree. -/
theorem partField?_eq_some_iff {f : String} {e : Expression} :
    partField? e = some f ↔ TakenOf f e := by
  constructor
  · intro h
    have hrefers : RefersTo f e.unwrapSingle := by
      unfold partField? at h
      split at h
      · rename_i path hpath
        cases h
        rw [hpath]
        exact .field
      · split at h
        · rename_i hnone
          split at h
          · rename_i path hdate
            cases h
            generalize e.unwrapSingle = x at hnone hdate
            match x, hdate with
            | .keyed es, hdate => exact .date (Option.isNone_iff_eq_none.mp hnone) hdate
          · cases h
        · cases h
    rcases unwrapSingle_cases e with he | he
    · rw [he]
      exact .operand hrefers
    · rw [he]
      exact .item hrefers
  · have hrefers : ∀ x, RefersTo f x → ∀ e : Expression, e.unwrapSingle = x →
        partField? e = some f := by
      intro x hx e he
      cases hx with
      | field => rw [partField?, he]
      | date document date =>
        simp only [partField?, he, document, Option.isNone_none, if_true,
          Expression.get?_keyed, date]
    intro h
    cases h with
    | operand refers => exact hrefers _ refers _ refers.unwrapSingle
    | item refers => exact hrefers _ refers _ rfl

theorem isOperatorName_of_part {op : String} (h : op ∈ partOperators) :
    isOperatorName op = true := by
  have hall : ∀ op ∈ partOperators, isOperatorName op = true := by decide
  exact hall op h

theorem not_conversion_of_part {op : String} (h : op ∈ partOperators) :
    op ∉ conversionOperators := by
  have hall : ∀ op ∈ partOperators, op ∉ conversionOperators := by decide
  exact hall op h

variable {known : String → Bool} {force : Bool} {index : Nat} {path q : String}

/-- A date part is no conversion, so it stays what it is. -/
theorem heal_part {op : String} (h : op ∈ partOperators) (operand : Expression) :
    heal known force (.keyed [(op, operand)]) = .keyed [(op, heal known force operand)] :=
  heal_call known force (not_conversion_of_part h) operand

theorem healedParts_eq_call {es : List (String × Expression)} {op : String} {operand : Expression}
    (h : healedParts known force es = .keyed [(op, operand)]) :
    ∃ x, es = [(op, x)] ∧ heal known force x = operand := by
  obtain ⟨⟨key, x⟩, rfl, hd⟩ := List.map_eq_singleton_iff.mp (Expression.keyed.inj h)
  cases hd
  exact ⟨x, rfl, rfl⟩

/-- A node is found to be redundant if it heals to the field. -/
theorem redundantSource?_healedParts {es : List (String × Expression)} {f : String} :
    redundantSource? known force (healedParts known force es) = some f ↔
      heal known force (.keyed es) = .fieldRef f := by
  rw [heal_keyed, collapse]
  cases redundantSource? known force (healedParts known force es) <;> simp [healedParts]

theorem heal_eq_fieldRef_iff {es : List (String × Expression)} {f : String} :
    heal known force (.keyed es) = .fieldRef f ↔
      Converts f (healedParts known force es) ∧ (known f = true ∨ force = true) := by
  rw [← redundantSource?_healedParts, redundantSource?_eq_some_iff]

/-- Only an operator call heals to one. -/
theorem heal_eq_call {e operand : Expression} {op : String}
    (h : heal known force e = .keyed [(op, operand)]) :
    ∃ x, e = .keyed [(op, x)] ∧ heal known force x = operand := by
  cases e with
  | scalar v =>
    rw [heal_scalar] at h
    cases h
  | fieldRef f =>
    rw [heal_fieldRef] at h
    cases h
  | array xs =>
    rw [heal_array] at h
    cases h
  | keyed es =>
    rw [heal_keyed] at h
    rcases collapse_eq_or known force (healedParts known force es) with hk | ⟨f, hk, -⟩
    · obtain ⟨x, rfl, hx⟩ := healedParts_eq_call (hk.symm.trans h)
      exact ⟨x, rfl, hx⟩
    · rw [hk] at h
      cases h

theorem mem_mismatch_iff {e : Expression} {d : Diagnostic} :
    d ∈ mismatch known index path e ↔ ∃ op operand f, e = .keyed [(op, operand)] ∧
      UnknownPart known op operand f ∧ d = ⟨.operatorMismatch, index, path, op, f⟩ := by
  constructor
  · intro h
    unfold mismatch at h
    split at h
    · rename_i op operand hcall
      obtain ⟨-, rfl⟩ := Expression.call?_eq_some_iff.mp hcall
      split at h
      · rename_i hpart
        split at h
        · rename_i f hf
          split at h
          · cases h
          · rename_i hknown
            refine ⟨op, operand, f, rfl, ⟨List.contains_iff_mem.mp hpart,
              partField?_eq_some_iff.mp hf, by simpa using hknown⟩, List.mem_singleton.mp h⟩
        · cases h
      · cases h
    · cases h
  · rintro ⟨op, operand, f, rfl, ⟨part, taken, unknown⟩, rfl⟩
    rw [mismatch, Expression.call?_eq_some_iff.mpr ⟨isOperatorName_of_part part, rfl⟩]
    simp [part, partField?_eq_some_iff.mpr taken, unknown]

theorem length_mismatch_le (known : String → Bool) (index : Nat) (path : String) (e : Expression) :
    (mismatch known index path e).length ≤ 1 := by
  unfold mismatch
  split
  · split
    · split
      · split <;> simp
      · simp
    · simp
  · simp

/-- The reports on a node, without those on the nodes below it. -/
def ownReports (known : String → Bool) (force : Bool) (index : Nat) (path : String) :
    Expression → List Diagnostic
  | .keyed es => diagnoseNode known force index path (healedParts known force es)
  | _ => []

theorem length_ownReports_le (known : String → Bool) (force : Bool) (index : Nat) (path : String)
    (e : Expression) : (ownReports known force index path e).length ≤ 1 := by
  cases e with
  | keyed es =>
    rw [ownReports, diagnoseNode]
    split
    · simp
    · exact length_mismatch_le known index path _
  | _ => simp [ownReports]

/-- A node is reported on as a removed conversion if it heals to a reference, and as a mismatch if,
once healed, it is a date part of a field that is not known. -/
theorem mem_ownReports_iff {e : Expression} {d : Diagnostic} :
    d ∈ ownReports known force index path e ↔ ∃ op operand f, e = .keyed [(op, operand)] ∧
      ((isOperatorName op = true ∧ heal known force e = .fieldRef f ∧
          d = ⟨.conversionRemoved (known f), index, path, op, f⟩) ∨
        (UnknownPart known op (heal known force operand) f ∧
          d = ⟨.operatorMismatch, index, path, op, f⟩)) := by
  constructor
  · intro h
    match e, h with
    | .keyed es, h =>
      rw [ownReports, diagnoseNode] at h
      split at h
      · rename_i f hf
        obtain ⟨op, operand, hparts, hop⟩ := (redundantSource?_eq_some_iff.mp hf).1.operator
        obtain ⟨x, rfl, -⟩ := healedParts_eq_call hparts
        have hname := isOperatorName_of_conversion hop
        refine ⟨op, x, f, rfl, Or.inl ⟨hname, redundantSource?_healedParts.mp hf, ?_⟩⟩
        rw [List.mem_singleton.mp h, hparts, Expression.operator?,
          Expression.call?_eq_some_iff.mpr ⟨hname, rfl⟩]
        rfl
      · obtain ⟨op, operand, f, hparts, hpart, hd⟩ := mem_mismatch_iff.mp h
        obtain ⟨x, rfl, rfl⟩ := healedParts_eq_call hparts
        exact ⟨op, x, f, rfl, Or.inr ⟨hpart, hd⟩⟩
  · rintro ⟨op, operand, f, rfl, ⟨hname, hheal, rfl⟩ | ⟨hpart, rfl⟩⟩
    · rw [ownReports, diagnoseNode, redundantSource?_healedParts.mpr hheal, List.mem_singleton,
        healedParts_call, Expression.operator?, Expression.call?_eq_some_iff.mpr ⟨hname, rfl⟩]
      rfl
    · have hsource : redundantSource? known force (healedParts known force [(op, operand)]) =
          none := by
        rw [Option.eq_none_iff_forall_ne_some]
        intro g hg
        have hheal := redundantSource?_healedParts.mp hg
        rw [heal_part hpart.part] at hheal
        cases hheal
      rw [ownReports, diagnoseNode, hsource]
      exact mem_mismatch_iff.mpr ⟨op, _, f, healedParts_call known force op operand, hpart, rfl⟩

theorem diagnoseEntries_eq_flatMap (es : List (String × Expression)) :
    diagnoseEntries known force index path es =
      es.flatMap fun d => diagnose known force index (joinPath path d.1) d.2 := by
  induction es with
  | nil => rfl
  | cons d es ih => rw [diagnoseEntries, ih, List.flatMap_cons]

theorem diagnoseItems_eq_flatMap (i : Nat) (xs : List Expression) :
    diagnoseItems known force index path i xs =
      (xs.mapIdx fun j x => (indexPath path ((i + j : Nat) : Int), x)).flatMap fun c =>
        diagnose known force index c.1 c.2 := by
  induction xs generalizing i with
  | nil => rfl
  | cons x xs ih =>
    rw [diagnoseItems, ih, List.mapIdx_cons, List.flatMap_cons]
    simp only [Nat.add_zero, Nat.add_assoc, Nat.add_comm 1]

theorem diagnose_eq_flatMap (e : Expression) :
    diagnose known force index path e =
      (e.children path).flatMap (fun c => diagnose known force index c.1 c.2) ++
        ownReports known force index path e := by
  cases e with
  | scalar v => rw [diagnose]; rfl
  | fieldRef f => rw [diagnose]; rfl
  | array xs =>
    rw [diagnose, diagnoseItems_eq_flatMap, ownReports, List.append_nil, Expression.children]
    · simp only [Nat.zero_add]
    · simp
  | keyed es =>
    rw [diagnose, diagnoseEntries_eq_flatMap, ownReports, Expression.children, List.flatMap_map,
      healEntries_eq_map]
    rfl

/-- The reports on a tree, each with the address of its node. -/
structure Located (known : String → Bool) (force : Bool) (index : Nat) (path : String)
    (e : Expression) (rs : List (List Nat × Diagnostic)) : Prop where
  reports : rs.map (·.2) = diagnose known force index path e
  ordered : rs.Pairwise fun r s => PostBefore r.1 s.1
  mem_iff : ∀ address d, (address, d) ∈ rs ↔
    ∃ q x, e.place? path address = some (q, x) ∧ d ∈ ownReports known force index q x

/-- The reports on a node, `own`, after those on the nodes `cs` right below it. -/
structure LocatedBelow (known : String → Bool) (force : Bool) (index : Nat)
    (cs : List (String × Expression)) (own : List Diagnostic) (rs : List (List Nat × Diagnostic)) :
    Prop where
  reports : rs.map (·.2) = cs.flatMap (fun c => diagnose known force index c.1 c.2) ++ own
  ordered : rs.Pairwise fun r s => PostBefore r.1 s.1
  own_iff : ∀ d, ([], d) ∈ rs ↔ d ∈ own
  below_iff : ∀ i address d, (i :: address, d) ∈ rs ↔ ∃ c q x, cs[i]? = some c ∧
    c.2.place? c.1 address = some (q, x) ∧ d ∈ ownReports known force index q x

theorem exists_locatedBelow {cs : List (String × Expression)} {own : List Diagnostic}
    (hown : own.length ≤ 1) (hcs : ∀ c ∈ cs, ∃ rs, Located known force index c.1 c.2 rs) :
    ∃ rs, LocatedBelow known force index cs own rs := by
  have hall : ∀ c, ∃ rs, c ∈ cs → Located known force index c.1 c.2 rs := by
    intro c
    by_cases hc : c ∈ cs
    · obtain ⟨rs, hrs⟩ := hcs c hc
      exact ⟨rs, fun _ => hrs⟩
    · exact ⟨[], fun h => absurd h hc⟩
  choose below hbelow using hall
  refine ⟨addressed below cs ++ own.map fun d => ([], d), ?_, ?_, fun d => ?_, fun i a d => ?_⟩
  · rw [List.map_append, Expression.map_snd_addressed, List.map_map,
      List.flatMap_congr fun c hc => (hbelow c hc).reports]
    exact congrArg _ (List.map_id own)
  · refine List.pairwise_append.mpr ⟨Expression.pairwise_addressed fun c hc =>
      (hbelow c hc).ordered, ?_, ?_⟩
    · match own, hown with
      | [], _ => exact .nil
      | [_], _ => exact List.pairwise_singleton _ _
    · intro r hr s hs
      obtain ⟨d, -, rfl⟩ := List.mem_map.mp hs
      obtain ⟨i, c, a, haddress, -⟩ := mem_addressed_iff.mp hr
      rw [haddress]
      trivial
  · simp [mem_addressed_iff]
  · rw [List.mem_append, mem_addressed_iff]
    constructor
    · rintro (⟨j, c, b, h, hc, hd⟩ | h)
      · cases h
        obtain ⟨q, x, hx, hd⟩ := ((hbelow c (List.mem_of_getElem? hc)).mem_iff a d).mp hd
        exact ⟨c, q, x, hc, hx, hd⟩
      · simp at h
    · rintro ⟨c, q, x, hc, hx, hd⟩
      exact Or.inl ⟨i, c, a, rfl, hc,
        ((hbelow c (List.mem_of_getElem? hc)).mem_iff a d).mpr ⟨q, x, hx, hd⟩⟩

theorem exists_located (path : String) (e : Expression) :
    ∃ rs, Located known force index path e rs := by
  induction e using Expression.children_induction generalizing path with
  | node e ih =>
    obtain ⟨rs, hreports, hordered, hown, hbelow⟩ := exists_locatedBelow
      (length_ownReports_le known force index path e) fun c hc => ih path c hc c.1
    refine ⟨rs, hreports.trans (diagnose_eq_flatMap e).symm, hordered, fun address d => ?_⟩
    cases address with
    | nil =>
      rw [hown]
      constructor
      · intro hd
        exact ⟨path, e, rfl, hd⟩
      · rintro ⟨q, x, hx, hd⟩
        cases hx
        exact hd
    | cons i a =>
      rw [hbelow]
      simp only [place?_cons_eq_some_iff]
      constructor
      · rintro ⟨c, q, x, hc, hx, hd⟩
        exact ⟨q, x, ⟨c, hc, hx⟩, hd⟩
      · rintro ⟨q, x, ⟨c, hc, hx⟩, hd⟩
        exact ⟨c, q, x, hc, hx, hd⟩

/-- No node above an address heals to a reference. -/
def Standing (known : String → Bool) (force : Bool) (path : String) (e : Expression)
    (address : List Nat) : Prop :=
  ∀ above i below q es f, address = above ++ i :: below →
    e.place? path above = some (q, .keyed es) → heal known force (.keyed es) ≠ .fieldRef f

theorem children_healedParts (path : String) (es : List (String × Expression)) :
    (healedParts known force es).children path =
      ((Expression.keyed es).children path).map fun c => (c.1, heal known force c.2) := by
  rw [healedParts, Expression.children, Expression.children, List.map_map, List.map_map]
  rfl

/-- The nodes right below a healed node are the healed nodes, unless it became a reference. -/
theorem children_heal_or (path : String) (e : Expression) :
    (∃ es f, e = .keyed es ∧ heal known force e = .fieldRef f) ∨
      (∀ es f, e = .keyed es → heal known force e ≠ .fieldRef f) ∧
        (heal known force e).children path =
          (e.children path).map fun c => (c.1, heal known force c.2) := by
  cases e with
  | scalar v =>
    rw [heal_scalar]
    exact Or.inr ⟨nofun, rfl⟩
  | fieldRef f =>
    rw [heal_fieldRef]
    exact Or.inr ⟨nofun, rfl⟩
  | array xs =>
    refine Or.inr ⟨nofun, ?_⟩
    rw [heal_array, Expression.children, Expression.children]
    apply List.ext_getElem?
    intro i
    simp [Function.comp_def]
  | keyed es =>
    rw [heal_keyed]
    rcases collapse_eq_or known force (healedParts known force es) with hk | ⟨f, hk, -⟩
    · rw [hk]
      exact Or.inr ⟨nofun, children_healedParts path es⟩
    · exact Or.inl ⟨es, f, rfl, hk⟩

theorem standing_cons_iff {e : Expression} {c : String × Expression} {i : Nat} {a : List Nat}
    (hc : (e.children path)[i]? = some c)
    (he : ∀ es f, e = .keyed es → heal known force e ≠ .fieldRef f) :
    Standing known force path e (i :: a) ↔ Standing known force c.1 c.2 a := by
  constructor
  · intro h above j below q es f ha hx
    refine h (i :: above) j below q es f (congrArg (i :: ·) ha) ?_
    exact place?_cons_eq_some_iff.mpr ⟨c, hc, hx⟩
  · intro h above j below q es f ha hx
    cases above with
    | nil =>
      cases hx
      exact he es f rfl
    | cons k above =>
      obtain ⟨rfl, rfl⟩ := List.cons.inj ha
      obtain ⟨c', hc', hx⟩ := place?_cons_eq_some_iff.mp hx
      cases hc.symm.trans hc'
      exact h above j below q es f rfl hx

theorem place?_cons_of_healed {e e' : Expression} {i : Nat} {a : List Nat} {y : Expression}
    (h : e'.children path = (e.children path).map fun c => (c.1, heal known force c.2)) :
    e'.place? path (i :: a) = some (q, y) ↔
      ∃ c, (e.children path)[i]? = some c ∧
        (heal known force c.2).place? c.1 a = some (q, y) := by
  rw [place?_cons_eq_some_iff, h, List.getElem?_map]
  constructor
  · rintro ⟨c', hc', hy⟩
    obtain ⟨c, hc, rfl⟩ := Option.map_eq_some_iff.mp hc'
    exact ⟨c, hc, hy⟩
  · rintro ⟨c, hc, hy⟩
    exact ⟨_, Option.map_eq_some_iff.mpr ⟨c, hc, rfl⟩, hy⟩

/-- A healed tree has at a place the healed node, as long as no conversion above it gave way. -/
theorem place?_heal_iff {e y : Expression} {address : List Nat} :
    (heal known force e).place? path address = some (q, y) ↔
      (∃ x, e.place? path address = some (q, x) ∧ heal known force x = y) ∧
        Standing known force path e address := by
  induction address generalizing e path with
  | nil =>
    constructor
    · intro h
      cases h
      refine ⟨⟨e, rfl, rfl⟩, ?_⟩
      intro above i below q es f h
      simp at h
    · rintro ⟨⟨x, hx, rfl⟩, -⟩
      cases hx
      rfl
  | cons i a ih =>
    rcases @children_heal_or known force path e with ⟨es, f, rfl, hf⟩ | ⟨hstays, hchildren⟩
    · rw [hf]
      constructor
      · intro h
        cases h
      · rintro ⟨-, hstanding⟩
        exact absurd hf (hstanding [] i a path es f rfl rfl)
    · rw [place?_cons_of_healed hchildren]
      constructor
      · rintro ⟨c, hc, hy⟩
        obtain ⟨⟨x, hx, hheal⟩, hstanding⟩ := ih.mp hy
        exact ⟨⟨x, place?_cons_eq_some_iff.mpr ⟨c, hc, hx⟩, hheal⟩,
          (standing_cons_iff hc hstays).mpr hstanding⟩
      · rintro ⟨⟨x, hx, hheal⟩, hstanding⟩
        obtain ⟨c, hc, hx⟩ := place?_cons_eq_some_iff.mp hx
        exact ⟨c, hc, ih.mpr ⟨⟨x, hx, hheal⟩, (standing_cons_iff hc hstays).mp hstanding⟩⟩

end Inquiry.Dates
