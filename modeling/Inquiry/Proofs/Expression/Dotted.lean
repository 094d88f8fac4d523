import Inquiry.Proofs.Expression.Payload
import Inquiry.Proofs.Expression.Reading

/-!
# Dotted names

An embedded document is one way to write fields whose names begin alike: `{a: {b: x}}` writes what
`{"a.b": x}` writes. `dotted` takes the embedded documents of a spec apart, so that each field stands
under its whole name. A dotted spec reads as the dotted tree, with the same fault if there is one, and
a dotted tree is written as the dotted spec.
-/
namespace Inquiry

/-- A first name that names no operator makes a longer name that names none. -/
theorem isOperatorName_dot {name : String} (h : isOperatorName name = false) (key : String) :
    isOperatorName (name ++ "." ++ key) = false := by
  unfold isOperatorName at h ⊢
  rw [String.toList_append, String.toList_append]
  cases hname : name.toList with
  | nil => rfl
  | cons c cs =>
    rw [hname] at h
    simp only [List.cons_append]
    split
    · rename_i hc
      cases hc
      cases h
    · rfl

/-- Below `path`, the names that begin with `namePrefix` stand where their last parts stand below
`place`. -/
structure Leads (path place namePrefix : String) : Prop where
  join : ∀ key, joinPath path (namePrefix ++ key) = joinPath place key
  field : ∀ key, isOperatorName key = false → isOperatorName (namePrefix ++ key) = false

namespace Leads

variable {path place namePrefix key : String}

theorem refl (path : String) : Leads path path "" where
  join key := by rw [String.empty_append]
  field key h := by rwa [String.empty_append]

theorem down (h : Leads path place namePrefix) (hpath : path ≠ "")
    (hkey : isOperatorName key = false) :
    Leads path (joinPath place key) (namePrefix ++ key ++ ".") where
  join k := by
    have hjoin (name : String) : joinPath path name = path ++ ("." ++ name) := by
      have happend := Expression.joinPath_append hpath "" name
      rwa [String.append_empty, String.empty_append] at happend
    rw [← h.join, hjoin, hjoin, Expression.joinPath_append hpath]
    simp only [String.append_assoc]
  field k _ := isOperatorName_dot (h.field key hkey) k

end Leads

namespace Value

/-- Whether a key can be the name of a field: a text that names no operator. -/
def isFieldName : Value → Bool
  | .str key => !isOperatorName key
  | _ => false

/-- Whether the entries make an embedded document: there are some, and all of them are fields. -/
def isEmbedded (es : List (Value × Value)) : Bool :=
  !es.isEmpty && es.all fun d => isFieldName d.1

mutual

/-- The dotted fields that a field stands for. -/
def dottedField (name : String) : Value → List (Value × Value)
  | .dict es => if isEmbedded es then dottedFields (name ++ ".") es else [(.str name, .dict es)]
  | v => [(.str name, v)]

/-- The same for the fields of a document whose own name and a dot are `namePrefix`. -/
def dottedFields (namePrefix : String) : List (Value × Value) → List (Value × Value)
  | [] => []
  | (.str key, v) :: es => dottedField (namePrefix ++ key) v ++ dottedFields namePrefix es
  | d :: es => d :: dottedFields namePrefix es

end

/-- The spec without embedded documents. -/
def dotted : Value → Value
  | .dict es => .dict (if isEmbedded es then dottedFields "" es else es)
  | v => v

example :
    dotted (.doc [("a", .doc [("b", .doc [("c", .str "$f"), ("d", .int 1)]),
        ("e", .doc [("$toDate", .str "$f")])]), ("g", .doc [])]) =
      .doc [("a.b.c", .str "$f"), ("a.b.d", .int 1), ("a.e", .doc [("$toDate", .str "$f")]),
        ("g", .doc [])] := rfl

end Value

namespace Expression

/-- The same of a tree. -/
def isEmbedded (es : List (String × Expression)) : Bool :=
  !es.isEmpty && es.all fun d => !isOperatorName d.1

mutual

def dottedField (name : String) : Expression → List (String × Expression)
  | .keyed es => if isEmbedded es then dottedFields (name ++ ".") es else [(name, .keyed es)]
  | e => [(name, e)]

def dottedFields (namePrefix : String) : List (String × Expression) → List (String × Expression)
  | [] => []
  | (key, e) :: es => dottedField (namePrefix ++ key) e ++ dottedFields namePrefix es

end

def dotted : Expression → Expression
  | .keyed es => .keyed (if isEmbedded es then dottedFields "" es else es)
  | e => e

variable {es : List (String × Expression)}

theorem dottedFields_eq_flatMap (namePrefix : String) (es : List (String × Expression)) :
    dottedFields namePrefix es = es.flatMap fun d => dottedField (namePrefix ++ d.1) d.2 := by
  induction es with
  | nil => rfl
  | cons d es ih => rw [dottedFields, ih, List.flatMap_cons]

theorem dottedField_embedded (h : isEmbedded es = true) (name : String) :
    dottedField name (.keyed es) = dottedFields (name ++ ".") es := by
  rw [dottedField, if_pos h]

theorem dottedField_keyed (h : isEmbedded es = false) (name : String) :
    dottedField name (.keyed es) = [(name, .keyed es)] := by
  rw [dottedField, h]
  rfl

theorem field_of_isEmbedded (h : isEmbedded es = true) {d : String × Expression} (hd : d ∈ es) :
    isOperatorName d.1 = false := by
  unfold isEmbedded at h
  simp only [Bool.and_eq_true, List.all_eq_true, Bool.not_eq_true'] at h
  exact h.2 d hd

/-- What is no embedded document is one field, under its own name. -/
theorem dottedField_other {e : Expression} (h : ∀ es, e = .keyed es → isEmbedded es = false)
    (name : String) : dottedField name e = [(name, e)] := by
  cases e with
  | keyed es => exact dottedField_keyed (h es rfl) name
  | _ => rfl

theorem dotted_other {e : Expression} (h : ∀ es, e = .keyed es → isEmbedded es = false) :
    e.dotted = e := by
  cases e with
  | keyed es => rw [dotted, h es rfl]; rfl
  | _ => rfl

/-- A spec is walked by its embedded documents alone: whatever else stands in it is one field. -/
theorem embedded_induction {motive : Expression → Prop}
    (other : ∀ e, (∀ es, e = .keyed es → isEmbedded es = false) → motive e)
    (document : ∀ es, isEmbedded es = true → (∀ d ∈ es, motive d.2) → motive (.keyed es))
    (e : Expression) : motive e := by
  induction e with
  | keyed es ih =>
    cases hes : isEmbedded es with
    | true => exact document es hes ih
    | false =>
      refine other _ fun fs h => ?_
      cases h
      exact hes
  | _ => exact other _ fun _ h => nomatch h

/-- Only the keys tell an embedded document. -/
theorem isEmbedded_map (g : Expression → Expression) (es : List (String × Expression)) :
    isEmbedded (es.map fun d => (d.1, g d.2)) = isEmbedded es := by
  unfold isEmbedded
  rw [List.isEmpty_map, List.all_map]
  rfl

theorem isEmbedded_of_ofEntries {path : String} {es : List (Value × Value)}
    {ds : List (String × Expression)} (h : ofEntries path es = .ok ds) :
    isEmbedded ds = Value.isEmbedded es := by
  have hkeys := keys_of_ofEntries h
  have hempty : ds.isEmpty = es.isEmpty := by
    rw [← List.isEmpty_map (f := fun d : String × Expression => Value.str d.1), ← hkeys,
      List.isEmpty_map]
  have hall : (es.map (·.1)).all Value.isFieldName = es.all fun d => Value.isFieldName d.1 :=
    List.all_map
  unfold isEmbedded Value.isEmbedded
  rw [hempty, ← hall, hkeys, List.all_map]
  rfl

theorem ofEntries_append (path : String) (es fs : List (Value × Value)) :
    ofEntries path (es ++ fs) =
      (ofEntries path es).bind fun ds => (ofEntries path fs).map (ds ++ ·) := by
  induction es with
  | nil =>
    show ofEntries path fs = (ofEntries path fs).map id
    cases ofEntries path fs <;> rfl
  | cons d es ih =>
    obtain ⟨key, v⟩ := d
    cases key with
    | str key =>
      rw [List.cons_append, ofEntries, ofEntries, ih]
      have hcons (e : Expression) :
          ((ofEntries path es).bind fun ds => (ofEntries path fs).map (ds ++ ·)).map ((key, e) :: ·) =
            ((ofEntries path es).map ((key, e) :: ·)).bind
              fun ds => (ofEntries path fs).map (ds ++ ·) := by
        cases ofEntries path es with
        | error m => rfl
        | ok ds => cases ofEntries path fs <;> rfl
      split
      · exact hcons _
      · cases ofValue (joinPath path key) v with
        | error m => rfl
        | ok e => exact hcons e
    | _ => rfl

theorem ofEntries_single {key : String} (hkey : isOperatorName key = false) (path : String)
    (v : Value) :
    ofEntries path [(.str key, v)] = (ofValue (joinPath path key) v).map fun e => [(key, e)] := by
  have hne : key ≠ "$literal" := by
    rintro rfl
    cases hkey
  rw [ofEntries, if_neg hne]
  cases ofValue (joinPath path key) v <;> rfl

/-- What is no embedded document stands under its whole name. -/
theorem ofEntries_dottedField_other {path place namePrefix key : String}
    (h : Leads path place namePrefix) (hkey : isOperatorName key = false) {v : Value}
    (hv : Value.dottedField (namePrefix ++ key) v = [(.str (namePrefix ++ key), v)])
    (he : ∀ e, ofValue (joinPath place key) v = .ok e →
      dottedField (namePrefix ++ key) e = [(namePrefix ++ key, e)]) :
    ofEntries path (Value.dottedField (namePrefix ++ key) v) =
      (ofValue (joinPath place key) v).map (dottedField (namePrefix ++ key)) := by
  rw [hv, ofEntries_single (h.field key hkey), h.join]
  cases hread : ofValue (joinPath place key) v with
  | error m => rfl
  | ok e => exact congrArg Except.ok (he e hread).symm

mutual

theorem ofEntries_dottedField {path place namePrefix key : String}
    (h : Leads path place namePrefix) (hpath : path ≠ "") (hkey : isOperatorName key = false) :
    ∀ v, ofEntries path (Value.dottedField (namePrefix ++ key) v) =
      (ofValue (joinPath place key) v).map (dottedField (namePrefix ++ key))
  | .dict es => by
    cases hes : Value.isEmbedded es with
    | true =>
      rw [Value.dottedField, if_pos hes, ofEntries_dottedFields (h.down hpath hkey) hpath es
        (Bool.and_eq_true_iff.mp hes).2, ofValue]
      cases hread : ofEntries (joinPath place key) es with
      | error m => rfl
      | ok ds =>
        have hds : isEmbedded ds = true := (isEmbedded_of_ofEntries hread).trans hes
        exact congrArg Except.ok (dottedField_embedded hds _).symm
    | false =>
      refine ofEntries_dottedField_other h hkey (by rw [Value.dottedField, hes]; rfl) fun e he => ?_
      obtain ⟨ds, hds, rfl⟩ := ok_of_map_ok he
      exact dottedField_keyed ((isEmbedded_of_ofEntries hds).trans hes) _
  | .list xs | .tuple xs => by
    refine ofEntries_dottedField_other h hkey rfl fun e he => ?_
    obtain ⟨es, -, rfl⟩ := ok_of_map_ok he
    rfl
  | .str s => by
    refine ofEntries_dottedField_other h hkey rfl fun e he => ?_
    cases he
    unfold ofText
    split <;> rfl
  | .null | .bool _ | .int _ | .int64 _ | .float _ | .moment _ | .day _ => by
    refine ofEntries_dottedField_other h hkey rfl fun e he => ?_
    cases he
    rfl
  | .objectId _ | .decimal128 _ | .decimal _ | .bytes _ | .duration _ | .set _ =>
    ofEntries_dottedField_other h hkey rfl fun _ he => nomatch he

theorem ofEntries_dottedFields {path place namePrefix : String}
    (h : Leads path place namePrefix) (hpath : path ≠ "") :
    ∀ es, (es.all fun d => Value.isFieldName d.1) = true →
      ofEntries path (Value.dottedFields namePrefix es) =
        (ofEntries place es).map (dottedFields namePrefix)
  | [], _ => rfl
  | (.str key, v) :: es, hes => by
    obtain ⟨hkey, hes⟩ := Bool.and_eq_true_iff.mp hes
    have hkey : isOperatorName key = false := by simpa [Value.isFieldName] using hkey
    have hne : key ≠ "$literal" := by
      rintro rfl
      cases hkey
    rw [Value.dottedFields, ofEntries_append, ofEntries_dottedField h hpath hkey v,
      ofEntries_dottedFields h hpath es hes, ofEntries, if_neg hne]
    cases ofValue (joinPath place key) v with
    | error m => rfl
    | ok e => cases ofEntries place es <;> rfl
  | (.null, _) :: _, hes | (.bool _, _) :: _, hes | (.int _, _) :: _, hes
  | (.int64 _, _) :: _, hes | (.float _, _) :: _, hes | (.moment _, _) :: _, hes
  | (.day _, _) :: _, hes | (.objectId _, _) :: _, hes | (.decimal128 _, _) :: _, hes
  | (.decimal _, _) :: _, hes | (.bytes _, _) :: _, hes | (.duration _, _) :: _, hes
  | (.list _, _) :: _, hes | (.tuple _, _) :: _, hes | (.set _, _) :: _, hes
  | (.dict _, _) :: _, hes => nomatch hes

end

/-- A dotted spec reads as the dotted tree. -/
theorem ofValue_dotted {path : String} (hpath : path ≠ "") (v : Value) :
    ofValue path v.dotted = (ofValue path v).map dotted := by
  cases v with
  | dict es =>
    show (ofEntries path (if Value.isEmbedded es then Value.dottedFields "" es else es)).map keyed =
      ((ofEntries path es).map keyed).map dotted
    have hfields : ofEntries path (if Value.isEmbedded es then Value.dottedFields "" es else es) =
        (ofEntries path es).map fun ds =>
          if Value.isEmbedded es then dottedFields "" ds else ds := by
      cases hes : Value.isEmbedded es with
      | true => exact ofEntries_dottedFields (.refl path) hpath es (Bool.and_eq_true_iff.mp hes).2
      | false =>
        simp only [Bool.false_eq_true, if_false]
        cases ofEntries path es <;> rfl
    rw [hfields]
    cases hread : ofEntries path es with
    | error m => rfl
    | ok ds =>
      have hds : dotted (.keyed ds) =
          .keyed (if Value.isEmbedded es then dottedFields "" ds else ds) := by
        rw [dotted, isEmbedded_of_ofEntries hread]
      exact congrArg Except.ok hds.symm
  | list xs | tuple xs =>
    show (ofItems path 0 xs).map array = ((ofItems path 0 xs).map array).map dotted
    cases ofItems path 0 xs <;> rfl
  | str s =>
    show Except.ok (ofText s) = .ok (dotted (ofText s))
    unfold ofText
    split <;> rfl
  | _ => rfl

theorem isEmbedded_toEntries (es : List (String × Expression)) :
    Value.isEmbedded (toEntries es) = isEmbedded es := by
  unfold isEmbedded Value.isEmbedded
  rw [toEntries_eq_map, List.isEmpty_map, List.all_map]
  rfl

theorem toEntries_append (es fs : List (String × Expression)) :
    toEntries (es ++ fs) = toEntries es ++ toEntries fs := by
  rw [toEntries_eq_map, toEntries_eq_map, toEntries_eq_map, List.map_append]

theorem toEntries_dottedFields {es : List (String × Expression)} {namePrefix : String}
    (h : ∀ d ∈ es, ∀ name, toEntries (dottedField name d.2) = Value.dottedField name d.2.toValue) :
    toEntries (dottedFields namePrefix es) = Value.dottedFields namePrefix (toEntries es) := by
  induction es with
  | nil => rfl
  | cons d es ih =>
    obtain ⟨hd, hes⟩ := List.forall_mem_cons.mp h
    rw [dottedFields, toEntries_append, hd, ih hes, toEntries, Value.dottedFields]

/-- A field of an embedded document is no payload. -/
theorem Canonical.field {es : List (String × Expression)} (hc : Canonical (.keyed es))
    (h : isEmbedded es = true) {d : String × Expression} (hd : d ∈ es) : Canonical d.2 := by
  refine hc.entry hd fun hkey => ?_
  have hfield := field_of_isEmbedded h hd
  rw [hkey] at hfield
  cases hfield

theorem toEntries_dottedField {e : Expression} (hc : Canonical e) (name : String) :
    toEntries (dottedField name e) = Value.dottedField name e.toValue := by
  induction e generalizing name with
  | scalar v =>
    cases hc with
    | scalar leaf plain =>
      cases v with
      | dict es => cases leaf
      | _ => rfl
  | fieldRef path => rfl
  | array xs ih => rfl
  | keyed es ih =>
    have hes := isEmbedded_toEntries es
    cases hembedded : isEmbedded es with
    | true =>
      rw [dottedField_embedded hembedded, toValue, Value.dottedField, hes, if_pos hembedded]
      exact toEntries_dottedFields fun d hd name => ih d hd (hc.field hembedded hd) name
    | false =>
      rw [dottedField_keyed hembedded, toValue, Value.dottedField, hes, hembedded]
      rfl

/-- A dotted tree is written as the dotted spec. -/
theorem toValue_dotted {e : Expression} (hc : Canonical e) : e.dotted.toValue = e.toValue.dotted := by
  cases e with
  | scalar v =>
    cases hc with
    | scalar leaf plain =>
      cases v with
      | dict es => cases leaf
      | _ => rfl
  | fieldRef path => rfl
  | array xs => rfl
  | keyed es =>
    rw [dotted, toValue, toValue, Value.dotted, isEmbedded_toEntries]
    cases hembedded : isEmbedded es with
    | true =>
      rw [if_pos rfl, if_pos rfl,
        toEntries_dottedFields fun d hd name => toEntries_dottedField (hc.field hembedded hd) name]
    | false => rfl

end Expression

/-- The stages that define fields by the entries of their spec. -/
def takesFields (operator : String) : Bool :=
  operator = "$addFields" || operator = "$set" || operator = "$project"

/-- A stage with its spec dotted, if it is one that defines fields by it. -/
def Value.dottedStage : Value → Value
  | .dict [(.str op, spec)] => .dict [(.str op, if takesFields op then spec.dotted else spec)]
  | v => v

namespace Stage

def dotted (s : Stage) : Stage :=
  ⟨s.operator, if takesFields s.operator then s.spec.dotted else s.spec⟩

theorem ne_literal_of_takesFields {op : String} (h : takesFields op = true) : op ≠ "$literal" := by
  rintro rfl
  cases h

theorem ofValue_dottedStage (index : Int) (v : Value) :
    ofValue index v.dottedStage = (ofValue index v).map dotted := by
  unfold Value.dottedStage
  split
  · rename_i op spec
    cases hop : takesFields op with
    | true =>
      have hpath : joinPath (indexPath "" index) op ≠ "" :=
        Expression.joinPath_ne_empty (Expression.indexPath_ne_empty "" index) op
      simp only [ofValue, if_true, ne_literal_of_takesFields hop, if_false,
        Expression.ofValue_dotted hpath]
      split
      · cases Expression.ofValue (joinPath (indexPath "" index) op) spec with
        | error m => rfl
        | ok e => simp [Except.map, dotted, hop]
      · rfl
    | false =>
      have hself (spec : Expression) : dotted ⟨op, spec⟩ = ⟨op, spec⟩ := by
        simp [dotted, hop]
      simp only [ofValue, Bool.false_eq_true, if_false]
      split
      · split
        · exact congrArg Except.ok (hself _).symm
        · cases Expression.ofValue (joinPath (indexPath "" index) op) spec with
          | error m => rfl
          | ok e => exact congrArg Except.ok (hself e).symm
      · rfl
  · rename_i hne
    cases hread : ofValue index v with
    | error m => rfl
    | ok s =>
      obtain ⟨spec, rfl, -⟩ := operator_of_ofValue hread
      exact absurd rfl (hne s.operator spec)

theorem toValue_dotted {s : Stage} (hc : Expression.Canonical s.toExpression) :
    s.dotted.toValue = s.toValue.dottedStage := by
  obtain ⟨op, spec⟩ := s
  show Value.dict [(.str op, (if takesFields op then spec.dotted else spec).toValue)] =
    .dict [(.str op, if takesFields op then spec.toValue.dotted else spec.toValue)]
  cases hop : takesFields op with
  | true =>
    have hspec : Expression.Canonical spec :=
      hc.entry List.mem_cons_self (ne_literal_of_takesFields hop)
    rw [if_pos rfl, if_pos rfl, Expression.toValue_dotted hspec]
  | false => rfl

end Stage

end Inquiry
