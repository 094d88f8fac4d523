import Inquiry.Proofs.Expression.Payload

/-!
# Numbers in another spelling

A whole number can be written as an integer or as the double that equals it. `respell` puts another
spelling in the place of the numbers of a value, wherever they stand in it; the keys of mappings stay.
A respelled value is read as the tree with its scalars respelled, and is what that tree is written as.
-/
namespace Inquiry

namespace Value

/-- The literals that are numbers. -/
def isNumeral : Value → Bool
  | .int _ => true
  | .int64 _ => true
  | .float _ => true
  | _ => false

/-- A change of values that does nothing but write some whole numbers in another type of number. -/
def Respells (g : Value → Value) : Prop :=
  ∀ v, g v = v ∨ v.isNumeral = true ∧ (g v).isNumeral = true ∧
    ∃ n, v.wholeNumber? = some n ∧ (g v).wholeNumber? = some n

/-- Every whole double as an integer, and every integer in the one type. -/
def integral (v : Value) : Value :=
  if v.isNumeral then (v.wholeNumber?.map .int).getD v else v

theorem respells_integral : Respells integral := by
  intro v
  unfold integral
  cases hv : v.isNumeral with
  | false => exact Or.inl rfl
  | true =>
    cases hn : v.wholeNumber? with
    | none => exact Or.inl rfl
    | some n => exact Or.inr ⟨rfl, rfl, n, rfl, rfl⟩

mutual

/-- The value with `g` applied to everything in it that is no sequence and no mapping. -/
def respell (g : Value → Value) : Value → Value
  | .list xs => .list (respellItems g xs)
  | .tuple xs => .tuple (respellItems g xs)
  | .dict es => .dict (respellEntries g es)
  | v => g v

def respellItems (g : Value → Value) : List Value → List Value
  | [] => []
  | v :: vs => respell g v :: respellItems g vs

def respellEntries (g : Value → Value) : List (Value × Value) → List (Value × Value)
  | [] => []
  | (key, v) :: es => (key, respell g v) :: respellEntries g es

end

theorem respellItems_eq_map (g : Value → Value) (vs : List Value) :
    respellItems g vs = vs.map (respell g) := by
  induction vs with
  | nil => rfl
  | cons v vs ih => rw [respellItems, ih, List.map_cons]

theorem respellEntries_eq_map (g : Value → Value) (es : List (Value × Value)) :
    respellEntries g es = es.map fun d => (d.1, respell g d.2) := by
  induction es with
  | nil => rfl
  | cons d es ih => rw [respellEntries, ih, List.map_cons]

namespace Respells

variable {g : Value → Value} (hg : Respells g)
include hg

theorem eq_self {v : Value} (h : v.isNumeral = false) : g v = v := by
  rcases hg v with heq | ⟨hnumber, -⟩
  · exact heq
  · rw [h] at hnumber
    cases hnumber

theorem isNumeral_eq (v : Value) : (g v).isNumeral = v.isNumeral := by
  rcases hg v with heq | ⟨hv, hgv, -⟩
  · rw [heq]
  · rw [hv, hgv]

theorem wholeNumber?_eq (v : Value) : (g v).wholeNumber? = v.wholeNumber? := by
  rcases hg v with heq | ⟨-, -, n, hv, hgv⟩
  · rw [heq]
  · rw [hv, hgv]

end Respells

theorem respell_number (g : Value → Value) {v : Value} (h : v.isNumeral = true) :
    respell g v = g v := by
  cases v with
  | int | int64 | float => rfl
  | _ => cases h

/-- A double is spelled as the integer that equals it. -/
theorem respell_integral_double {x : Float} {n : Int} (h : (Value.float x).wholeNumber? = some n) :
    respell integral (.float x) = .int n := by
  rw [respell_number integral rfl, integral, h]
  rfl

theorem isDict_of_isNumeral {v : Value} (h : v.isNumeral = true) : v.isDict = false := by
  cases v with
  | dict es => cases h
  | _ => rfl

section

variable {g : Value → Value} (hg : Respells g)
include hg

theorem isNumeral_respell (v : Value) : (respell g v).isNumeral = v.isNumeral := by
  cases v with
  | list | tuple | dict => rfl
  | _ => exact hg.isNumeral_eq _

theorem wholeNumber?_respell (v : Value) : (respell g v).wholeNumber? = v.wholeNumber? := by
  cases v with
  | list | tuple | dict => rfl
  | _ => exact hg.wholeNumber?_eq _

theorem isDict_respell (v : Value) : (respell g v).isDict = v.isDict := by
  cases hv : v.isNumeral with
  | true =>
    rw [isDict_of_isNumeral hv, isDict_of_isNumeral ((isNumeral_respell hg v).trans hv)]
  | false =>
    cases v with
    | list | tuple | dict => rfl
    | int | int64 | float => cases hv
    | _ => exact congrArg isDict (hg.eq_self rfl)

end

end Value

namespace Expression

variable {f g : Value → Value}

mutual

/-- The tree with its scalars changed. -/
def mapScalars (f : Value → Value) : Expression → Expression
  | .scalar v => .scalar (f v)
  | .fieldRef path => .fieldRef path
  | .keyed es => .keyed (mapScalarsOfEntries f es)
  | .array xs => .array (mapScalarsOfItems f xs)

def mapScalarsOfItems (f : Value → Value) : List Expression → List Expression
  | [] => []
  | e :: es => mapScalars f e :: mapScalarsOfItems f es

def mapScalarsOfEntries (f : Value → Value) :
    List (String × Expression) → List (String × Expression)
  | [] => []
  | (key, e) :: es => (key, mapScalars f e) :: mapScalarsOfEntries f es

end

@[simp] theorem mapScalars_scalar (v : Value) : mapScalars f (.scalar v) = .scalar (f v) := by
  rw [mapScalars]

@[simp] theorem mapScalars_fieldRef (path : String) :
    mapScalars f (.fieldRef path) = .fieldRef path := by
  rw [mapScalars]

@[simp] theorem mapScalars_keyed (es : List (String × Expression)) :
    mapScalars f (.keyed es) = .keyed (es.map fun d => (d.1, mapScalars f d.2)) := by
  rw [mapScalars]
  congr 1
  induction es with
  | nil => rfl
  | cons d es ih => rw [mapScalarsOfEntries, ih, List.map_cons]

@[simp] theorem mapScalars_array (xs : List Expression) :
    mapScalars f (.array xs) = .array (xs.map (mapScalars f)) := by
  rw [mapScalars]
  congr 1
  induction xs with
  | nil => rfl
  | cons x xs ih => rw [mapScalarsOfItems, ih, List.map_cons]

open Value (Respells respell respellEntries respellItems)

theorem ofText_respell (hg : Respells g) (s : String) :
    mapScalars (respell g) (ofText s) = ofText s := by
  unfold ofText
  split
  · exact mapScalars_fieldRef _
  · rw [mapScalars_scalar]
    exact congrArg Expression.scalar (hg.eq_self rfl)

theorem ofValue_number {v : Value} (h : v.isNumeral = true) (path : String) :
    ofValue path v = .ok (.scalar v) := by
  cases v with
  | int | int64 | float => rfl
  | _ => cases h

theorem ofValue_respell_number (hg : Respells g) {v : Value} (h : v.isNumeral = true)
    (path : String) :
    ofValue path (respell g v) = (ofValue path v).map (mapScalars (respell g)) := by
  rw [ofValue_number ((Value.isNumeral_respell hg v).trans h), ofValue_number h]
  exact congrArg Except.ok (mapScalars_scalar v).symm

mutual

theorem ofValue_respell (hg : Respells g) : ∀ (path : String) (v : Value),
    ofValue path (respell g v) = (ofValue path v).map (mapScalars (respell g))
  | path, .dict es => by
    rw [respell, ofValue, ofValue, ofEntries_respell hg path es]
    cases ofEntries path es with
    | error m => rfl
    | ok ds => exact congrArg Except.ok (mapScalars_keyed ds).symm
  | path, .list xs | path, .tuple xs => by
    rw [respell, ofValue, ofValue, ofItems_respell hg path 0 xs]
    cases ofItems path 0 xs with
    | error m => rfl
    | ok es => exact congrArg Except.ok (mapScalars_array es).symm
  | path, .int _ | path, .int64 _ | path, .float _ => ofValue_respell_number hg rfl path
  | path, .str s => by
    show ofValue path (g (.str s)) = .ok (mapScalars (respell g) (ofText s))
    rw [hg.eq_self rfl, ofText_respell hg]
    rfl
  | path, .null | path, .bool _ | path, .moment _ | path, .day _ => by
    show ofValue path (g _) = .ok (mapScalars (respell g) (.scalar _))
    rw [hg.eq_self rfl, mapScalars_scalar]
    exact congrArg (fun v => Except.ok (Expression.scalar v)) (hg.eq_self rfl).symm
  | path, .objectId _ | path, .decimal128 _ | path, .decimal _ | path, .bytes _
  | path, .duration _ | path, .set _ => congrArg (ofValue path) (hg.eq_self rfl)

theorem ofItems_respell (hg : Respells g) : ∀ (path : String) (i : Nat) (vs : List Value),
    ofItems path i (respellItems g vs) = (ofItems path i vs).map (·.map (mapScalars (respell g)))
  | path, i, [] => rfl
  | path, i, v :: vs => by
    rw [respellItems, ofItems, ofItems, ofValue_respell hg (indexPath path i) v,
      ofItems_respell hg path (i + 1) vs]
    cases ofValue (indexPath path i) v with
    | error m => rfl
    | ok e => cases ofItems path (i + 1) vs <;> rfl

theorem ofEntries_respell (hg : Respells g) : ∀ (path : String) (es : List (Value × Value)),
    ofEntries path (respellEntries g es) =
      (ofEntries path es).map (·.map fun d => (d.1, mapScalars (respell g) d.2))
  | path, [] => rfl
  | path, (.str key, v) :: es => by
    rw [respellEntries, ofEntries, ofEntries, ofEntries_respell hg path es,
      ofValue_respell hg (joinPath path key) v]
    split
    · cases ofEntries path es with
      | error m => rfl
      | ok ds =>
        exact congrArg (fun e => Except.ok ((key, e) :: _)) (mapScalars_scalar v).symm
    · cases ofValue (joinPath path key) v with
      | error m => rfl
      | ok e => cases ofEntries path es <;> rfl
  | path, (.null, _) :: _ | path, (.bool _, _) :: _ | path, (.int _, _) :: _
  | path, (.int64 _, _) :: _ | path, (.float _, _) :: _ | path, (.moment _, _) :: _
  | path, (.day _, _) :: _ | path, (.objectId _, _) :: _ | path, (.decimal128 _, _) :: _
  | path, (.decimal _, _) :: _ | path, (.bytes _, _) :: _ | path, (.duration _, _) :: _
  | path, (.list _, _) :: _ | path, (.tuple _, _) :: _ | path, (.set _, _) :: _
  | path, (.dict _, _) :: _ => rfl

end

theorem toValue_mapScalars (hg : Respells g) (e : Expression) :
    (mapScalars (respell g) e).toValue = respell g e.toValue := by
  induction e with
  | scalar v => rw [mapScalars_scalar, toValue, toValue]
  | fieldRef path =>
    rw [mapScalars_fieldRef, toValue]
    exact (hg.eq_self rfl).symm
  | keyed es ih =>
    rw [mapScalars_keyed, toValue, toValue, respell, toEntries_eq_map, toEntries_eq_map,
      Value.respellEntries_eq_map, List.map_map, List.map_map]
    congr 1
    apply List.map_congr_left
    intro d hd
    exact congrArg (Prod.mk (Value.str d.1)) (ih d hd)
  | array xs ih =>
    rw [mapScalars_array, toValue, toValue, respell, toItems_eq_map, toItems_eq_map,
      Value.respellItems_eq_map, List.map_map, List.map_map]
    congr 1
    exact List.map_congr_left ih

end Expression

namespace Stage

open Value (Respells respell)

variable {g : Value → Value}

/-- The stage with the scalars of its spec changed. -/
def mapScalars (f : Value → Value) (s : Stage) : Stage := ⟨s.operator, s.spec.mapScalars f⟩

theorem toValue_mapScalars (hg : Respells g) (s : Stage) :
    (s.mapScalars (respell g)).toValue = respell g s.toValue := by
  show Value.dict [(.str s.operator, (s.spec.mapScalars (respell g)).toValue)] =
    .dict [(.str s.operator, respell g s.spec.toValue)]
  rw [Expression.toValue_mapScalars hg]

theorem ofValue_respell (hg : Respells g) (index : Int) {v : Value} (hv : v.isDict = true) :
    ofValue index (respell g v) = (ofValue index v).map (mapScalars (respell g)) := by
  cases v with
  | dict es =>
    rw [respell, Value.respellEntries_eq_map]
    match es with
    | [] => rfl
    | [(key, spec)] =>
      cases key with
      | str op =>
        show ofValue index (.dict [(.str op, respell g spec)]) = _
        rw [ofValue, ofValue, Expression.ofValue_respell hg]
        split
        · split
          · exact congrArg (fun e => Except.ok (Stage.mk op e)) (Expression.mapScalars_scalar _).symm
          · cases Expression.ofValue (joinPath (indexPath "" index) op) spec <;> rfl
        · rfl
      | _ => rfl
    | d :: c :: es =>
      show Except.error (Malformed.operatorCount index (List.map Prod.fst (_ :: _ :: _))) =
        .error (.operatorCount index (List.map Prod.fst (d :: c :: es)))
      simp
  | _ => cases hv

theorem ofValue_of_not_dict (index : Int) {v : Value} (hv : v.isDict = false) :
    ofValue index v = .error (.notStage index v.typeName) := by
  cases v with
  | dict es => cases hv
  | _ => rfl

end Stage

end Inquiry
