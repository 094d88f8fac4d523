import Mathlib.Data.List.Forall2
import Inquiry.Proofs.Value.Documents
import Inquiry.Proofs.Value.Entries

/-!
# Rows in plain values

Every document that a store can hold is made plain: at every depth nothing but values of JSON is left,
in the shape of the document. A plain value is left as it is.
-/
namespace Inquiry.Rows

open Value (TextKeys)

variable {v w : Value} {vs ws : List Value} {es fs : List (Value × Value)}

/-- Leaves that JSON has. An integer stored in 64 bits is an integer as well. -/
inductive IsLeaf : Value → Prop
  | null : IsLeaf .null
  | bool (b : Bool) : IsLeaf (.bool b)
  | int (n : Int) : IsLeaf (.int n)
  | int64 (n : Int) : IsLeaf (.int64 n)
  | float (x : Float) : IsLeaf (.float x)
  | str (s : String) : IsLeaf (.str s)

/-- Leaves that are told as a text. -/
inductive IsTold : Value → Prop
  | objectId (hex : String) : IsTold (.objectId hex)
  | moment (m : Moment) : IsTold (.moment m)
  | day (d : Day) : IsTold (.day d)
  | duration (d : Duration) : IsTold (.duration d)
  | bytes (bs : List UInt8) : IsTold (.bytes bs)

/-- A "no number" that refuses to be converted. -/
def IsSignaling (d : Decimal.BaseTen) : Prop :=
  ∃ negative payload, d = .notANumber negative true payload

/-- Base-ten numbers, in either format, that a double stands for. -/
inductive IsRounded : Value → Prop
  | decimal128 {d : Decimal.BaseTen} (h : ¬ IsSignaling d) : IsRounded (.decimal128 d)
  | decimal {d : Decimal.BaseTen} (h : ¬ IsSignaling d) : IsRounded (.decimal d)

/-- What a document of the store is made of. -/
inductive IsStored : Value → Prop
  | leaf {v : Value} (h : IsLeaf v) : IsStored v
  | told {v : Value} (h : IsTold v) : IsStored v
  | rounded {v : Value} (h : IsRounded v) : IsStored v
  | list {vs : List Value} (items : ∀ v ∈ vs, IsStored v) : IsStored (.list vs)
  | tuple {vs : List Value} (items : ∀ v ∈ vs, IsStored v) : IsStored (.tuple vs)
  | dict {es : List (Value × Value)} (keys : TextKeys es) (members : ∀ e ∈ es, IsStored e.2) :
    IsStored (.dict es)

/-- What a row is made of. -/
inductive IsPlain : Value → Prop
  | leaf {v : Value} (h : IsLeaf v) : IsPlain v
  | list {vs : List Value} (items : ∀ v ∈ vs, IsPlain v) : IsPlain (.list vs)
  | dict {es : List (Value × Value)} (keys : TextKeys es) (members : ∀ e ∈ es, IsPlain e.2) :
    IsPlain (.dict es)

/-- The second value has the shape of the first one: the same keys in the same order, as many items,
and the same leaves where JSON has them. -/
inductive SameShape : Value → Value → Prop
  | leaf {v : Value} (h : IsLeaf v) : SameShape v v
  | told {v : Value} (h : IsTold v) (s : String) : SameShape v (.str s)
  | rounded {v : Value} (h : IsRounded v) (x : Float) : SameShape v (.float x)
  | list {vs ws : List Value} (items : List.Forall₂ SameShape vs ws) :
    SameShape (.list vs) (.list ws)
  | tuple {vs ws : List Value} (items : List.Forall₂ SameShape vs ws) :
    SameShape (.tuple vs) (.list ws)
  | dict {es fs : List (Value × Value)} (keys : es.map Prod.fst = fs.map Prod.fst)
    (members : List.Forall₂ SameShape (es.map Prod.snd) (fs.map Prod.snd)) :
    SameShape (.dict es) (.dict fs)

theorem plain_leaf (h : IsLeaf v) : plain v = .ok v := by
  cases h <;> rfl

theorem plain_told (h : IsTold v) : ∃ s, plain v = .ok (.str s) := by
  cases h <;> exact ⟨_, rfl⟩

theorem decimalFloat_ok {d : Decimal.BaseTen} (h : ¬ IsSignaling d) :
    ∃ x, decimalFloat d = .ok (.float x) := by
  cases d with
  | finite negative coefficient exponent => exact ⟨_, rfl⟩
  | infinite negative => exact ⟨_, rfl⟩
  | notANumber negative signaling payload =>
    cases signaling with
    | true => exact absurd ⟨negative, payload, rfl⟩ h
    | false => exact ⟨_, rfl⟩

theorem plain_rounded (h : IsRounded v) : ∃ x, plain v = .ok (.float x) := by
  cases h with
  | decimal128 h => exact decimalFloat_ok h
  | decimal h => exact decimalFloat_ok h

/-- What is made of a value. -/
structure Makes (v w : Value) : Prop where
  result : plain v = .ok w
  plain : IsPlain w
  shape : SameShape v w

theorem plainItems_cons (hw : plain v = .ok w) (hws : plainItems vs = .ok ws) :
    plainItems (v :: vs) = .ok (w :: ws) := by
  rw [plainItems, hw, hws]
  rfl

theorem plainEntries_cons {key : Value} (hw : plain v = .ok w) (hfs : plainEntries es = .ok fs) :
    plainEntries ((key, v) :: es) = .ok ((key, w) :: fs) := by
  rw [plainEntries, hw, hfs]
  rfl

theorem plainItems_self (h : ∀ v ∈ vs, plain v = .ok v) : plainItems vs = .ok vs := by
  induction vs with
  | nil => rfl
  | cons v vs ih =>
    obtain ⟨hv, hvs⟩ := List.forall_mem_cons.mp h
    exact plainItems_cons hv (ih hvs)

theorem plainEntries_self (h : ∀ e ∈ es, plain e.2 = .ok e.2) : plainEntries es = .ok es := by
  induction es with
  | nil => rfl
  | cons e es ih =>
    obtain ⟨he, hes⟩ := List.forall_mem_cons.mp h
    exact plainEntries_cons he (ih hes)

theorem exists_items (h : ∀ v ∈ vs, ∃ w, Makes v w) : ∃ ws, plainItems vs = .ok ws ∧
    (∀ w ∈ ws, IsPlain w) ∧ List.Forall₂ SameShape vs ws := by
  induction vs with
  | nil => exact ⟨[], rfl, by simp, .nil⟩
  | cons v vs ih =>
    obtain ⟨⟨w, hw⟩, hvs⟩ := List.forall_mem_cons.mp h
    obtain ⟨ws, hws, hplain, hshape⟩ := ih hvs
    exact ⟨w :: ws, plainItems_cons hw.result hws, List.forall_mem_cons.mpr ⟨hw.plain, hplain⟩,
      .cons hw.shape hshape⟩

theorem exists_entries (h : ∀ e ∈ es, ∃ w, Makes e.2 w) : ∃ fs, plainEntries es = .ok fs ∧
    (∀ f ∈ fs, IsPlain f.2) ∧ List.Forall₂ SameShape (es.map Prod.snd) (fs.map Prod.snd) := by
  induction es with
  | nil => exact ⟨[], rfl, by simp, .nil⟩
  | cons e es ih =>
    obtain ⟨⟨w, hw⟩, hes⟩ := List.forall_mem_cons.mp h
    obtain ⟨fs, hfs, hplain, hshape⟩ := ih hes
    exact ⟨(e.1, w) :: fs, plainEntries_cons hw.result hfs,
      List.forall_mem_cons.mpr ⟨hw.plain, hplain⟩, .cons hw.shape hshape⟩

theorem plain_of_isPlain (h : IsPlain v) : plain v = .ok v := by
  induction h with
  | leaf h => exact plain_leaf h
  | list items ih =>
    rw [plain, plainItems_self ih]
    rfl
  | dict keys members ih =>
    rw [plain, plainEntries_self ih]
    rfl

theorem exists_makes (h : IsStored v) : ∃ w, Makes v w := by
  induction h with
  | leaf h => exact ⟨_, plain_leaf h, .leaf h, .leaf h⟩
  | told h =>
    obtain ⟨s, hs⟩ := plain_told h
    exact ⟨_, hs, .leaf (.str s), .told h s⟩
  | rounded h =>
    obtain ⟨x, hx⟩ := plain_rounded h
    exact ⟨_, hx, .leaf (.float x), .rounded h x⟩
  | list items ih =>
    obtain ⟨ws, hws, hplain, hshape⟩ := exists_items ih
    refine ⟨.list ws, ?_, .list hplain, .list hshape⟩
    rw [plain, hws]
    rfl
  | tuple items ih =>
    obtain ⟨ws, hws, hplain, hshape⟩ := exists_items ih
    refine ⟨.list ws, ?_, .list hplain, .tuple hshape⟩
    rw [plain, hws]
    rfl
  | dict keys members ih =>
    obtain ⟨fs, hfs, hplain, hshape⟩ := exists_entries ih
    have hkeys := plainEntries_keys hfs
    refine ⟨.dict fs, ?_, .dict (keys.of_keys hkeys) hplain, .dict hkeys.symm hshape⟩
    rw [plain, hfs]
    rfl

/-- Of every document of the store a row is made that holds plain values only, at every depth, in the
shape of the document. Making a row of it again changes nothing. -/
theorem plainRow_complete (es : List (Value × Value)) (h : IsStored (.dict es)) :
    ∃ fs, plainRow (.dict es) = .ok (.dict fs) ∧ IsPlain (.dict fs) ∧
      SameShape (.dict es) (.dict fs) ∧ plainRow (.dict fs) = .ok (.dict fs) := by
  obtain ⟨w, hresult, hplain, hshape⟩ := exists_makes h
  obtain ⟨fs, -, rfl⟩ := plain_dict_ok hresult
  exact ⟨fs, hresult, hplain, hshape, plain_of_isPlain hplain⟩

theorem isStored_doc {fields : List (String × Value)} (h : ∀ f ∈ fields, IsStored f.2) :
    IsStored (.doc fields) :=
  .dict (Value.textKeys_doc fields) (List.forall_mem_map.mpr h)

private def shippedParts : Value :=
  .tuple [.int64 3, .bytes [0, 255], .decimal (.infinite true), .list [.day ⟨2024, 2, 29⟩, .null]]

/-- Parts of every kind, some of them inside of others. -/
private def shipment : Value :=
  .doc [("when", .moment ⟨⟨2024, 3, 1⟩, 12, 0, 0, 0, none⟩), ("parts", shippedParts),
    ("took", .duration ⟨90000000⟩)]

private def storedOrder : Value :=
  .doc [("_id", .objectId "65a1b2c3d4e5f6a7b8c9d0e1"), ("amount", .decimal128 (.finite false 1250 (-2))),
    ("shipment", shipment)]

private theorem isStored_shipment : IsStored shipment := by
  have hinfinite : ¬ IsSignaling (.infinite true) := by
    rintro ⟨_, _, h⟩
    cases h
  have hdays : IsStored (.list [.day ⟨2024, 2, 29⟩, .null]) :=
    .list (by simp [IsStored.told (.day _), IsStored.leaf .null])
  have hparts : IsStored shippedParts :=
    .tuple (by simp [hdays, IsStored.leaf (.int64 _), IsStored.told (.bytes _),
      IsStored.rounded (.decimal hinfinite)])
  exact isStored_doc (by simp [hparts, IsStored.told (.moment _), IsStored.told (.duration _)])

private theorem isStored_storedOrder : IsStored storedOrder := by
  have hamount : ¬ IsSignaling (.finite false 1250 (-2)) := by
    rintro ⟨_, _, h⟩
    cases h
  exact isStored_doc (by simp [isStored_shipment, IsStored.told (.objectId _),
    IsStored.rounded (.decimal128 hamount)])

theorem plainRow_complete_order : IsStored storedOrder ∧
    ∃ fs, plainRow storedOrder = .ok (.dict fs) ∧ IsPlain (.dict fs) ∧
      SameShape storedOrder (.dict fs) ∧ plainRow (.dict fs) = .ok (.dict fs) :=
  ⟨isStored_storedOrder, plainRow_complete _ isStored_storedOrder⟩

end Inquiry.Rows
