import Inquiry.Rows.Path

/-!
Results as they are handed over. A result is a list of rows, and any other sequence counts as one; a
value that is no sequence has no first row, no length or no front.
-/
namespace Inquiry.Rows

/-- The numbers of bytes. -/
def byteItems (bs : List UInt8) : List Value := bs.map fun b => .ofNat b.toNat

/-- The item at index zero; of a mapping, the value under the key zero. -/
def first (v : Value) : Except Defect Value :=
  match v with
  | .list xs => item "list" xs (.int 0)
  | .tuple xs => item "tuple" xs (.int 0)
  | .bytes bs => item "byte" (byteItems bs) (.int 0)
  | .str s => item "string" (s.toList.map fun c => .str (String.singleton c)) (.int 0)
  | .dict es =>
    match atKey? (.int 0) es with
    | some v => .ok v
    | none => .error (.noEntry "0")
  | v => .error (.notIndexed v.fullTypeName)

/-- How many items a value has. -/
def count (v : Value) : Except Defect Nat :=
  match v with
  | .list xs => .ok xs.length
  | .tuple xs => .ok xs.length
  | .set xs => .ok xs.length
  | .dict es => .ok es.length
  | .str s => .ok s.length
  | .bytes bs => .ok bs.length
  | v => .error (.noLength v.fullTypeName)

/-- At most `size` items from the start; a negative size leaves that many out at the end. -/
def takeFront {α : Type} (size : Int) (xs : List α) : List α :=
  if 0 ≤ size then xs.take size.toNat else xs.take (xs.length - (-size).toNat)

/-- The front of a sequence, as a sequence of the same kind. -/
def front (size : Int) (v : Value) : Except Defect Value :=
  match v with
  | .list xs => .ok (.list (takeFront size xs))
  | .tuple xs => .ok (.tuple (takeFront size xs))
  | .bytes bs => .ok (.bytes (takeFront size bs))
  | .str s => .ok (.str (String.ofList (takeFront size s.toList)))
  | .dict _ => .error (.notHashable "slice")
  | v => .error (.notIndexed v.fullTypeName)

end Inquiry.Rows
