import Inquiry.Fault

/-!
Rows as JSON can hold them: ids, times, durations and bytes become text, and decimals become doubles,
at every depth. Keys, order and all other leaves stay as they are.
-/
namespace Inquiry.Rows

/-- The double nearest to a decimal; a signaling number has none. -/
def decimalFloat (d : Decimal.BaseTen) : Except Fault Value :=
  match d.toFloat? with
  | some x => .ok (.float x)
  | none => .error (.defect .signalingNumber)

mutual

def plain : Value → Except Fault Value
  | .objectId hex => .ok (.str hex)
  | .decimal128 d => decimalFloat d
  | .decimal d => decimalFloat d
  | .moment m => .ok (.str m.isoText)
  | .day d => .ok (.str d.text)
  | .duration d => .ok (.str d.text)
  | .bytes bs => .ok (.str (String.ofList (bs.flatMap fun b => Text.hexDigits 2 b.toNat)))
  | .dict es => do .ok (.dict (← plainEntries es))
  | .list xs => do .ok (.list (← plainItems xs))
  | .tuple xs => do .ok (.list (← plainItems xs))
  | v => .ok v

def plainItems : List Value → Except Fault (List Value)
  | [] => .ok []
  | v :: vs => do
    let v ← plain v
    let vs ← plainItems vs
    .ok (v :: vs)

def plainEntries : List (Value × Value) → Except Fault (List (Value × Value))
  | [] => .ok []
  | (k, v) :: es => do
    let v ← plain v
    let es ← plainEntries es
    .ok ((k, v) :: es)

end

/-- A whole row, which has to be a document. -/
def plainRow (row : Value) : Except Fault Value :=
  match row with
  | .dict es => plain (.dict es)
  | v => .error (.defect (.noAttribute v.fullTypeName "items"))

end Inquiry.Rows
