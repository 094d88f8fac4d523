import Inquiry.Decimal.Difference
import Inquiry.Number
import Inquiry.Value.Order

/-!
Differences of values: of two numbers, of two times of one kind, and of a time and a duration. A
decimal goes together with integers but not with doubles. Other values have no difference, which is a
defect of whoever asks for it.
-/
namespace Inquiry.Value

/-- A decimal, or an integer as one. -/
def asDecimal? : Value → Option Decimal.BaseTen
  | .decimal d => some d
  | .float _ => none
  | v => v.wholeNumber?.map fun n => .finite (n < 0) n.natAbs 0

def noDifference (a b : Value) : Except Defect Value :=
  .error (.noDifference a.fullTypeName b.fullTypeName)

def decimalDifference (a b : Value) : Except Defect Value :=
  match a.asDecimal?, b.asDecimal? with
  | some x, some y =>
    match x.difference? y with
    | some d => .ok (.decimal d)
    | none => .error .undefinedDecimal
  | _, _ => noDifference a b

/-- The difference of two values that are numbers. -/
def numberDifference (a b : Value) : Except Defect Value :=
  match Number.ofValue? a, Number.ofValue? b with
  | some x, some y =>
    match x.subDefect? y with
    | some d => .error d
    | none => .ok (x - y).toValue
  | _, _ => decimalDifference a b

/-- The duration of so many microseconds, if it is not too long to be one. -/
def durationOf (micros : Int) : Except Defect Value :=
  let d : Duration := ⟨micros⟩
  if d.days.natAbs ≤ 999999999 then .ok (.duration d) else .error (.durationRange d.days)

/-- What a time becomes that falls on the day; the years go from 1 to 9999. -/
def onDay (ordinal : Int) (value : Day → Value) : Except Defect Value :=
  if (Day.mk 1 1 1).toOrdinal ≤ ordinal ∧ ordinal ≤ (Day.mk 9999 12 31).toOrdinal then
    .ok (value (Day.ofOrdinal ordinal))
  else .error .dayRange

/-- A moment earlier by a duration, by its own clock. -/
def momentBefore (m : Moment) (d : Duration) : Except Defect Value :=
  let clock : Duration := ⟨m.clockMicros - d.micros⟩
  onDay clock.days fun day =>
    .moment ⟨day, clock.seconds / 3600, clock.seconds / 60 % 60, clock.seconds % 60, clock.fraction,
      m.offset⟩

/-- The time from one moment to another; two local ones are told by their clocks. -/
def momentDifference (m n : Moment) : Except Defect Value :=
  match m.instant?, n.instant? with
  | some a, some b => durationOf (a - b)
  | none, none => durationOf (m.clockMicros - n.clockMicros)
  | _, _ => .error .mixedClockDifference

/-- The first value less the second one. -/
def difference (a b : Value) : Except Defect Value :=
  if a.isNumber && b.isNumber then numberDifference a b
  else
    match a, b with
    | .moment m, .moment n => momentDifference m n
    | .moment m, .duration d => momentBefore m d
    | .day d, .day e => durationOf ((d.toOrdinal - e.toOrdinal) * Duration.microsPerDay)
    | .day d, .duration e => onDay (d.toOrdinal - e.days) .day
    | .duration d, .duration e => durationOf (d.micros - e.micros)
    | .set xs, .set ys => .ok (.set (xs.filter fun x => !ys.any (same x)))
    | a, b => noDifference a b

end Inquiry.Value
