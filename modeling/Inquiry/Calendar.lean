import Inquiry.Decimal.Fixed
import Inquiry.Decimal.BaseTen
import Inquiry.Text.Search

/-!
Days, moments and durations of the proleptic Gregorian calendar, and their written forms.
-/
namespace Inquiry

open Decimal (digitsOf zeroPadded)

/-- A calendar day. -/
structure Day where
  year : Nat
  month : Nat
  day : Nat
  deriving Repr, DecidableEq, Inhabited

namespace Day

def text (d : Day) : String :=
  String.ofList (zeroPadded 4 d.year ++ '-' :: zeroPadded 2 d.month ++ '-' :: zeroPadded 2 d.day)

/-- Days since 1970-01-01. The year is counted from March, so that the leap day comes last. -/
def toOrdinal (d : Day) : Int :=
  let y : Int := if d.month ≤ 2 then (d.year : Int) - 1 else d.year
  let era := y.fdiv 400
  let yoe := y - era * 400
  let mp : Int := ((d.month + 9) % 12 : Nat)
  let doy := (153 * mp + 2).fdiv 5 + d.day - 1
  era * 146097 + (yoe * 365 + yoe.fdiv 4 - yoe.fdiv 100 + doy) - 719468

def ofOrdinal (n : Int) : Day :=
  let z := n + 719468
  let era := z.fdiv 146097
  let doe := z - era * 146097
  let yoe := (doe - doe.fdiv 1460 + doe.fdiv 36524 - doe.fdiv 146096).fdiv 365
  let doy := doe - (365 * yoe + yoe.fdiv 4 - yoe.fdiv 100)
  let mp := (5 * doy + 2).fdiv 153
  let month := if mp < 10 then mp + 3 else mp - 9
  let year := yoe + era * 400 + if month ≤ 2 then 1 else 0
  ⟨year.toNat, month.toNat, (doy - (153 * mp + 2).fdiv 5 + 1).toNat⟩

end Day

/-- A length of time in microseconds. -/
structure Duration where
  micros : Int
  deriving Repr, DecidableEq, Inhabited

namespace Duration

def microsPerSecond : Int := 1000000

def microsPerDay : Int := 86400 * microsPerSecond

/-- Whole days, rounded down. -/
def days (d : Duration) : Int := d.micros.fdiv microsPerDay

/-- The seconds within the day. -/
def seconds (d : Duration) : Nat := ((d.micros - d.days * microsPerDay).fdiv microsPerSecond).toNat

/-- The microseconds within the second. -/
def fraction (d : Duration) : Nat := (d.micros - d.micros.fdiv microsPerSecond * microsPerSecond).toNat

def fractionText (n : Nat) : List Char := if n = 0 then [] else '.' :: zeroPadded 6 n

/-- `1 day, 1:01:01`; a negative duration counts forward from a negative day. -/
def text (d : Duration) : String :=
  let s := d.seconds
  let dayPart :=
    if d.days = 0 then []
    else (toString d.days).toList ++ (if d.days.natAbs = 1 then " day, " else " days, ").toList
  String.ofList (dayPart ++ digitsOf (s / 3600) ++ ':' :: zeroPadded 2 (s / 60 % 60) ++
    ':' :: zeroPadded 2 (s % 60) ++ fractionText d.fraction)

/-- The integer nearest to a fraction below one and above minus one, added to `n`; a half goes to the
even sum. -/
def addRounded (n : Int) (fraction : Float) : Int :=
  let away : Int := if fraction < 0 then -1 else 1
  let size := fraction.abs
  if size < 0.5 then n
  else if 0.5 < size then n + away
  else if n % 2 = 0 then n else n + away

/-- From a count of seconds. The whole seconds count exactly, and what is left of one is scaled as a
double before it is rounded to a microsecond. -/
def ofSeconds (x : Float) : Duration :=
  match Decimal.Binary.ofFloat x with
  | none => ⟨0⟩
  | some b =>
    let scaled := (x - Float.ofInt b.truncate) * 1000000.0
    match Decimal.Binary.ofFloat scaled with
    | none => ⟨0⟩
    | some part =>
      ⟨addRounded (b.truncate * microsPerSecond + part.truncate)
        (scaled - Float.ofInt part.truncate)⟩

/-- `P1DT1H1M1S` with years of 365 days; what is zero is left out, and a negative duration has its
sign in front. -/
def isoText (d : Duration) : String :=
  let size : Duration := ⟨d.micros.natAbs⟩
  let part (letter : Char) (n : Nat) : List Char := if n = 0 then [] else digitsOf n ++ [letter]
  let days := size.days.toNat
  let s := size.seconds
  let places := ((zeroPadded 6 size.fraction).reverse.dropWhile (· = '0')).reverse
  let secondPart :=
    if s % 60 = 0 ∧ size.fraction = 0 then []
    else digitsOf (s % 60) ++ (if places.isEmpty then [] else '.' :: places) ++ ['S']
  let clock := part 'H' (s / 3600) ++ part 'M' (s / 60 % 60) ++ secondPart
  let body := part 'Y' (days / 365) ++ part 'D' (days % 365) ++
    if clock.isEmpty then [] else 'T' :: clock
  String.ofList ((if d.micros < 0 then ['-'] else []) ++ 'P' ::
    if body.isEmpty then ['T', '0', 'S'] else body)

end Duration

/-- A day with a time of day and, unless it is local, a distance from UTC. -/
structure Moment where
  day : Day
  hour : Nat
  minute : Nat
  second : Nat
  micro : Nat
  offset : Option Duration
  deriving Repr, DecidableEq, Inhabited

namespace Moment

def clockText (m : Moment) : List Char :=
  zeroPadded 2 m.hour ++ ':' :: zeroPadded 2 m.minute ++ ':' :: zeroPadded 2 m.second ++
    Duration.fractionText m.micro

/-- `+05:30`, with seconds only where they are needed. -/
def offsetText : Option Duration → List Char
  | none => []
  | some d =>
    let a : Duration := ⟨d.micros.natAbs⟩
    let s := (a.micros.fdiv Duration.microsPerSecond).toNat
    let tail := if s % 60 = 0 ∧ a.fraction = 0 then []
      else ':' :: zeroPadded 2 (s % 60) ++ Duration.fractionText a.fraction
    (if d.micros < 0 then '-' else '+') :: zeroPadded 2 (s / 3600) ++
      ':' :: zeroPadded 2 (s / 60 % 60) ++ tail

def textWith (separator : Char) (m : Moment) : String :=
  String.ofList (m.day.text.toList ++ separator :: m.clockText ++ offsetText m.offset)

/-- The interchange form, with a `T` between day and time. -/
def isoText (m : Moment) : String := m.textWith 'T'

/-- The reader's form, with a space between day and time. -/
def text (m : Moment) : String := m.textWith ' '

/-- The form for the wire: hours and minutes from UTC, and `Z` for UTC itself. The sign is that of the
hours. -/
def wireText (m : Moment) : String :=
  let zone := match m.offset with
    | none => []
    | some d =>
      let minutes := (d.micros.tdiv (60 * Duration.microsPerSecond))
      if d.micros.natAbs < 1000000 then ['Z']
      else
        (if minutes.tdiv 60 < 0 then '-' else '+') :: zeroPadded 2 (minutes.natAbs / 60) ++
          ':' :: zeroPadded 2 (minutes.natAbs % 60)
  String.ofList (m.day.text.toList ++ 'T' :: m.clockText ++ zone)

/-- Microseconds since 1970 on the clock that the moment is written by. -/
def clockMicros (m : Moment) : Int :=
  m.day.toOrdinal * Duration.microsPerDay +
    (((m.hour * 60 + m.minute) * 60 + m.second) * 1000000 + m.micro : Nat)

/-- Microseconds since 1970 UTC; a local moment has no place there. -/
def instant? (m : Moment) : Option Int := m.offset.map fun d => m.clockMicros - d.micros

/-- Whether two moments are the same: two local ones by their clock, two others by the instant. -/
def same (m n : Moment) : Bool :=
  match m.instant?, n.instant? with
  | some a, some b => a == b
  | none, none => m.clockMicros == n.clockMicros
  | _, _ => false

/-- The moment a number of minutes after midnight UTC of a day. -/
def utc (dayNumber : Int) (minutes : Nat) : Moment :=
  ⟨Day.ofOrdinal (dayNumber + (minutes / 1440 : Nat)), minutes % 1440 / 60, minutes % 60, 0, 0,
    some ⟨0⟩⟩

end Moment

namespace Calendar

/-- Exactly `n` digits and what follows them. -/
def takeDigits? (n : Nat) (s : List Char) : Option (Nat × List Char) :=
  let ds := s.take n
  if ds.length = n ∧ ds.all Char.isDigit then some (Decimal.BaseTen.natOfDigits ds, s.drop n)
  else none

/-- The day of a week of a year; weeks start on Mondays, and the first one holds January 4th. -/
def ofWeek (year week weekday : Nat) : Day :=
  let fourth := (Day.mk year 1 4).toOrdinal
  let monday := fourth - (fourth + 3).fmod 7
  Day.ofOrdinal (monday + 7 * (week - 1 : Int) + (weekday - 1 : Int))

/-- The digit of a weekday after a week, if it is there. After a hyphen it is one digit alone; without
hyphens the digits of a time come in pairs, and the weekday makes their number odd. -/
def readWeekday (hyphens : Bool) (s : List Char) : Nat × List Char :=
  match hyphens, s with
  | true, '-' :: d :: rest =>
    if d.isDigit && !(rest.headD '-').isDigit then (Decimal.BaseTen.digitValue d, rest) else (1, s)
  | false, d :: rest =>
    if d.isDigit && (s.takeWhile Char.isDigit).length % 2 = 1 then
      (Decimal.BaseTen.digitValue d, rest)
    else (1, s)
  | _, s => (1, s)

/-- `YYYY-MM-DD` or `YYYY-Www-D`, with or without the hyphens; a week may stand for its Monday. -/
def readDay? (s : List Char) : Option (Day × List Char) := do
  let (y, s) ← takeDigits? 4 s
  let (hyphens, s) := match s with
    | '-' :: r => (true, r)
    | r => (false, r)
  match s with
  | 'W' :: r =>
    let (week, r) ← takeDigits? 2 r
    let (weekday, r) := readWeekday hyphens r
    some (ofWeek y week weekday, r)
  | s =>
    let (m, s) ← takeDigits? 2 s
    let s ← if hyphens then Text.Chars.dropPrefix? ['-'] s else some s
    let (d, s) ← takeDigits? 2 s
    some (⟨y, m, d⟩, s)

def isPoint (c : Char) : Bool := c = '.' || c = ','

/-- A fraction of a second, cut or filled to six digits. -/
def readFraction (s : List Char) : Nat × List Char :=
  match s with
  | c :: r =>
    if isPoint c then
      let ds := r.takeWhile Char.isDigit
      (Decimal.BaseTen.natOfDigits ((ds ++ List.replicate 6 '0').take 6), r.dropWhile Char.isDigit)
    else (0, s)
  | [] => (0, [])

/-- Two digits more, after a colon or, if there are none, right away. -/
def readPair? (colons : Bool) (s : List Char) : Option (Nat × List Char) :=
  match colons, s with
  | true, ':' :: r => takeDigits? 2 r
  | false, r => takeDigits? 2 r
  | _, _ => none

/-- `HH[:MM[:SS]][.ffffff]`, with or without the colons. -/
def readClock? (s : List Char) : Option ((Nat × Nat × Nat × Nat) × List Char) := do
  let (h, s) ← takeDigits? 2 s
  let colons := s.head? = some ':'
  let (m, sec, s) := match readPair? colons s with
    | none => (0, 0, s)
    | some (m, s) =>
      match readPair? colons s with
      | none => (m, 0, s)
      | some (sec, s) => (m, sec, s)
  let (f, s) := readFraction s
  some ((h, m, sec, f), s)

/-- A distance from UTC; one below a second counts as none. -/
def readOffset? : List Char → Option (Option Duration)
  | [] => some none
  | ['Z'] => some (some ⟨0⟩)
  | sign :: r =>
    if sign = '+' ∨ sign = '-' then
      match readClock? r with
      | some ((h, m, s, f), []) =>
        let whole := h * 3600 + m * 60 + s
        let n : Int := if whole = 0 then 0 else (whole * 1000000 + f : Nat)
        some (some ⟨if sign = '-' then -n else n⟩)
      | _ => none
    else none

end Calendar

def Day.ofText? (text : String) : Option Day :=
  match Calendar.readDay? text.toList with
  | some (d, []) => some d
  | _ => none

def Moment.ofText? (text : String) : Option Moment :=
  match Calendar.readDay? text.toList with
  | some (d, []) => some ⟨d, 0, 0, 0, 0, none⟩
  | some (d, _ :: rest) => do
    let ((h, m, s, f), rest) ← Calendar.readClock? rest
    let offset ← Calendar.readOffset? rest
    some ⟨d, h, m, s, f, offset⟩
  | none => none

end Inquiry
