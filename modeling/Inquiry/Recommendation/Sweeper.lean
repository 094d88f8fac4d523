import Inquiry.Number
import Inquiry.Recommendation.Cache

/-!
The sweeper runs beside the requests and sweeps the cache once in every interval. A sweep that fails
is logged, and the sweeper goes on.
-/
namespace Inquiry.Recommendation

structure Sweeper where
  /-- Seconds between two sweeps. -/
  interval : Value
  running : Bool
  deriving Repr, BEq

namespace Sweeper

def make (interval : Value) : Sweeper := ⟨interval, false⟩

/-- An interval that no double is near to has no line in the log. -/
def startedLog (s : Sweeper) : List Log.Line :=
  match s.interval.nearestFloat? with
  | some x =>
    [Log.info .recommendations ("Recommendation sweeper started (every " ++ Decimal.fixed x 0 ++ "s)")]
  | none => []

/-- A sweeper that runs is not started again. -/
def start (s : Sweeper) : Sweeper × List Log.Line :=
  if s.running then (s, []) else ({ s with running := true }, s.startedLog)

def stop (s : Sweeper) : Sweeper × List Log.Line :=
  if s.running then
    ({ s with running := false }, [Log.info .recommendations "Recommendation sweeper stopped"])
  else (s, [])

/-- What `n` intervals do to a cache. -/
def ticks {T : Type} (sweep : Cache T → Option (Cache T × Nat)) :
    Nat → Cache T → Cache T × List Log.Line
  | 0, c => (c, [])
  | n + 1, c =>
    let (after, log) := match sweep c with
      | some (after, removed) => (after, sweepLog removed)
      | none => (c, [Log.error .recommendations "Recommendation sweep failed"])
    let (last, rest) := ticks sweep n after
    (last, log ++ rest)

end Sweeper

end Inquiry.Recommendation
