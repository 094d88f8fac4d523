import Inquiry.Decimal.Fixed

/-!
Draws: an endless sequence of integers from which demo data is made. Every choice takes the next one.
-/
namespace Inquiry.Demo

structure Draws where
  next : Nat → Int
  taken : Nat

abbrev Drawing := StateM Draws

def draw : Drawing Int := fun s => (s.next s.taken, { s with taken := s.taken + 1 })

/-- The remainder of a draw, from zero on. -/
def drawBelow (count : Nat) : Drawing Nat := do
  let d ← draw
  pure (d.emod count).toNat

/-- An integer between two others, both included. -/
def drawBetween (low high : Nat) : Drawing Nat := do
  let n ← drawBelow (high - low + 1)
  pure (low + n)

/-- One of several items. -/
def choose {α : Type} (first : α) (rest : List α) : Drawing α := do
  let n ← drawBelow (rest.length + 1)
  pure ((first :: rest).getD n first)

/-- A double between two others, in thousandths of their distance. -/
def drawAmount (low high : Float) : Drawing Float := do
  let n ← drawBelow 1000
  pure (low + (high - low) * (Float.ofNat n / 1000.0))

/-- What a drawing gives `n` times, the first time for `index`. -/
def drawEach {α : Type} (make : Nat → Drawing α) (index : Nat) : Nat → Drawing (List α)
  | 0 => pure []
  | n + 1 => do
    let one ← make index
    let rest ← drawEach make (index + 1) n
    pure (one :: rest)

end Inquiry.Demo
