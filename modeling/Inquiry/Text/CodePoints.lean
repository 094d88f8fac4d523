/-!
Sets of code points given by their boundaries: in ascending order, every boundary starts or ends a
run, and the first one starts a run.
-/
namespace Inquiry.Text.CodePoints

/-- Whether `n` lies in the set: an odd number of boundaries are at or below it. -/
def holds : List Nat → Nat → Bool
  | [], _ => false
  | b :: rest, n => if n < b then false else !holds rest n

end Inquiry.Text.CodePoints
