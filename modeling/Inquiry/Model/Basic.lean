import Inquiry.Log
import Inquiry.Fault

/-!
Language models: a request is a prompt with the provider and the time limit that were asked for, and
a model answers the first, second, … request of a question with a text, with nothing or with a fault.
-/
namespace Inquiry

structure ModelRequest where
  prompt : String
  /-- The provider; without one the settings decide. -/
  provider : Option String
  /-- Seconds until the call is given up; null leaves it to the settings. -/
  limit : Value
  deriving Repr, BEq

/-- What a model answers, and what is logged meanwhile. -/
structure ModelReply where
  result : Except Fault (Option String)
  log : List Log.Line

abbrev Model := Nat → ModelRequest → ModelReply

end Inquiry
