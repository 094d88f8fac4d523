import Inquiry.Model.Basic

/-!
Work that leaves a trace: the lines it logs, the pipelines it sends to the document store and the
requests it sends to a model, each in order. A fault ends the work and keeps the trace.
-/
namespace Inquiry

/-- A pipeline as it is sent, with its time limit in milliseconds. -/
structure Run where
  collection : String
  pipeline : Value
  limit : Int
  deriving Repr, BEq

structure Trace where
  log : List Log.Line
  runs : List Run
  requests : List ModelRequest
  deriving Repr, BEq

namespace Trace

def empty : Trace := ⟨[], [], []⟩

def append (a b : Trace) : Trace := ⟨a.log ++ b.log, a.runs ++ b.runs, a.requests ++ b.requests⟩

instance : Append Trace := ⟨append⟩

end Trace

structure Traced (α : Type) where
  result : Except Fault α
  trace : Trace

namespace Traced

variable {α β : Type}

def done (a : α) : Traced α := ⟨.ok a, .empty⟩

/-- The second part runs only if the first one succeeds; its trace comes after the first one's. -/
def andThen (t : Traced α) (next : α → Traced β) : Traced β :=
  match t.result with
  | .ok a => ⟨(next a).result, t.trace ++ (next a).trace⟩
  | .error f => ⟨.error f, t.trace⟩

instance : Monad Traced where
  pure := done
  bind := andThen

def fail (f : Fault) : Traced α := ⟨.error f, .empty⟩

/-- Work that leaves no trace. -/
def ofResult (r : Except Fault α) : Traced α := ⟨r, .empty⟩

def log (lines : List Log.Line) : Traced Unit := ⟨.ok (), ⟨lines, [], []⟩⟩

def sent (run : Run) : Traced Unit := ⟨.ok (), ⟨[], [run], []⟩⟩

/-- Sends the `n`-th request to a model. -/
def ask (model : Model) (n : Nat) (r : ModelRequest) : Traced (Option String) :=
  ⟨(model n r).result, ⟨(model n r).log, [], [r]⟩⟩

end Traced

end Inquiry
