import Inquiry.Trace

/-!
The document store as a question sees it: the names of its collections, one sample document of a
collection, and the rows of a pipeline. Each of them may fail.
-/
namespace Inquiry.Store

/-- Why the store did not answer. -/
inductive Failure where
  /-- The driver gave up. `limitPassed` says that the store itself stopped a pipeline at its limit. -/
  | driver (text : String) (timedOut limitPassed : Bool)
  | other (f : Fault)
  deriving Repr, BEq

end Inquiry.Store

namespace Inquiry

structure Database where
  names : Except Store.Failure (List String)
  /-- A document of a collection, without its id; none if the collection is empty. -/
  sample : String → Except Store.Failure (Option Value)
  aggregate : Run → Except Store.Failure (List Value)

end Inquiry
