import Inquiry.Log
import Inquiry.Settings

/-!
The one client of the document store that all requests share. It is made when it is first needed and
can be closed; the next use makes a new one.
-/
namespace Inquiry.Store

/-- How a client is made. -/
structure ClientOptions where
  uri : String
  selectionLimit : Int
  zoned : Bool
  deriving Repr, DecidableEq

def ClientOptions.ofSettings (s : Settings) : ClientOptions :=
  ⟨s.mongoUri, s.serverSelectionTimeoutMs, true⟩

/-- Clients are numbered from zero; all but the open one are closed. -/
structure Connection where
  made : Nat
  isOpen : Bool
  deriving Repr, DecidableEq

namespace Connection

def start : Connection := ⟨0, false⟩

/-- The number of the shared client, which is made if there is none. -/
def client (s : Settings) (c : Connection) : Connection × Nat × List Log.Line :=
  if c.isOpen then (c, c.made - 1, [])
  else
    (⟨c.made + 1, true⟩, c.made,
      [Log.info .connection ("Mongo client created  db=" ++ s.mongoDb)])

def close (c : Connection) : Connection × List Log.Line :=
  if c.isOpen then ({ c with isOpen := false }, [Log.info .connection "Mongo client closed"])
  else (c, [])

/-- For each client whether it is closed. -/
def closed (c : Connection) : List Bool :=
  (List.range c.made).map fun n => !(c.isOpen && n + 1 == c.made)

/-- The database of a name; an empty or missing name stands for the one in the settings. -/
def databaseName (s : Settings) : Option String → String
  | none => s.mongoDb
  | some name => if name.isEmpty then s.mongoDb else name

end Connection

end Inquiry.Store
