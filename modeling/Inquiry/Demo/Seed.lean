import Inquiry.Demo.Draws
import Inquiry.Fault

/-!
Demo data: customers, their orders, and the same orders with their dates as text. The three
collections are dropped and written again.
-/
namespace Inquiry.Demo

structure Customer where
  id : Nat
  name : String
  email : String
  region : String
  tier : String
  signup : Moment
  deriving Repr, DecidableEq

structure Order where
  id : Nat
  customer : Customer
  category : String
  status : String
  quantity : Nat
  amount : Float
  placed : Moment
  deriving Repr

/-- The first day, and how many days later the last one is. -/
def firstDay : Day := ⟨2024, 1, 1⟩

def lastOffset : Nat := 730

/-- A minute of the whole range, in UTC. -/
def drawMoment : Drawing Moment := do
  let days ← drawBetween 0 lastOffset
  let hours ← drawBetween 0 23
  let minutes ← drawBetween 0 59
  pure (Moment.utc (firstDay.toOrdinal + days) (hours * 60 + minutes))

def drawCustomer (id : Nat) : Drawing Customer := do
  let name ← draw
  let email ← draw
  let region ← choose "North" ["South", "East", "West", "Central"]
  let tier ← choose "bronze" ["silver", "gold"]
  let signup ← drawMoment
  pure ⟨id, "name" ++ toString name, "mail" ++ toString email, region, tier, signup⟩

def drawCategory : Drawing String :=
  choose "Electronics" ["Clothing", "Home & Kitchen", "Books", "Sports", "Beauty", "Toys",
    "Automotive", "Grocery", "Garden", "Office", "Music"]

def drawStatus : Drawing String := choose "completed" ["cancelled", "pending"]

/-- An order of one of the customers. -/
def drawOrder (first : Customer) (rest : List Customer) (id : Nat) : Drawing Order := do
  let customer ← choose first rest
  let quantity ← drawBetween 1 10
  let price ← drawAmount 5.0 500.0
  let category ← drawCategory
  let status ← drawStatus
  let placed ← drawMoment
  pure ⟨id, customer, category, status, quantity,
    Decimal.roundTo (Float.ofNat quantity * Decimal.roundTo price 2) 2, placed⟩

namespace Customer

def toValue (c : Customer) : Value :=
  .doc [("customerId", .ofNat c.id), ("name", .str c.name), ("email", .str c.email),
    ("region", .str c.region), ("tier", .str c.tier), ("signupDate", .moment c.signup)]

end Customer

namespace Order

/-- An order with its date in one form or another. -/
def toValueWith (date : Value) (o : Order) : Value :=
  .doc [("orderId", .ofNat o.id), ("customerId", .ofNat o.customer.id),
    ("customerName", .str o.customer.name), ("region", .str o.customer.region),
    ("category", .str o.category), ("status", .str o.status), ("quantity", .ofNat o.quantity),
    ("totalAmount", .float o.amount), ("orderDate", date)]

def toValue (o : Order) : Value := toValueWith (.moment o.placed) o

/-- An order with its day as text. -/
def toLegacyValue (o : Order) : Value := toValueWith (.str o.placed.day.text) o

end Order

/-- A collection as it is written. -/
structure Batch where
  collection : String
  documents : List Value
  deriving Repr, BEq

/-- The line that is printed when a collection is written. -/
def Batch.report (b : Batch) : String :=
  "  ✓ " ++ b.collection ++ ": " ++ Decimal.groupedInt b.documents.length ++ " documents\n"

structure Dataset where
  customers : List Customer
  orders : List Order

namespace Dataset

/-- The collections in the order in which they are written. -/
def batches (d : Dataset) : List Batch :=
  [⟨"customers", d.customers.map (·.toValue)⟩, ⟨"orders", d.orders.map (·.toValue)⟩,
    ⟨"orders_legacy", d.orders.map (·.toLegacyValue)⟩]

def report (d : Dataset) : String := String.join (d.batches.map (·.report))

/-- What the command prints when it writes a dataset into a database. -/
def fullReport (d : Dataset) (database : String) : String :=
  let count (n : Nat) := Decimal.groupedInt n
  "═══ Seed Data Generator ═══\n" ++ d.report ++ "\nDone: seeded " ++ count d.customers.length ++
    " customers, " ++ count d.orders.length ++ " orders, " ++ count d.orders.length ++
    " legacy orders into '" ++ database ++ "'.\n"

end Dataset

/-- The seed of the draws unless another one is asked for. -/
def defaultSeed : Int := 42

/-- A dataset of a size. Orders cannot be drawn without customers. -/
def drawDataset (customers orders : Nat) (source : Draws) : Except Fault (Dataset × Draws) :=
  let (cs, source) := drawEach drawCustomer 1 customers source
  match cs, orders with
  | cs, 0 => .ok (⟨cs, []⟩, source)
  | [], _ + 1 => .error (.defect .remainderByZero)
  | first :: rest, n =>
    let (os, source) := drawEach (drawOrder first rest) 1 n source
    .ok (⟨first :: rest, os⟩, source)

end Inquiry.Demo
