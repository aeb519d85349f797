import SpendingLedger.Amount
import SpendingLedger.Timestamp.Json
import SpendingLedger.UserId

/-!
Transactions: what a user has spent, as recorded and as asked for, and their JSON forms.
-/

namespace SpendingLedger

structure Transaction where
  id : Int64
  user : UserId
  amount : Amount
  description : String
  isPaid : Bool
  createdAt : Timestamp
deriving DecidableEq

/-- A valid transaction that is not on record yet. -/
structure Entry where
  user : UserId
  amount : Amount
  description : String
deriving DecidableEq

def Transaction.entry (t : Transaction) : Entry := ⟨t.user, t.amount, t.description⟩

/-- A request to record a transaction. User and amount are not checked yet. -/
structure Command where
  user : Int64
  amount : Decimal
  description : String
deriving DecidableEq

/-- What a payment did: how many transactions it turned from unpaid to paid. -/
structure Payment where
  paidCount : UInt64
deriving DecidableEq

namespace Transaction

structure Draft where
  id : Option Int64 := none
  user : Option UserId := none
  amount : Option Amount := none
  description : Option String := none
  isPaid : Option Bool := none
  createdAt : Option Timestamp := none

def record : Json.Record Draft Transaction where
  members := [
    .of "id" (·.id) (fun s v => { s with id := some v }) Json.Scalar.int64,
    .of "user_id" (·.user) (fun s v => { s with user := some v }) UserId.ofScalar,
    .of "amount" (·.amount) (fun s v => { s with amount := some v }) Amount.ofScalar,
    .of "description" (·.description) (fun s v => { s with description := some v })
      Json.Scalar.string,
    .of "is_paid" (·.isPaid) (fun s v => { s with isPaid := some v }) Json.Scalar.truth,
    .of "created_at" (·.createdAt) (fun s v => { s with createdAt := some v })
      Timestamp.ofScalar]
  others := .ignored
  start := {}
  finish s := do
    return {
      id := ← Json.required "id" s.id
      user := ← Json.required "user_id" s.user
      amount := ← Json.required "amount" s.amount
      description := ← Json.required "description" s.description
      isPaid := ← Json.required "is_paid" s.isPaid
      createdAt := ← Json.required "created_at" s.createdAt }

def toJson (t : Transaction) : Json :=
  .object [("id", .integer t.id), ("user_id", t.user.toJson), ("amount", t.amount.toJson),
    ("description", .text t.description), ("is_paid", .truth t.isPaid),
    ("created_at", t.createdAt.toJson)]

end Transaction

namespace Command

structure Draft where
  user : Option Int64 := none
  amount : Option Decimal := none
  description : Option String := none

/-- The members of a request in order. The description may be left out. -/
def record : Json.Record Draft Command where
  members := [
    .of "user_id" (·.user) (fun s v => { s with user := some v }) Json.Scalar.int64,
    .of "amount" (·.amount) (fun s v => { s with amount := some v }) Json.Scalar.decimal,
    { Json.Member.of "description" (·.description)
        (fun s v => { s with description := some v }) Json.Scalar.string with optional := true }]
  others := .ignored
  start := {}
  finish s := do
    return {
      user := ← Json.required "user_id" s.user
      amount := ← Json.required "amount" s.amount
      description := s.description.getD "" }

def toJson (c : Command) : Json :=
  .object [("user_id", .integer c.user), ("amount", .text c.amount.toText),
    ("description", .text c.description)]

end Command

namespace Payment

def record : Json.Record (Option UInt64) Payment where
  members := [.of "paid_count" id (fun _ v => some v) Json.Scalar.uint64]
  others := .ignored
  start := none
  finish s := do return ⟨← Json.required "paid_count" s⟩

def toJson (p : Payment) : Json := .object [("paid_count", .natural p.paidCount)]

end Payment

end SpendingLedger
