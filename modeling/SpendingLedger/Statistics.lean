import SpendingLedger.Notice
import SpendingLedger.RetryPolicy
import SpendingLedger.Table

/-!
Statistics over announced events: counts and sums, overall and for each user. An event counts as
a whole or not at all: where one of the sums would no longer fit, nothing changes.
-/

namespace SpendingLedger

/-- What a user has recorded, by the events seen. -/
structure UserTotals where
  count : UInt64
  amount : Decimal
deriving DecidableEq

def UserTotals.toJson (t : UserTotals) : Json :=
  .object [("transaction_count", .natural t.count), ("amount", .text t.amount.toText)]

structure Statistics where
  events : UInt64 := 0
  transactions : UInt64 := 0
  amount : Decimal := .zero
  paid : UInt64 := 0
  /-- How many transactions of a user were seen. -/
  counts : Table UserId UInt64 := ∅
  /-- What the transactions of a user add up to. -/
  amounts : Table UserId Decimal := ∅
  /-- The time of the event counted last. -/
  lastTime : Option Timestamp := none

instance : Inhabited Statistics := ⟨{}⟩

namespace Statistics

/-- The sums that can overflow. -/
inductive Counter where
  | events
  | transactions
  | amount
  | userTransactions
  | userAmount
  | paid
deriving DecidableEq, Repr

def Counter.name : Counter → String
  | events => "events_processed"
  | transactions => "total_transactions"
  | amount => "total_amount"
  | userTransactions => "transactions_by_user"
  | userAmount => "amount_by_user"
  | paid => "total_paid_transactions"

/-- What is said of an event that does not fit. -/
def Counter.overflow (c : Counter) : String := s!"Applying the event would overflow {c.name}"

def count (c : Counter) (a b : UInt64) : Except Counter UInt64 :=
  if a.toNat + b.toNat < 2 ^ 64 then .ok (a + b) else .error c

def sum (c : Counter) (a b : Decimal) : Except Counter Decimal :=
  match a.add? b with
  | some s => .ok s
  | none => .error c

def countOf (s : Statistics) (u : UserId) : UInt64 := (s.counts.get? u).getD 0

def amountOf (s : Statistics) (u : UserId) : Decimal := (s.amounts.get? u).getD .zero

/-- The users seen, with their totals. -/
def users (s : Statistics) : Table UserId UserTotals :=
  s.counts.mapValues fun u n => ⟨n, s.amountOf u⟩

/-- The totals of a user, zero before the first event. -/
def totalsOf (s : Statistics) (u : UserId) : UserTotals := (s.users.get? u).getD ⟨0, .zero⟩

/-- Counts one event, or names the sum that would not fit. Each sum is worked out before any is
written. -/
def record (e : Event) : ExceptT Counter (StateM Statistics) Unit := do
  let s ← get
  let events ← count .events s.events 1
  match e with
  | .created _ user amount _ _ =>
    let transactions ← count .transactions s.transactions 1
    let total ← sum .amount s.amount amount.toDecimal
    let userCount ← count .userTransactions (s.countOf user) 1
    let userAmount ← sum .userAmount (s.amountOf user) amount.toDecimal
    modify fun s => { s with
      transactions, amount := total
      counts := s.counts.insert user userCount
      amounts := s.amounts.insert user userAmount }
  | .paid _ n _ =>
    let paid ← count .paid s.paid n
    modify fun s => { s with paid }
  modify fun s => { s with events, lastTime := some e.time }

/-- The statistics after an event that fits. -/
def apply (s : Statistics) (e : Event) : Except Counter Statistics :=
  match (record e).run s with
  | (.ok (), s) => .ok s
  | (.error c, _) => .error c

/-- The statistics in all, without what they say of single users. -/
structure Snapshot where
  transactions : UInt64
  amount : Decimal
  paid : UInt64
  events : UInt64
  users : UInt64
  lastTime : Option Timestamp
deriving DecidableEq

def snapshot (s : Statistics) : Snapshot where
  transactions := s.transactions
  amount := s.amount
  paid := s.paid
  events := s.events
  users := UInt64.ofNat s.counts.size
  lastTime := s.lastTime

def Snapshot.toJson (s : Snapshot) : Json :=
  .object ([("total_transactions", .natural s.transactions),
    ("total_amount", .text s.amount.toText), ("total_paid_transactions", .natural s.paid),
    ("events_processed", .natural s.events), ("unique_users", .natural s.users)] ++
    match s.lastTime with
    | some t => [("last_event_time", t.toJson)]
    | none => [])

def toJson (s : Statistics) : Json := s.snapshot.toJson

/-- What came of a message: the statistics afterwards, the verdict, and what to report. -/
structure Handled where
  statistics : Statistics
  verdict : Verdict
  notice : Notice

/-- Opens a message and counts the event in it. An unknown kind of event is passed over. -/
def handle (s : Statistics) (d : Delivery) : Handled :=
  match Event.decode d.payload with
  | .error fault =>
    ⟨s, .permanent s!"undecodable envelope: {fault.summary}", .eventUndecodable d.channel d.id⟩
  | .ok (.unknown tag) => ⟨s, .done, .eventUnknown tag d.id⟩
  | .ok (.event e) =>
    match (record e).run s with
    | (.ok (), s) => ⟨s, .done, .eventProcessed e.kind e.user d.lane⟩
    | (.error c, s) => ⟨s, .permanent c.overflow, .eventRejected e.kind e.user d.id⟩

end Statistics

end SpendingLedger
