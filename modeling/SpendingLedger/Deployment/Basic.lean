import SpendingLedger.Accounting
import SpendingLedger.Announcement
import SpendingLedger.Broker
import SpendingLedger.Handler
import SpendingLedger.Waiting

/-!
A deployment in memory: a book, a broker and statistics, tied together by one channel. Parts of
it can be made to fail, as they do in the field: the store may be down or never answer, the broker
may be out of reach, and the link of the workers to it may fail for a number of calls. Events to be
announced wait in a backlog, so an operation on the ledger is over before they are published.
-/

namespace SpendingLedger

structure Deployment where
  /-- The channel on which events are announced. -/
  channel : String
  cap : Decimal
  policy : RetryPolicy
  /-- The time that a request over HTTP may take if it does not say. -/
  budget : Span
  clock : Timestamp
  broker : Broker
  book : Book := {}
  /-- Whether the store refuses every call. -/
  storeDown : Bool := false
  /-- Whether the calls of the ledger to the store never end. -/
  storeSilent : Bool := false
  handler : Handler := {}
  /-- How many more receives of the workers fail. -/
  receiveFaults : Nat := 0
  /-- How many more settlements of the workers fail. -/
  settleFaults : Nat := 0
  /-- What the workers have set aside and why, newest first. -/
  setAside : List (Int64 × String) := []
  backlog : List Event := []
  notices : List Notice := []

namespace Deployment

abbrev Action := StateM Deployment

instance : Reporting Action where
  report n := modify fun s => { s with notices := n :: s.notices }

/-! ### The store -/

def consult {α : Type} (call : Deployment → α × Deployment) :
    Action (Except StoreFault α) := do
  if (← get).storeDown then return .error .unavailable
  else return .ok (← modifyGet call)

def insert (e : Entry) (cap : Decimal) : Action (Except StoreFault Insertion) :=
  consult fun s =>
    let (outcome, book) := s.book.insert s.clock e cap
    (outcome, { s with book })

def rowsOf (u : UserId) : Action (Except StoreFault (List Transaction)) :=
  consult fun s => (s.book.rowsOf u, s)

def total (u : UserId) : Action (Except StoreFault Decimal) :=
  consult fun s => (s.book.total u, s)

def markPaid (u : UserId) : Action (Except StoreFault UInt64) :=
  consult fun s =>
    let (count, book) := s.book.markPaid u
    (count, { s with book })

/-- The answer of the store as the ledger sees it. -/
def reply {α : Type} (call : Action (Except StoreFault α)) : Action (StoreReply α) := do
  if (← get).storeSilent then return .silent
  else return .answered (← call)

instance : Bookkeeping Action where
  insert e cap := reply (insert e cap)
  rowsOf u := reply (rowsOf u)
  total u := reply (total u)
  markPaid u := reply (markPaid u)

instance : Announcing Action where
  now := return (← get).clock
  announce e := modify fun s => { s with backlog := s.backlog ++ [e] }

/-! ### The broker -/

/-- What is reported of a message that was published. -/
def published (b : Broker) (channel key : String) (id : Int64) : Notice :=
  .messagePublished channel key (laneOf key b.lanes) id

def publish (channel key : String) (payload : ByteArray) : Action (Except BrokerError Unit) := do
  let s ← get
  match s.broker.publish s.clock channel key payload with
  | (.error e, _) => return .error e
  | (.ok id, b) =>
    set { s with broker := b }
    Reporting.report (published b channel key id)
    return .ok ()

/-- Hands out the next message of a channel, if there is one. -/
def receive (channel : String) : Action (Except BrokerError (Option Delivery)) :=
  modifyGet fun s =>
    let (outcome, broker) := s.broker.receive channel
    (outcome, { s with broker })

def settle (d : Delivery) (how : Settlement) : Action (Except BrokerError Unit) := do
  let s ← get
  match s.broker.settle d how with
  | (.error e, _) => return .error e
  | (.ok (), b) =>
    set { s with broker := b }
    if let .setAside reason := how then
      Reporting.report (.messageSetAside d reason)
    return .ok ()

/-- What a failing link says. -/
def linkFault : BrokerError := .publish "injected"

/-- Settles a message for a worker. -/
def settleForWorker (d : Delivery) (how : Settlement) : Action (Except BrokerError Unit) := do
  let s ← get
  if 0 < s.settleFaults then
    set { s with settleFaults := s.settleFaults - 1 }
    return .error linkFault
  else
    let outcome ← settle d how
    if let (.ok (), .setAside reason) := (outcome, how) then
      modify fun s => { s with setAside := (d.id, reason) :: s.setAside }
    return outcome

instance : Transport Action where
  publish := publish
  settle := settleForWorker

/-- Lets a receiver wait on a channel while the broker changes; what it receives afterwards, or
nothing if it still waits. -/
def receiveWaiting (channel : String) (change : Room.Change) :
    Action (Except BrokerError (Option Delivery)) := do
  let s ← get
  let room := { broker := s.broker, receivers := [{ channel }] : Room }.run (Room.round 0)
  if let .publish now channel key payload := change then
    if let (.ok id, b) := room.broker.publish now channel key payload then
      Reporting.report (published b channel key id)
  let room := room.run ([.change change, .notify] ++ Room.round 0)
  modify fun s => { s with broker := room.broker }
  return match room.receivers.head?.bind Receiver.outcome? with
  | some (.ok d) => .ok (some d)
  | some (.error e) => .error e
  | none => .ok none

/-! ### Announcements -/

/-- Announces what is in the backlog; each event with what came of it. -/
def flush : Action (List (Event × Except AnnouncementError Unit)) := do
  let events := (← get).backlog
  modify fun s => { s with backlog := [] }
  Announcement.deliverAll (← get).channel events

end Deployment

end SpendingLedger
