import SpendingLedger.Accounting
import SpendingLedger.Announcement
import SpendingLedger.Database.Book
import SpendingLedger.Database.Maintenance
import SpendingLedger.Database.Queue
import SpendingLedger.Handler

/-!
A program over a database whose replies are laid out beforehand. What is sent is recorded together
with what came back, so that a whole conversation can be looked at.
-/

namespace SpendingLedger.Database

/-- Something sent, and the reply to it. -/
structure Exchange where
  request : Request
  reply : Reply
deriving DecidableEq

structure Session where
  replies : List Reply := []
  /-- The commands that fail. -/
  failing : List Command := []
  exchanges : List Exchange := []

namespace Session

def answer (s : Session) : Request → Reply × List Reply
  | .command c => (if c ∈ s.failing then .failure else .affected 0, s.replies)
  | .statement _ =>
    match s.replies with
    | [] => (.failure, [])
    | r :: rest => (r, rest)

def send (s : Session) (r : Request) : Reply × Session :=
  let (reply, replies) := s.answer r
  (reply, { s with replies, exchanges := s.exchanges ++ [⟨r, reply⟩] })

end Session

structure Client where
  session : Session := {}
  queue : QueueSettings := {}
  /-- The channel on which events are announced. -/
  channel : String := "transactions"
  cap : Decimal := defaultCap
  policy : RetryPolicy := .standard
  /-- The time that a request over HTTP may take if it does not say. -/
  budget : Span := .ofMillis 5000
  clock : Timestamp := .epoch
  handler : Handler := {}
  backlog : List Event := []
  notices : List Notice := []

namespace Client

abbrev Action := StateM Client

/-- A client of a database that may reject the connection. -/
def connect (accepted : Bool) (c : Client) : Except Fault Client :=
  if accepted then .ok c else .error .refused

instance : Connection Action where
  exchange r := modifyGet fun c =>
    let (reply, session) := c.session.send r
    (reply, { c with session })

instance : Reporting Action where
  report n := modify fun c => { c with notices := n :: c.notices }

/-- A database always answers in the end. -/
def reply {α : Type} (call : Action (Except StoreFault α)) : Action (StoreReply α) := do
  return .answered (← call)

instance : Bookkeeping Action where
  insert e cap := reply (Book.insert e cap)
  rowsOf u := reply (Book.rowsOf u)
  total u := reply (Book.total u)
  markPaid u := reply (Book.markPaid u)

instance : Announcing Action where
  now := return (← get).clock
  announce e := modify fun c => { c with backlog := c.backlog ++ [e] }

def publish (channel key : String) (payload : ByteArray) : Action (Except BrokerError Unit) := do
  Queue.publish (← get).queue.lanes channel key payload

instance : Transport Action where
  publish := publish
  settle := Queue.settle

/-- Looks for a message until there is one or the database fails, which it does when no reply is
left. -/
def receive (channel : String) : Action (Except BrokerError (Option Delivery)) := do
  let c ← get
  Queue.receive c.queue.lease channel (c.session.replies.length + 1)

def process (d : Delivery) : Action (Except BrokerError Settlement) := do
  Worker.process (← get).policy handle d
where
  handle (d : Delivery) : Action Verdict := do
    let (verdict, notices, handler) := (← get).handler.handle d
    modify fun c => { c with handler }
    notices.forM Reporting.report
    return verdict

/-- An action with verdicts laid out for its messages. -/
def withVerdicts {α : Type} (verdicts : Option (List Verdict)) (act : Action α) : Action α := do
  modify fun c => { c with handler := { c.handler with verdicts } }
  let result ← act
  modify fun c => { c with handler := { c.handler with verdicts := none } }
  return result

/-- Announces what is in the backlog; each event with what came of it. -/
def flush : Action (List (Event × Except AnnouncementError Unit)) := do
  let events := (← get).backlog
  modify fun c => { c with backlog := [] }
  Announcement.deliverAll (← get).channel events

end Client

end SpendingLedger.Database
