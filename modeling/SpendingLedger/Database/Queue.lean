import SpendingLedger.Database.Connection
import SpendingLedger.Notice
import SpendingLedger.Settings

/-!
The broker in a database: messages are rows of one table, and a receiver leases the oldest message
of a lane that has none out. The lane of a message is stored in a column of 32 bits with a sign.
-/

namespace SpendingLedger.Database.Queue

/-- A number in a column where negative ones make no sense. -/
def ofColumn (i : Int32) : UInt32 := if 0 ≤ i then i.toUInt32 else 0

/-- A lane as the column holds it. -/
def toColumn (lane : UInt32) : Int32 := lane.toInt32

def laneParam (lane : UInt32) : Param := .integer (toColumn lane).toInt

def deliveryOfRow? : Row → Option Delivery
  | [id, channel, key, lane, payload, count, publishedAt] => do
    return {
      id := ← id.int64?
      channel := ← channel.text?
      key := ← key.text?
      lane := ofColumn (← lane.int32?)
      payload := ← payload.bytes?
      count := ofColumn (← count.int32?)
      publishedAt := ← publishedAt.time? }
  | _ => none

/-! ### Statements -/

def addMessage (lanes : UInt32) (channel key : String) (payload : ByteArray) : Statement where
  text := "INSERT INTO broker_messages (channel, routing_key, lane, payload) " ++
    "VALUES ($1, $2, $3, $4) RETURNING id"
  params := [.text channel, .text key, laneParam (laneOf key lanes), .bytes payload]

/-- Leases the next message of a channel. -/
def leaseNext (lease : Span) (channel : String) : Statement where
  text := "UPDATE broker_messages SET status = 'in_flight', " ++
    "delivery_count = delivery_count + 1, locked_until = NOW() + make_interval(secs => $2) " ++
    "WHERE id = ( SELECT m.id FROM broker_messages m WHERE m.channel = $1 " ++
    "AND m.status = 'ready' AND m.id = ( SELECT MIN(h.id) FROM broker_messages h " ++
    "WHERE h.channel = m.channel AND h.lane = m.lane " ++
    "AND h.status IN ('ready', 'in_flight') ) ORDER BY m.id FOR UPDATE SKIP LOCKED LIMIT 1 ) " ++
    "RETURNING id, channel, routing_key, lane, payload, delivery_count, published_at"
  params := [.text channel, .seconds lease]

/-- Marks a message that is out as done. -/
def markDone (id : Int64) : Statement where
  text := "UPDATE broker_messages SET status = 'acked', locked_until = NULL, " ++
    "settled_at = NOW() WHERE id = $1 AND status = 'in_flight'"
  params := [.integer id.toInt]

/-- Makes a message that is out ready again. -/
def markReady (id : Int64) : Statement where
  text := "UPDATE broker_messages SET status = 'ready', locked_until = NULL " ++
    "WHERE id = $1 AND status = 'in_flight'"
  params := [.integer id.toInt]

def markGivenUp (id : Int64) (reason : String) : Statement where
  text := "UPDATE broker_messages SET status = 'dead_lettered', locked_until = NULL, " ++
    "settled_at = NOW(), last_error = $2 WHERE id = $1 AND status = 'in_flight'"
  params := [.integer id.toInt, .text reason]

/-- Adds the copy of a message that was given up. -/
def addCopy (d : Delivery) (reason : String) : Statement where
  text := "INSERT INTO broker_messages (channel, routing_key, lane, payload, last_error) " ++
    "VALUES ($1, $2, $3, $4, $5)"
  params := [.text (setAsideChannel d.channel), .text d.key, laneParam d.lane, .bytes d.payload,
    .text reason]

/-! ### Operations -/

variable {m : Type → Type} [Monad m] [Connection m] [Reporting m]

def publish (lanes : UInt32) (channel key : String) (payload : ByteArray) :
    m (Except BrokerError Unit) := do
  match ← fetchFirst (single? Cell.int64?) (addMessage lanes channel key payload) with
  | .error _ => return .error (.publish BrokerError.database.message)
  | .ok id =>
    Reporting.report (.messagePublished channel key (laneOf key lanes) id)
    return .ok ()

/-- Looks for a message as often as given; the first one found. -/
def receive (lease : Span) (channel : String) : (looks : Nat) →
    m (Except BrokerError (Option Delivery))
  | 0 => return .ok none
  | n + 1 => do
    match ← fetchFirst? deliveryOfRow? (leaseNext lease channel) with
    | .error _ => return .error .database
    | .ok (some d) => return .ok (some d)
    | .ok none => receive lease channel n

/-- Changes the status of a message that is out. -/
def mark (d : Delivery) (s : Statement) : m (Except BrokerError Unit) := do
  match ← execute s with
  | .error _ => return .error .database
  | .ok n =>
    if n = 0 then return .error (.unknownDelivery d.channel d.id)
    else return .ok ()

/-- The statements that set a message aside, inside a transaction; whether it was out. -/
def moveAside (d : Delivery) (reason : String) : m (Except Fault (Ending Bool)) := do
  match ← execute (markGivenUp d.id reason) with
  | .error f => return .error f
  | .ok n =>
    if n = 0 then return .ok (.abandon false)
    else
      match ← execute (addCopy d reason) with
      | .error f => return .error f
      | .ok _ => return .ok (.commit true)

/-- Sets a message aside. -/
def setAside (d : Delivery) (reason : String) : m (Except BrokerError Unit) := do
  match ← transaction (moveAside d reason) with
  | .error _ => return .error .database
  | .ok false => return .error (.unknownDelivery d.channel d.id)
  | .ok true =>
    Reporting.report (.messageSetAside d reason)
    return .ok ()

/-- Settles a message. -/
def settle (d : Delivery) : Settlement → m (Except BrokerError Unit)
  | .acknowledge => mark d (markDone d.id)
  | .requeue => mark d (markReady d.id)
  | .setAside reason => setAside d reason

end SpendingLedger.Database.Queue
