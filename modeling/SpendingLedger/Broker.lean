import SpendingLedger.Delivery
import SpendingLedger.Overflow
import SpendingLedger.Table

/-!
A broker in memory. A channel is a row of lanes, each a queue with at most one message out at a
time. Receiving goes round the lanes from where it left off; a message that is out keeps its place
as the head of its lane until it is settled. Every operation returns its answer and the broker
afterwards, which is the broker before if the answer is an error. A delivery is counted after its
message has left the queue, so a receiver that stops over the count takes the message with it.
-/

namespace SpendingLedger

/-- A message as the broker keeps it. -/
structure Message where
  id : Int64
  key : String
  payload : ByteArray
  /-- How often it has been handed out on its channel. -/
  count : UInt32
  publishedAt : Timestamp
deriving DecidableEq

/-- A queue of messages and the one that is out. -/
structure Lane where
  queue : List Message := []
  inFlight : Option Message := none
deriving DecidableEq

/-- The messages of a lane, the one that is out first. -/
def Lane.messages (l : Lane) : List Message := l.inFlight.toList ++ l.queue

/-- The lanes of a channel, and the lane to look at first on the next receive. -/
structure Channel where
  lanes : List Lane
  cursor : Nat := 0
deriving DecidableEq

namespace Channel

def fresh (lanes : UInt32) : Channel := ⟨List.replicate lanes.toNat {}, 0⟩

def pending (c : Channel) : Nat := (c.lanes.map (fun l => l.messages.length)).foldr (· + ·) 0

/-- The lanes in the order in which the next receive looks at them. -/
def scan (c : Channel) : List Nat :=
  (List.range c.lanes.length).map (fun offset => (c.cursor + offset) % c.lanes.length)

/-- The message that lane `i` could hand out. -/
def ready? (c : Channel) (i : Nat) : Option Message :=
  match c.lanes[i]? with
  | some { queue := m :: _, inFlight := none } => some m
  | _ => none

/-- The first lane that could hand out a message, and the message. -/
def next? (c : Channel) : Option (Nat × Message) :=
  c.scan.findSome? (fun i => (c.ready? i).map (fun m => (i, m)))

/-- Puts a message at the end of lane `i`. -/
def push (c : Channel) (i : Nat) (m : Message) : Channel :=
  { c with lanes := c.lanes.modify i (fun l => { l with queue := l.queue ++ [m] }) }

/-- Hands out the head of lane `i` as `m`, and goes on with the lane after it. -/
def handOut (c : Channel) (i : Nat) (m : Message) : Channel where
  lanes := c.lanes.modify i (fun l => { queue := l.queue.tail, inFlight := some m })
  cursor := (i + 1) % c.lanes.length

/-- Drops the head of lane `i`. -/
def drop (c : Channel) (i : Nat) : Channel :=
  { c with lanes := c.lanes.modify i (fun l => { l with queue := l.queue.tail }) }

/-- Takes back what is out on lane `i`. -/
def release (c : Channel) (i : Nat) : Channel :=
  { c with lanes := c.lanes.modify i (fun l => { l with inFlight := none }) }

/-- Puts a message that was out on lane `i` back to its head. -/
def restore (c : Channel) (i : Nat) (m : Message) : Channel :=
  { c with lanes := c.lanes.modify i (fun l => { queue := m :: l.queue, inFlight := none }) }

end Channel

/-- A broker whose channels have `lanes` lanes each. -/
structure Broker where
  lanes : UInt32
  channels : Table String Channel := ∅
  lastId : Int64 := 0
  closed : Bool := false
  /-- Whether publishing fails. -/
  unreachable : Bool := false

namespace Broker

/-- The number of lanes where none is asked for. -/
def defaultLanes : UInt32 := 16

/-- A broker without messages. A channel has at least one lane. -/
def new (lanes : UInt32) : Broker := { lanes := max lanes 1 }

/-- The channel of that name, empty if nothing was ever put on it. -/
def channel (b : Broker) (name : String) : Channel :=
  (b.channels.get? name).getD (.fresh b.lanes)

def pending (b : Broker) (name : String) : Nat :=
  match b.channels.get? name with
  | some c => c.pending
  | none => 0

/-- Changes a channel, which comes into being if it was not there. -/
def setChannel (b : Broker) (name : String) (c : Channel) : Broker :=
  { b with channels := b.channels.insert name c }

/-- Puts a message at the end of the lane of its key. -/
def enqueue (b : Broker) (name : String) (m : Message) : Broker :=
  b.setChannel name ((b.channel name).push (laneOf m.key b.lanes).toNat m)

/-- Publishes a message under the next number; the number. -/
def publish (b : Broker) (now : Timestamp) (name key : String) (payload : ByteArray) :
    Except BrokerError Int64 × Broker :=
  if b.closed then (.error .closed, b)
  else if b.unreachable then (.error (.publish "broker unreachable"), b)
  else
    let id := b.lastId + 1
    (.ok id, { b with lastId := id }.enqueue name ⟨id, key, payload, 0, now⟩)

/-- What comes of looking for a message. -/
inductive Taken where
  | nothing
  | message (d : Delivery)
  /-- The receiver has stopped over the count of the message, which is gone. -/
  | stopped
deriving DecidableEq

/-- Takes the next message of a channel, if a lane has one and nothing out. -/
def takeIn (o : Overflow) (b : Broker) (name : String) : Taken × Broker :=
  match b.channels.get? name with
  | none => (.nothing, b)
  | some c =>
    match c.next? with
    | none => (.nothing, b)
    | some (i, m) =>
      match o.next32? m.count with
      | none => (.stopped, b.setChannel name (c.drop i))
      | some count =>
        (.message ⟨m.id, name, m.key, UInt32.ofNat i, m.payload, count, m.publishedAt⟩,
          b.setChannel name (c.handOut i { m with count }))

/-- Hands out the next message of a channel, if there is one. -/
def receiveIn (o : Overflow) (b : Broker) (name : String) : Except BrokerError Taken × Broker :=
  if b.closed then (.error .closed, b) else (.ok (b.takeIn o name).1, (b.takeIn o name).2)

def Taken.delivery? : Taken → Option Delivery
  | .message d => some d
  | .nothing | .stopped => none

/-- Takes the next message as a program does whose counts start over. -/
def take (b : Broker) (name : String) : Option Delivery × Broker :=
  ((b.takeIn .wraps name).1.delivery?, (b.takeIn .wraps name).2)

/-- Hands out the next message as a program does whose counts start over. -/
def receive (b : Broker) (name : String) : Except BrokerError (Option Delivery) × Broker :=
  if b.closed then (.error .closed, b) else (.ok (b.take name).1, (b.take name).2)

/-- The message that a delivery stands for, if it is out under that channel, lane and number. -/
def inFlight? (b : Broker) (d : Delivery) : Option (Channel × Message) := do
  let c ← b.channels.get? d.channel
  let l ← c.lanes[d.lane.toNat]?
  let m ← l.inFlight
  if m.id = d.id then some (c, m) else none

def settle (b : Broker) (d : Delivery) (s : Settlement) : Except BrokerError Unit × Broker :=
  match b.inFlight? d with
  | none => (.error (.unknownDelivery d.channel d.id), b)
  | some (c, m) =>
    let i := d.lane.toNat
    (.ok (), match s with
      | .acknowledge => b.setChannel d.channel (c.release i)
      | .requeue => b.setChannel d.channel (c.restore i m)
      | .setAside _ =>
        (b.setChannel d.channel (c.release i)).enqueue (setAsideChannel d.channel)
          { m with count := 0 })

/-- Stops publishing and receiving for good. -/
def close (b : Broker) : Broker := { b with closed := true }

end Broker

end SpendingLedger
