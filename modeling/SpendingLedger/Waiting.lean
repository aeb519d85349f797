import SpendingLedger.Broker

/-!
Receivers that wait. A receiver registers for notifications before it looks whether there is a
message, and sleeps only if it found none; whoever changes the broker sends a notification
afterwards, which reaches all who have registered. The steps of receivers and of those who change
the broker may come in any order.
-/

namespace SpendingLedger

/-- Where a receiver stands. `notified` says whether a notification has come since it registered. -/
inductive Receiver.Phase where
  | idle
  | registered (notified : Bool)
  /-- The broker was seen to be open. -/
  | admitted (notified : Bool)
  /-- Nothing was there to receive. -/
  | waiting (notified : Bool)
  | finished (outcome : Except BrokerError Delivery)

/-- A receiver on a channel. -/
structure Receiver where
  channel : String
  phase : Receiver.Phase := .idle

/-- The receiver after a notification. -/
def Receiver.notify (r : Receiver) : Receiver :=
  { r with phase := match r.phase with
    | .registered _ => .registered true
    | .admitted _ => .admitted true
    | .waiting _ => .waiting true
    | p => p }

def Receiver.outcome? (r : Receiver) : Option (Except BrokerError Delivery) :=
  match r.phase with
  | .finished outcome => some outcome
  | _ => none

/-- A broker with receivers on it. -/
structure Room where
  broker : Broker
  receivers : List Receiver := []
  /-- Changes of which no notification has been sent yet. -/
  owed : Nat := 0

namespace Room

inductive Change where
  | publish (now : Timestamp) (channel key : String) (payload : ByteArray)
  | settle (d : Delivery) (s : Settlement)
  | close

/-- The broker after a change, and whether there is something to notify of. -/
def Change.apply (b : Broker) : Change → Broker × Bool
  | .publish now channel key payload =>
    match b.publish now channel key payload with
    | (.ok _, b) => (b, true)
    | (.error _, b) => (b, false)
  | .settle d s =>
    match b.settle d s with
    | (.ok _, b) => (b, true)
    | (.error _, b) => (b, false)
  | .close => (b.close, true)

inductive Step where
  | advance (i : Nat)
  | change (c : Change)
  | notify

/-- The next step of a receiver: register, see whether the broker is open, try to receive, sleep
until notified and start anew. -/
def advanceReceiver (b : Broker) (r : Receiver) : Receiver × Broker :=
  match r.phase with
  | .idle => ({ r with phase := .registered false }, b)
  | .registered notified =>
    ({ r with phase := if b.closed then .finished (.error .closed) else .admitted notified }, b)
  | .admitted notified =>
    -- a close that came after the look at it is noticed on the next round
    match b.take r.channel with
    | (some d, b) => ({ r with phase := .finished (.ok d) }, b)
    | (none, b) => ({ r with phase := .waiting notified }, b)
  | .waiting true => ({ r with phase := .idle }, b)
  | .waiting false | .finished _ => (r, b)

def step (room : Room) : Step → Room
  | .advance i =>
    match room.receivers[i]? with
    | none => room
    | some r =>
      let (r, b) := advanceReceiver room.broker r
      { room with broker := b, receivers := room.receivers.set i r }
  | .change c =>
    let (b, changed) := c.apply room.broker
    { room with broker := b, owed := if changed then room.owed + 1 else room.owed }
  | .notify =>
    if room.owed = 0 then room
    else { room with receivers := room.receivers.map Receiver.notify, owed := room.owed - 1 }

def run (room : Room) (steps : List Step) : Room := steps.foldl step room

/-- One round of a receiver, from waking up to sleeping or an outcome. -/
def round (i : Nat) : List Step := [.advance i, .advance i, .advance i, .advance i]

end Room

end SpendingLedger
