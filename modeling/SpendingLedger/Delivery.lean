import SpendingLedger.Timestamp.Basic
import SpendingLedger.Digest.Blake3
import SpendingLedger.Text.Integer

/-!
Messages on their way: what a receiver holds, what it does with it, and what can go wrong. Messages
of one key share a lane of their channel.
-/

namespace SpendingLedger

/-- A message handed out to a receiver. -/
structure Delivery where
  id : Int64
  channel : String
  key : String
  lane : UInt32
  payload : ByteArray
  /-- How often the message has been handed out, this time included. -/
  count : UInt32
  publishedAt : Timestamp
deriving DecidableEq

/-- What a receiver does with a message it holds. -/
inductive Settlement where
  | acknowledge
  /-- Back to the head of its lane. -/
  | requeue
  /-- To the channel of messages given up. -/
  | setAside (reason : String)
deriving DecidableEq, Repr

inductive BrokerError where
  | publish (reason : String)
  /-- The message is not out under this channel, lane and number. -/
  | unknownDelivery (channel : String) (id : Int64)
  | closed
  | database
deriving DecidableEq, Repr

/-- The wording of a broker error. What a database says is not repeated. -/
def BrokerError.message : BrokerError → String
  | .publish reason => s!"Publish error: {reason}"
  | .unknownDelivery channel id => s!"Unknown delivery {Text.ofInt id.toInt} on channel {channel}"
  | .closed => "Broker closed"
  | .database => "Database error"

/-- The channel for messages of `channel` that are given up. -/
def setAsideChannel (channel : String) : String := channel ++ ".dead_letter"

/-- The lane of a key: the first word of its hash modulo the number of lanes, which counts as at
least one. -/
def laneOf (key : String) (lanes : UInt32) : UInt32 :=
  Digest.firstWord key.toUTF8.toList % max lanes 1

end SpendingLedger
