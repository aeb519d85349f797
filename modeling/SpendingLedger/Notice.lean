import SpendingLedger.Delivery
import SpendingLedger.Event

/-!
Notices: what the program reports about itself as it runs, each with a level, a text and named
fields.
-/

namespace SpendingLedger

/-- Something worth reporting. -/
inductive Notice where
  | transactionCreated (t : Transaction) (newTotal : Decimal)
  | capExceeded (user : UserId) (total : Decimal) (requested : Amount) (cap : Decimal)
  | transactionsPaid (user : UserId) (count : UInt64)
  | messagePublished (channel key : String) (lane : UInt32) (id : Int64)
  | eventPublished (kind : Event.Kind) (user : UserId) (channel : String)
  | eventDropped (kind : Event.Kind) (user : UserId) (channel : String)
  | messageReceived (d : Delivery)
  | messageRequeued (d : Delivery)
  | messageSetAside (d : Delivery) (reason : String)
  | consumerStarted (channel : String)
  | consumerStopped (channel : String)
  | receiveFailed (channel : String)
  | settleFailed (channel : String) (id : Int64)
  | eventProcessed (kind : Event.Kind) (user : UserId) (lane : UInt32)
  | eventRejected (kind : Event.Kind) (user : UserId) (id : Int64)
  | eventUnknown (tag : String) (id : Int64)
  | eventUndecodable (channel : String) (id : Int64)
  | workerStarting (worker : Nat) (channel : String)
  | workerExited (remaining : Nat)
  | workerFailed (remaining : Nat)
  | workerPanicked (remaining : Nat)
  | requestArrived (method uri : String)
  | requestCompleted (method uri status : String)
  | storeFailed
  | leasesReclaimed (count : UInt64)
  | messagesPurged (count : UInt64)
  | schedulerStarted
  | reclaimFailed
  | purgeFailed
  | tableMissing (table : String)

namespace Notice

/-- How much a notice matters. -/
inductive Level where
  | error
  | warn
  | info
  | debug
deriving DecidableEq, Repr

def Level.name : Level → String
  | error => "ERROR"
  | warn => "WARN"
  | info => "INFO"
  | debug => "DEBUG"

inductive Value where
  | number (n : Int)
  | text (s : String)
deriving DecidableEq, Repr

def userField (u : UserId) : String × Value := ("user_id", .text u.toText)

def channelField (name : String) : String × Value := ("channel", .text name)

def idField (id : Int64) : String × Value := ("message_id", .number id.toInt)

def kindField (k : Event.Kind) : String × Value := ("event_type", .text k.tag)

def laneField (lane : UInt32) : String × Value := ("lane", .number lane.toNat)

def countField (count : UInt32) : String × Value := ("delivery_count", .number count.toNat)

def remainingField (n : Nat) : String × Value := ("remaining", .number n)

def level : Notice → Level
  | capExceeded .. | messageRequeued _ | messageSetAside .. | leasesReclaimed _ => .warn
  | eventDropped .. | receiveFailed _ | settleFailed .. | eventRejected ..
  | eventUndecodable .. | workerFailed _ | workerPanicked _ | storeFailed | reclaimFailed
  | purgeFailed | tableMissing _ => .error
  | messagePublished .. | messageReceived _ | eventUnknown .. | workerStarting ..
  | requestArrived .. => .debug
  | _ => .info

def text : Notice → String
  | transactionCreated .. => "Transaction created"
  | capExceeded .. => "Transaction rejected: cap exceeded"
  | transactionsPaid .. => "Transactions paid"
  | messagePublished .. => "Message published"
  | eventPublished .. => "Event published"
  | eventDropped .. => "Failed to publish event, dropping it"
  | messageReceived _ => "Message received"
  | messageRequeued _ => "Failed to handle message, requeueing"
  | messageSetAside .. => "Message moved to dead-letter channel"
  | consumerStarted _ => "Consumer started"
  | consumerStopped _ => "Consumer stopped"
  | receiveFailed _ => "Failed to receive message"
  | settleFailed .. => "Failed to settle message"
  | eventProcessed .. => "Event processed"
  | eventRejected .. => "Event rejected by projection"
  | eventUnknown .. => "Ignoring unknown event type"
  | eventUndecodable .. => "Failed to decode event"
  | workerStarting .. => "Analytics worker starting"
  | workerExited _ => "Analytics worker exited"
  | workerFailed _ => "Analytics worker failed"
  | workerPanicked _ => "Analytics worker panicked"
  | requestArrived .. => "Incoming request"
  | requestCompleted .. => "Request completed"
  | storeFailed => "Store error"
  | leasesReclaimed _ => "Reclaimed expired broker leases"
  | messagesPurged _ => "Purged settled broker messages"
  | schedulerStarted => "Job scheduler started"
  | reclaimFailed => "Lease reclaim failed"
  | purgeFailed => "Message purge failed"
  | tableMissing _ => "Required table does not exist"

def fields : Notice → List (String × Value)
  | transactionCreated t newTotal =>
    [("transaction_id", .number t.id.toInt), userField t.user, ("amount", .text t.amount.toText),
      ("new_total", .text newTotal.toText)]
  | capExceeded user total requested cap =>
    [userField user, ("current_total", .text total.toText),
      ("requested", .text requested.toText), ("max_allowed", .text cap.toText)]
  | transactionsPaid user count => [userField user, ("paid_count", .number count.toNat)]
  | messagePublished channel key lane id =>
    [channelField channel, ("key", .text key), laneField lane, idField id]
  | eventPublished kind user channel | eventDropped kind user channel =>
    [kindField kind, userField user, channelField channel]
  | messageReceived d =>
    [channelField d.channel, idField d.id, laneField d.lane, countField d.count]
  | messageRequeued d => [channelField d.channel, idField d.id, countField d.count]
  | messageSetAside d reason =>
    [channelField d.channel, idField d.id, countField d.count, ("reason", .text reason)]
  | consumerStarted channel | consumerStopped channel | receiveFailed channel =>
    [channelField channel]
  | settleFailed channel id | eventUndecodable channel id => [channelField channel, idField id]
  | eventProcessed kind user lane => [kindField kind, userField user, laneField lane]
  | eventRejected kind user id => [kindField kind, userField user, idField id]
  | eventUnknown tag id => [("event_type", .text tag), idField id]
  | workerStarting worker channel => [("worker", .number worker), channelField channel]
  | workerExited n | workerFailed n | workerPanicked n => [remainingField n]
  | requestArrived method uri => [("method", .text method), ("uri", .text uri)]
  | requestCompleted method uri status =>
    [("method", .text method), ("uri", .text uri), ("status", .text status)]
  | leasesReclaimed count => [("rows_affected", .number count.toNat)]
  | messagesPurged count => [("rows_deleted", .number count.toNat)]
  | tableMissing table => [("table", .text table)]
  | storeFailed | schedulerStarted | reclaimFailed | purgeFailed => []

end Notice

class Reporting (m : Type → Type) where
  report : Notice → m Unit

end SpendingLedger
