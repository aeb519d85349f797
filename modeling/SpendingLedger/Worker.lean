import SpendingLedger.Notice
import SpendingLedger.RetryPolicy

/-!
Working off a message: hand it to a handler, then settle it as its verdict and the policy on
retries demand.
-/

namespace SpendingLedger

/-- Programs that can publish and settle messages. -/
class Transport (m : Type → Type) where
  publish : (channel key : String) → ByteArray → m (Except BrokerError Unit)
  settle : Delivery → Settlement → m (Except BrokerError Unit)

/-- Handles a message and settles it; how it was settled. -/
def Worker.process {m : Type → Type} [Monad m] [Reporting m] [Transport m]
    (policy : RetryPolicy) (handle : Delivery → m Verdict) (d : Delivery) :
    m (Except BrokerError Settlement) := do
  Reporting.report (.messageReceived d)
  let settlement := policy.settlement d.count (← handle d)
  if settlement = .requeue then
    Reporting.report (.messageRequeued d)
  match ← Transport.settle d settlement with
  | .ok () => return .ok settlement
  | .error e => return .error e

end SpendingLedger
