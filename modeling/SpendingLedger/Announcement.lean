import SpendingLedger.Worker

/-!
Announcing events: a message per event on one channel, keyed by the user it is about. An
announcement that fails is reported and given up.
-/

namespace SpendingLedger

/-- Why an event was not announced. -/
inductive AnnouncementError where
  | broker (e : BrokerError)
  /-- The task that announces broke off. -/
  | task (reason : String)
deriving DecidableEq, Repr

def AnnouncementError.message : AnnouncementError → String
  | .broker e => s!"Broker error: {e.message}"
  | .task reason => s!"Emission task failed: {reason}"

namespace Announcement

variable {m : Type → Type} [Monad m] [Reporting m] [Transport m]

def publish (channel : String) (e : Event) : m (Except AnnouncementError Unit) := do
  match ← Transport.publish channel e.user.routingKey e.encode with
  | .error err => return .error (.broker err)
  | .ok () =>
    Reporting.report (.eventPublished e.kind e.user channel)
    return .ok ()

/-- Publishes an event, and reports if that fails. -/
def deliver (channel : String) (e : Event) : m (Except AnnouncementError Unit) := do
  let outcome ← publish channel e
  match outcome with
  | .error _ => Reporting.report (.eventDropped e.kind e.user channel)
  | .ok () => pure ()
  return outcome

/-- Publishes events one after the other; each with what came of it. -/
def deliverAll (channel : String) (events : List Event) :
    m (List (Event × Except AnnouncementError Unit)) :=
  events.mapM fun e => return (e, ← deliver channel e)

end Announcement

end SpendingLedger
