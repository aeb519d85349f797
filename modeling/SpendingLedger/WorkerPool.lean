import SpendingLedger.Broker
import SpendingLedger.RetryPolicy

/-!
Workers on one channel of a broker. A worker takes a message, handles it and settles it, one at a
time; it looks at the request to stop, and at the end of the broker, only between messages. The
steps of the workers may come in any order, mixed with what others do to the broker.
-/

namespace SpendingLedger

inductive WorkerState where
  | idle
  | holding (d : Delivery)
  /-- The message has been handled. -/
  | handled (d : Delivery) (s : Settlement)
  | stopped
deriving DecidableEq

/-- The message that a worker has in hand. -/
def WorkerState.delivery? : WorkerState → Option Delivery
  | .holding d | .handled d _ => some d
  | .idle | .stopped => none

/-- Workers on a channel. -/
structure WorkerPool where
  broker : Broker
  channel : String
  policy : RetryPolicy
  workers : List WorkerState
  /-- Whether the workers are asked to stop. -/
  stopping : Bool := false

namespace WorkerPool

inductive Action where
  | receive (i : Nat)
  | handle (i : Nat) (v : Verdict)
  | settle (i : Nat)
  | publish (now : Timestamp) (channel key : String) (payload : ByteArray)
  | setStopping (stop : Bool)
  | close
deriving DecidableEq

/-- The pool with another state of worker `i`. -/
def setWorker (p : WorkerPool) (i : Nat) (w : WorkerState) : WorkerPool :=
  { p with workers := p.workers.set i w }

/-- An idle worker stops if asked to or if the broker is closed, and takes a message otherwise. -/
def receive (p : WorkerPool) (i : Nat) : WorkerPool :=
  if p.stopping then p.setWorker i .stopped
  else
    match p.broker.receive p.channel with
    | (.error _, _) => p.setWorker i .stopped
    | (.ok none, _) => p
    | (.ok (some d), b) => { p with broker := b }.setWorker i (.holding d)

/-- The answer of the broker to the settlement of worker `i`, if it has one to make. -/
def settlementAnswer? (p : WorkerPool) (i : Nat) : Option (Except BrokerError Unit) :=
  match p.workers[i]? with
  | some (.handled d s) => some (p.broker.settle d s).1
  | _ => none

/-- The pool after one action. An action that does not fit the state of its worker does nothing. -/
def step (p : WorkerPool) : Action → WorkerPool
  | .receive i =>
    match p.workers[i]? with
    | some .idle => p.receive i
    | _ => p
  | .handle i v =>
    match p.workers[i]? with
    | some (.holding d) => p.setWorker i (.handled d (p.policy.settlement d.count v))
    | _ => p
  | .settle i =>
    match p.workers[i]? with
    | some (.handled d s) => { p with broker := (p.broker.settle d s).2 }.setWorker i .idle
    | _ => p
  | .publish now channel key payload =>
    { p with broker := (p.broker.publish now channel key payload).2 }
  | .setStopping stop => { p with stopping := stop }
  | .close => { p with broker := p.broker.close }

def run (p : WorkerPool) (actions : List Action) : WorkerPool := actions.foldl step p

end WorkerPool

end SpendingLedger
