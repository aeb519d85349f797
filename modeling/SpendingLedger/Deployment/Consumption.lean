import SpendingLedger.Deployment.Basic

/-!
Working off the channel of a deployment: one message, all that can be received, or by workers that
run until nothing is left to do. A worker that fails to receive pauses, and one that finds nothing
waits; neither ends before it is asked to. Workers that pause do so for the same time and come back
together; a request to stop does not cut their pause short, so they are the last to go. A message
that could not be settled stays out.
-/

namespace SpendingLedger.Deployment

/-! ### Single messages -/

/-- Lets the handler act, and reports what it has to say. -/
def consultHandler (act : Handler → Verdict × List Notice × Handler) : Action Verdict := do
  let (verdict, notices, handler) := act (← get).handler
  modify fun s => { s with handler }
  notices.forM Reporting.report
  return verdict

def count (d : Delivery) : Action Verdict := consultHandler (·.count d)

def handle (d : Delivery) : Action Verdict := consultHandler (·.handle d)

def process (d : Delivery) : Action (Except BrokerError Settlement) := do
  Worker.process (← get).policy handle d

/-- An action with verdicts laid out for its messages. -/
def withVerdicts {α : Type} (verdicts : Option (List Verdict)) (act : Action α) : Action α := do
  modify fun s => { s with handler := { s.handler with verdicts } }
  let result ← act
  modify fun s => { s with handler := { s.handler with verdicts := none } }
  return result

/-- What came of an attempt to receive and process a message. -/
inductive Attempt where
  | refused (e : BrokerError)
  | processed (d : Delivery) (outcome : Except BrokerError Settlement)

/-- Receives and processes messages until there are none, up to the number given. -/
def drain (channel : String) : Nat → Action (List Attempt)
  | 0 => return []
  | n + 1 => do
    match ← receive channel with
    | .error e => return [.refused e]
    | .ok none => return []
    | .ok (some d) =>
      let outcome ← process d
      return .processed d outcome :: (← drain channel n)

/-! ### Workers -/

/-- Why a worker came to rest. -/
inductive Rest where
  | waiting
  | paused
  | ended
deriving DecidableEq, Repr

/-- The next message for a worker, if there is one. -/
def receiveForWorker : Action (Except BrokerError (Option Delivery)) := do
  let s ← get
  if 0 < s.receiveFaults then
    set { s with receiveFaults := s.receiveFaults - 1 }
    return .error linkFault
  else receive s.channel

/-- Works until the worker comes to rest, or has seen as many messages as given. -/
def work (channel : String) : Nat → Action Rest
  | 0 => return .waiting
  | n + 1 => do
    match ← receiveForWorker with
    | .error .closed => return .ended
    | .error _ =>
      Reporting.report (.receiveFailed channel)
      return .paused
    | .ok none => return .waiting
    | .ok (some d) =>
      if let .error _ := ← process d then
        Reporting.report (.settleFailed channel d.id)
      work channel n

/-- A number of messages that no turn of a worker exceeds: each message once, and once more for
every verdict that may send it back. -/
def workload (s : Deployment) : Nat :=
  s.broker.pending s.channel + (s.handler.verdicts.getD []).length + 1

structure Resting where
  waiting : Nat := 0
  paused : Nat := 0

def turn (r : Resting) : Action Resting := do
  let s ← get
  match ← work s.channel s.workload with
  | .waiting => return { r with waiting := r.waiting + 1 }
  | .paused => return { r with paused := r.paused + 1 }
  | .ended =>
    Reporting.report (.consumerStopped s.channel)
    return r

/-- The first turn of a worker. One that is asked to stop beforehand takes no message. -/
def start (stopped : Bool) (r : Resting) (worker : Nat) : Action Resting := do
  let s ← get
  if s.handler.verdicts.isNone then
    Reporting.report (.workerStarting worker s.channel)
  Reporting.report (.consumerStarted s.channel)
  if stopped then
    Reporting.report (.consumerStopped s.channel)
    return r
  else turn r

/-- Lets the paused workers go on, all that paused together in one round, as long as messages are
pending, for as many rounds as given. -/
def resume : Nat → Resting → Action Resting
  | 0, r => return r
  | n + 1, r => do
    let s ← get
    if 0 < r.paused ∧ s.broker.pending s.channel ≠ 0 then
      let round ← (List.range r.paused).foldlM (fun next _ => turn next) { r with paused := 0 }
      resume n round
    else return r

inductive Exit where
  | finished
  | failed
  | panicked
deriving DecidableEq, Repr

/-- What is reported of a worker that went. -/
def Exit.notice (remaining : Nat) : Exit → Notice
  | .finished => .workerExited remaining
  | .failed => .workerFailed remaining
  | .panicked => .workerPanicked remaining

/-- Reports workers as they go, while others are yet to follow; how many did not finish. -/
def await (others : Nat) : List Exit → Action Nat
  | [] => return 0
  | exit :: rest => do
    Reporting.report (exit.notice (rest.length + others))
    let failed ← await others rest
    return if exit = .finished then failed else failed + 1

/-- How many workers there are of those asked for: one if verdicts are laid out, and never none. -/
def crew (s : Deployment) (workers : Nat) : Nat :=
  if s.handler.verdicts.isSome then 1 else max workers 1

/-- Stops as many resting workers as given, which go in a group of their own along with those that
have ended already. How many failed. -/
def release (resting ended others : Nat) : Action Nat := do
  let channel := (← get).channel
  (List.replicate resting ()).forM fun _ => Reporting.report (.consumerStopped channel)
  await others (List.replicate (resting + ended) .finished)

/-- Runs workers until nothing more can happen, then stops them: those that wait at once, those that
pause when their pause is over. How many failed. -/
def run (workers : Nat) (stopped : Bool) : Action Nat := do
  let n := (← get).crew workers
  let resting ← (List.range n).foldlM (start stopped) {}
  let resting ← resume ((← get).receiveFaults + 1) resting
  let ended := n - resting.waiting - resting.paused
  let failed ← release resting.waiting ended resting.paused
  return failed + (← release resting.paused 0 0)

end SpendingLedger.Deployment
