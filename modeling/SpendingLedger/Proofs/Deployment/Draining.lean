import SpendingLedger.Proofs.Broker.Progress
import SpendingLedger.Proofs.Deployment.Pipeline
import SpendingLedger.Proofs.Deployment.Processing
import SpendingLedger.Proofs.Statistics.Acceptance

/-!
Working off a channel, whatever is on it. A message that holds no event, or one that does not fit,
is given up; every other is acknowledged. As nothing is ever put back, the channel is empty after as
many turns as there were messages, and the statistics have counted every event that fits.
-/

namespace SpendingLedger

namespace Deployment

namespace Attempt

def delivery? : Attempt → Option Delivery
  | .refused _ => none
  | .processed d _ => some d

def event? (a : Attempt) : Option Event := a.delivery?.bind fun d => Pipeline.eventOf? d.letter

/-- The delivery, if its message was given up. -/
def setAside? : Attempt → Option Delivery
  | .processed d (.ok (.setAside _)) => some d
  | _ => none

/-- What has to come of a message, as the statistics are when it is processed. -/
inductive Judged (s : Statistics) : Attempt → Prop
  | counted {d : Delivery} {e : Event} {s' : Statistics}
      (hdecode : Event.decode d.payload = .ok (.event e)) (happly : s.apply e = .ok s') :
    Judged s (.processed d (.ok .acknowledge))
  | passedOver {d : Delivery} {tag : String}
      (hdecode : Event.decode d.payload = .ok (.unknown tag)) :
    Judged s (.processed d (.ok .acknowledge))
  | rejected {d : Delivery} {e : Event} {c : Statistics.Counter}
      (hdecode : Event.decode d.payload = .ok (.event e)) (happly : s.apply e = .error c) :
    Judged s (.processed d (.ok (.setAside c.overflow)))
  | undecodable {d : Delivery} {fault : Json.Fault} (hdecode : Event.decode d.payload = .error fault) :
    Judged s (.processed d (.ok (.setAside s!"undecodable envelope: {fault.summary}")))

/-- The statistics judge a message so, whatever the policy on retries, and count its event if it
fits. -/
theorem judged_handle (s : Statistics) (p : RetryPolicy) (d : Delivery) :
    (processed d (.ok (p.settlement d.count (s.handle d).verdict))).Judged s ∧
      ∀ outcome, (s.handle d).statistics =
        (processed d outcome).event?.toList.foldl Statistics.absorb s := by
  simp only [Statistics.handle, event?, delivery?, Option.bind_some, Pipeline.eventOf?,
    Delivery.letter]
  cases hdecode : Event.decode d.payload with
  | error fault => exact ⟨.undecodable hdecode, fun _ => rfl⟩
  | ok envelope =>
    cases envelope with
    | unknown tag => exact ⟨.passedOver hdecode, fun _ => rfl⟩
    | event e =>
      simp only [Option.toList_some, List.foldl_cons, List.foldl_nil, Statistics.run_record]
      cases happly : s.apply e with
      | ok s' =>
        exact ⟨.counted hdecode happly, fun _ => (Statistics.absorb_of_ok happly).symm⟩
      | error c =>
        exact ⟨.rejected hdecode happly, fun _ => (Statistics.absorb_of_error happly).symm⟩

end Attempt

/-- Receiving and processing as long as anything is pending on a channel: what came of it, and the
deployment afterwards. -/
inductive WorksOff (name : String) : Deployment → List Attempt → Deployment → Prop
  | done {s : Deployment} (h : s.broker.pending name = 0) : WorksOff name s [] s
  | turn {s s₁ s₂ s' : Deployment} {d : Delivery} {outcome : Except BrokerError Settlement}
      {attempts : List Attempt} (h : 0 < s.broker.pending name)
      (hreceive : (receive name).run s = (.ok (some d), s₁))
      (hprocess : (process d).run s₁ = (outcome, s₂)) (hrest : WorksOff name s₂ attempts s') :
    WorksOff name s (.processed d outcome :: attempts) s'

/-! ### One turn -/

/-- The channel can be worked off: the broker is open, nothing is out, and messages go to the
statistics. -/
structure Ready (s : Deployment) (name : String) : Prop where
  shaped : s.broker.Shaped
  closed_eq : s.broker.closed = false
  rested : s.broker.Rested name
  verdicts_eq : s.handler.verdicts = none
  settleFaults_eq : s.settleFaults = 0

/-- What one turn does: it takes the head of a lane and is done with it. -/
structure Turned (name : String) (s : Deployment) (d : Delivery) (how : Settlement)
    (s' : Deployment) : Prop where
  judged : (Attempt.processed d (.ok how)).Judged s.handler.statistics
  statistics_eq : s'.handler.statistics =
    (Attempt.processed d (.ok how)).event?.toList.foldl Statistics.absorb s.handler.statistics
  served : s.broker.Served name d (Attempt.processed d (.ok how)).setAside?.toList s'.broker

variable {s s' : Deployment} {name : String} {attempts : List Attempt}

/-- A message that is handed out and judged is settled at once, and not put back. -/
theorem Ready.serve (h : s.Ready name) (hpending : 0 < s.broker.pending name) :
    ∃ d how b₁ b₂, s.broker.take name = (some d, b₁) ∧
      s.policy.settlement d.count (s.handler.statistics.handle d).verdict = how ∧
      (Attempt.processed d (.ok how)).Judged s.handler.statistics ∧ b₁.settle d how = (.ok (), b₂) ∧
      s.broker.Served name d (Attempt.processed d (.ok how)).setAside?.toList b₂ := by
  obtain ⟨d, b₁, htake, ⟨b₂, hok, hserved⟩, hsetAside⟩ := h.rested.serve h.shaped hpending
  obtain ⟨hjudged, -⟩ := Attempt.judged_handle s.handler.statistics s.policy d
  generalize hhow : s.policy.settlement d.count (s.handler.statistics.handle d).verdict = how at *
  cases how with
  | acknowledge => exact ⟨d, _, b₁, b₂, htake, hhow, hjudged, hok, hserved⟩
  | requeue => cases hjudged
  | setAside reason =>
    obtain ⟨b₂, hok, hserved⟩ := hsetAside reason
    exact ⟨d, _, b₁, b₂, htake, hhow, hjudged, hok, hserved⟩

theorem run_receive (s : Deployment) (name : String) : (receive name).run s =
    ((s.broker.receive name).1, { s with broker := (s.broker.receive name).2 }) := rfl

theorem Ready.turn (h : s.Ready name) (hpending : 0 < s.broker.pending name) :
    ∃ d how s₁ s₂, (receive name).run s = (.ok (some d), s₁) ∧
      (process d).run s₁ = (.ok how, s₂) ∧ s₂.Ready name ∧ Turned name s d how s₂ := by
  obtain ⟨d, how, b₁, b₂, htake, hhow, hjudged, hsettle, hserved⟩ := h.serve hpending
  have hreceive : (receive name).run s = (.ok (some d), { s with broker := b₁ }) := by
    simp only [run_receive, Broker.receive, h.closed_eq, htake, Bool.false_eq_true, ↓reduceIte]
  have hhandle : s.handler.handle d = ((s.handler.statistics.handle d).verdict,
      [(s.handler.statistics.handle d).notice],
      { s.handler with statistics := (s.handler.statistics.handle d).statistics }) := by
    rw [Handler.handle, h.verdicts_eq]
    rfl
  obtain ⟨setAside, notices, hprocess⟩ := run_process_eq (s := { s with broker := b₁ })
    h.settleFaults_eq (by rw [hhandle]; exact hhow) hsettle
  rw [hhandle] at hprocess
  have hstatistics := (Attempt.judged_handle s.handler.statistics s.policy d).2 (.ok how)
  exact ⟨d, how, _, _, hreceive, hprocess,
    ⟨hserved.shaped, hserved.closed_eq.trans h.closed_eq, hserved.rested, h.verdicts_eq,
      h.settleFaults_eq⟩, hjudged, hstatistics, hserved⟩

/-! ### All turns -/

/-- The channel is worked off: every message has gone out once, lane by lane in the order of the
queue, and was acknowledged, or set aside if it holds no event or one that does not fit. -/
structure WorkedOff (name : String) (s : Deployment) (attempts : List Attempt) (s' : Deployment) :
    Prop where
  length_eq : attempts.length = s.broker.pending name
  pending_eq : s'.broker.pending name = 0
  deliveries_eq : ∀ i, (attempts.filterMap Attempt.delivery?).filter (·.lane.toNat = i) =
    (s.broker.laneAt name i).queue.map fun m => { m with count := m.count + 1 }.delivery name i
  /-- Each message is judged by what the statistics have counted before. -/
  judged : ∀ earlier a later, attempts = earlier ++ a :: later →
    a.Judged ((earlier.filterMap Attempt.event?).foldl Statistics.absorb s.handler.statistics)
  statistics_eq : s'.handler.statistics =
    (attempts.filterMap Attempt.event?).foldl Statistics.absorb s.handler.statistics
  setAside_eq : ∀ i, s'.broker.laneAt (setAsideChannel name) i =
    (s.broker.laneAt (setAsideChannel name) i).extend
      (((attempts.filterMap Attempt.setAside?).filter (·.lane.toNat = i)).map Delivery.givenUp)
  channel_eq : ∀ name', name' ≠ name → name' ≠ setAsideChannel name →
    s'.broker.channel name' = s.broker.channel name'

theorem workedOff_of_pending_eq_zero (h : s.broker.pending name = 0) : WorkedOff name s [] s where
  length_eq := h.symm
  pending_eq := h
  deliveries_eq i := by
    have hmessages := Broker.pending_eq_zero_iff.1 h i
    rw [Lane.messages, List.append_eq_nil_iff] at hmessages
    rw [hmessages.2]
    rfl
  judged earlier a later hsplit := by simp at hsplit
  statistics_eq := rfl
  setAside_eq i := by simp [Lane.extend]
  channel_eq _ _ _ := rfl

theorem filterMap_cons_eq {α β : Type} (f : α → Option β) (a : α) (l : List α) :
    (a :: l).filterMap f = (f a).toList ++ l.filterMap f := by
  simp only [List.filterMap_eq_flatMap_toList, List.flatMap_cons]

theorem WorkedOff.cons {s₂ : Deployment} {d : Delivery} {how : Settlement}
    (h : WorkedOff name s₂ attempts s') (hturned : Turned name s d how s₂) :
    WorkedOff name s (.processed d (.ok how) :: attempts) s' where
  length_eq := by rw [List.length_cons, h.length_eq, hturned.served.pending_eq]
  pending_eq := h.pending_eq
  deliveries_eq i := by
    obtain ⟨m, queue, hlane, hlane', hd⟩ := hturned.served.exists_head
    rw [List.filterMap_cons_some (rfl : (Attempt.processed d (.ok how)).delivery? = some d)]
    by_cases hi : d.lane.toNat = i
    · subst hi
      rw [List.filter_cons_of_pos (by simp), h.deliveries_eq, hlane, hlane', List.map_cons, ← hd]
    · rw [List.filter_cons_of_neg (by simpa using hi), h.deliveries_eq,
        hturned.served.laneAt_eq i (Ne.symm hi)]
  judged earlier a later hsplit := by
    cases earlier with
    | nil =>
      obtain ⟨rfl, -⟩ := List.cons.inj hsplit
      exact hturned.judged
    | cons first earlier =>
      obtain ⟨rfl, hrest⟩ := List.cons.inj hsplit
      have hjudged := h.judged earlier a later hrest
      rw [hturned.statistics_eq, ← List.foldl_append] at hjudged
      rwa [filterMap_cons_eq]
  statistics_eq := by
    rw [h.statistics_eq, hturned.statistics_eq, ← List.foldl_append, filterMap_cons_eq]
  setAside_eq i := by
    rw [h.setAside_eq, hturned.served.setAside_eq, filterMap_cons_eq, List.filter_append,
      List.map_append]
    simp only [Lane.extend, List.append_assoc]
  channel_eq name' hname hsetAside :=
    (h.channel_eq name' hname hsetAside).trans (hturned.served.channel_eq name' hname hsetAside)

/-- A channel that can be worked off is, in one turn for each message. -/
theorem Ready.worksOff (h : s.Ready name) :
    ∃ attempts s', WorksOff name s attempts s' ∧ WorkedOff name s attempts s' ∧ s'.Ready name := by
  induction hpending : s.broker.pending name generalizing s with
  | zero => exact ⟨[], s, .done hpending, workedOff_of_pending_eq_zero hpending, h⟩
  | succ n ih =>
    have hpos : 0 < s.broker.pending name := by omega
    obtain ⟨d, how, s₁, s₂, hreceive, hprocess, hready, hturned⟩ := h.turn hpos
    have hless := hturned.served.pending_eq
    obtain ⟨attempts, s', hworks, hworked, hready'⟩ := ih hready (by omega)
    exact ⟨_, s', .turn hpos hreceive hprocess hworks, hworked.cons hturned, hready'⟩

/-- Draining is the same loop, cut off after a number of turns, as long as that is high enough. -/
theorem WorksOff.run_drain (h : WorksOff name s attempts s') (hready : s'.Ready name) {n : Nat}
    (hn : attempts.length ≤ n) : (drain name n).run s = (attempts, s') := by
  induction h generalizing n with
  | @done s hpending =>
    have hreceive : (receive name).run s = (.ok none, s) := by
      simp only [run_receive, Broker.receive, hready.closed_eq,
        Broker.take_of_pending_eq_zero hpending, Bool.false_eq_true, ↓reduceIte]
    cases n with
    | zero => rfl
    | succ n =>
      rw [drain, run_bind, hreceive]
      rfl
  | turn hpending hreceive hprocess hrest ih =>
    cases n with
    | zero => simp at hn
    | succ n =>
      rw [drain, run_bind, hreceive]
      simp only
      rw [run_bind, hprocess]
      simp only
      rw [run_bind, ih hready (by simpa using hn)]
      rfl

/-- Whatever is on a channel of an open broker that has nothing of it out: the channel can be worked
off in as many turns as messages are pending, whatever the policy and the statistics, and then what
holds no event or one that does not fit is on the channel of messages given up, and every other
event is counted. -/
theorem channel_worked_off (lanes : UInt32) (ops : List Operation) {s : Deployment} {name : String}
    (hbroker : s.broker = ((History.new lanes).run ops).broker) (hopen : s.broker.closed = false)
    (hrested : ∀ i, (s.broker.laneAt name i).inFlight = none)
    (hverdicts : s.handler.verdicts = none) (hfaults : s.settleFaults = 0) :
    ∃ attempts s', WorksOff name s attempts s' ∧ WorkedOff name s attempts s' ∧
      ∀ n, s.broker.pending name ≤ n → (drain name n).run s = (attempts, s') := by
  have hshaped : s.broker.Shaped := by
    rw [hbroker]
    exact History.shaped_run lanes ops
  have hready : s.Ready name := ⟨hshaped, hopen, hrested, hverdicts, hfaults⟩
  obtain ⟨attempts, s', hworks, hworked, hready'⟩ := hready.worksOff
  refine ⟨attempts, s', hworks, hworked, fun n hn => hworks.run_drain hready' ?_⟩
  rw [hworked.length_eq]
  exact hn

/-- A message that is no text, one of an unknown kind, and one that is in order. -/
theorem channel_worked_off_mixed :
    let paid : Event := .paid ⟨7, by decide⟩ 2 default
    let ops : List Operation := [.publish default "transactions" "7" ⟨#[0xFF]⟩,
      .publish default "transactions" "8" "\x7b\"event_type\":\"transaction.refunded\"\x7d".toUTF8,
      .publish default "transactions" "7" paid.encode]
    let s : Deployment :=
      { fresh "transactions" 8 with broker := ((History.new 8).run ops).broker }
    s.broker = ((History.new 8).run ops).broker ∧ s.broker.closed = false ∧
      (∀ i, (s.broker.laneAt "transactions" i).inFlight = none) ∧ s.handler.verdicts = none ∧
      s.settleFaults = 0 ∧
      ∃ attempts s', WorksOff "transactions" s attempts s' ∧ WorkedOff "transactions" s attempts s' ∧
        ∀ n, s.broker.pending "transactions" ≤ n →
          (drain "transactions" n).run s = (attempts, s') := by
  intro paid ops s
  have hrested : ((History.new 8).run ops).broker.Rested "transactions" :=
    History.rested_run_new 8 (by decide)
  exact ⟨rfl, rfl, hrested, rfl, rfl, channel_worked_off 8 ops rfl rfl hrested rfl rfl⟩

end Deployment

end SpendingLedger
