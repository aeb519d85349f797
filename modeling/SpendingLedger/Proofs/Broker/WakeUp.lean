import SpendingLedger.Proofs.Broker.Progress
import SpendingLedger.Waiting

/-!
Nobody sleeps through a change. A receiver registers before it looks, so a change that its look has
missed comes after the registration, and the notification of that change reaches it. Hence the
invariant, which speaks of the moments at which no notification is owed: whoever has not been
notified by then has seen the broker as it still is.
-/

namespace SpendingLedger

namespace Broker

variable {b : Broker} {name : String}

/-- A lane of the channel has a message queued and nothing out. -/
def HasReady (b : Broker) (name : String) : Prop :=
  ∃ i, (b.laneAt name i).inFlight = none ∧ (b.laneAt name i).queue ≠ []

theorem hasReady_iff : b.HasReady name ↔ (b.take name).1 ≠ none := by
  rw [Ne, take_eq_none_iff]
  constructor
  · rintro ⟨i, hout, hqueue⟩ hnone
    obtain ⟨m, queue, hcons⟩ := List.exists_cons_of_ne_nil hqueue
    refine hnone i m queue ?_
    rw [← hout, ← hcons]
  · intro hsome
    by_contra hnot
    refine hsome fun i m queue hlane => hnot ⟨i, ?_⟩
    simp [hlane]

/-- Receiving makes no lane ready. -/
theorem HasReady.of_take {name' : String} (h : (b.take name).2.HasReady name') :
    b.HasReady name' := by
  rcases b.take_cases name with htake | ⟨i, m, queue, cursor, hi, -, htake⟩
  · rwa [htake] at h
  · rw [htake] at h
    obtain ⟨j, hout, hqueue⟩ := h
    rw [laneAt_changeLane hi] at hout hqueue
    by_cases hj : name = name' ∧ i = j
    · simp [hj, Lane.handOut] at hout
    · simp only [hj, ↓reduceIte] at hout hqueue
      exact ⟨j, hout, hqueue⟩

theorem closed_take (b : Broker) (name : String) : (b.take name).2.closed = b.closed := by
  rcases b.take_cases name with htake | ⟨i, m, queue, cursor, -, -, htake⟩ <;> rw [htake]
  rfl

end Broker

namespace Room

deriving instance DecidableEq for Receiver.Phase, Receiver

/-- Receivers on these channels, none of which has done anything yet. -/
def start (b : Broker) (channels : List String) : Room where
  broker := b
  receivers := channels.map fun channel => { channel }

/-- As long as no notification is owed, a receiver that has not been notified has seen the broker
as it is: open, and with nothing to receive if it sleeps. -/
structure Alert (room : Room) : Prop where
  admitted : room.owed = 0 → ∀ r ∈ room.receivers, r.phase = .admitted false →
    room.broker.closed = false
  waiting : room.owed = 0 → ∀ r ∈ room.receivers, r.phase = .waiting false →
    room.broker.closed = false ∧ ¬ room.broker.HasReady r.channel

variable {room : Room}

theorem alert_start (b : Broker) (channels : List String) : (start b channels).Alert := by
  have hidle : ∀ r ∈ (start b channels).receivers, r.phase = .idle := by
    intro r hr
    obtain ⟨channel, -, rfl⟩ := List.mem_map.1 hr
    rfl
  constructor
  · intro _ r hr hphase
    rw [hidle r hr] at hphase
    cases hphase
  · intro _ r hr hphase
    rw [hidle r hr] at hphase
    cases hphase

/-! ### Steps -/

theorem step_advance {i : Nat} {r : Receiver} (hi : room.receivers[i]? = some r) :
    room.step (.advance i) = { room with
      broker := (advanceReceiver room.broker r).2
      receivers := room.receivers.set i (advanceReceiver room.broker r).1 } := by
  simp only [step, hi]

/-- One receiver goes on, and the broker is ready for no more than before. -/
theorem Alert.set (h : room.Alert) {b : Broker} (hclosed : b.closed = room.broker.closed)
    (hready : ∀ name, b.HasReady name → room.broker.HasReady name) (i : Nat) {r : Receiver}
    (hadmitted : room.owed = 0 → r.phase = .admitted false → b.closed = false)
    (hwaiting : room.owed = 0 → r.phase = .waiting false →
      b.closed = false ∧ ¬ b.HasReady r.channel) :
    Alert { room with broker := b, receivers := room.receivers.set i r } where
  admitted howed r' hr' hphase := by
    rcases List.mem_or_eq_of_mem_set hr' with hr' | rfl
    · exact hclosed.trans (h.admitted howed r' hr' hphase)
    · exact hadmitted howed hphase
  waiting howed r' hr' hphase := by
    rcases List.mem_or_eq_of_mem_set hr' with hr' | rfl
    · obtain ⟨hopen, hnone⟩ := h.waiting howed r' hr' hphase
      exact ⟨hclosed.trans hopen, mt (hready _) hnone⟩
    · exact hwaiting howed hphase

theorem Alert.advance (h : room.Alert) (i : Nat) : (room.step (.advance i)).Alert := by
  cases hi : room.receivers[i]? with
  | none =>
    simp only [step, hi]
    exact h
  | some r =>
    have hmem := List.mem_of_getElem? hi
    rw [step_advance hi]
    obtain ⟨channel, phase⟩ := r
    cases phase with
    | idle => exact h.set rfl (fun _ => id) i nofun nofun
    | registered notified =>
      simp only [advanceReceiver]
      cases hclosed : room.broker.closed with
      | true => exact h.set rfl (fun _ => id) i nofun nofun
      | false => exact h.set rfl (fun _ => id) i (fun _ _ => hclosed) nofun
    | admitted notified =>
      have hbefore := room.broker.closed_take channel
      have hready (name : String) (h : (room.broker.take channel).2.HasReady name) :
          room.broker.HasReady name := h.of_take
      simp only [advanceReceiver]
      rcases htake : room.broker.take channel with ⟨_ | d, b⟩ <;> rw [htake] at hbefore hready
      · -- the look was in vain, and nothing has been missed since the registration
        refine h.set hbefore hready i nofun fun howed hphase => ?_
        obtain rfl : notified = false := by simpa using hphase
        have hnone : ¬ room.broker.HasReady channel := by
          rw [Broker.hasReady_iff, htake]
          exact not_not.2 rfl
        exact ⟨hbefore.trans (h.admitted howed _ hmem rfl), mt (hready channel) hnone⟩
      · exact h.set hbefore hready i nofun nofun
    | waiting notified =>
      cases notified with
      | true => exact h.set rfl (fun _ => id) i nofun nofun
      | false => exact h.set rfl (fun _ => id) i nofun fun howed _ => h.waiting howed _ hmem rfl
    | finished outcome => exact h.set rfl (fun _ => id) i nofun nofun

/-- A change that is made is one to notify of, and one that fails changes nothing. -/
theorem change_cases (c : Change) (b : Broker) :
    (c.apply b).2 = true ∨ c.apply b = (b, false) := by
  cases c with
  | publish now channel key payload =>
    rcases b.publish_cases now channel key payload with ⟨e, h⟩ | h <;> simp [Change.apply, h]
  | settle d s =>
    rcases b.settle_cases d s with ⟨-, h⟩ | ⟨c, m, queue, cursor, -, -, -, -, h⟩ <;>
      simp [Change.apply, h]
  | close => exact .inl rfl

theorem Alert.change (h : room.Alert) (c : Change) : (room.step (.change c)).Alert := by
  simp only [step]
  rcases change_cases c room.broker with hmade | hnot
  · have howed : (if (c.apply room.broker).2 then room.owed + 1 else room.owed) ≠ 0 := by
      simp [hmade]
    exact ⟨fun hzero => absurd hzero howed, fun hzero => absurd hzero howed⟩
  · rw [hnot]
    exact h

/-- A notification leaves nobody who is registered without one. -/
theorem phase_notify (r : Receiver) :
    r.notify.phase ≠ .admitted false ∧ r.notify.phase ≠ .waiting false := by
  obtain ⟨channel, phase⟩ := r
  cases phase <;> simp [Receiver.notify]

theorem Alert.notify (h : room.Alert) : (room.step .notify).Alert := by
  simp only [step]
  split
  · exact h
  · constructor
    · intro _ r hr hphase
      obtain ⟨r, -, rfl⟩ := List.mem_map.1 hr
      exact absurd hphase (phase_notify r).1
    · intro _ r hr hphase
      obtain ⟨r, -, rfl⟩ := List.mem_map.1 hr
      exact absurd hphase (phase_notify r).2

theorem Alert.step (h : room.Alert) (s : Step) : (room.step s).Alert := by
  cases s with
  | advance i => exact h.advance i
  | change c => exact h.change c
  | notify => exact h.notify

theorem Alert.run (h : room.Alert) (steps : List Step) : (room.run steps).Alert := by
  induction steps generalizing room with
  | nil => exact h
  | cons s rest ih => exact ih (h.step s)

/-! ### Waking up -/

/-- What a receiver does next, and where that leaves the room. -/
theorem run_advance_cons {i : Nat} {r : Receiver} (hi : room.receivers[i]? = some r)
    (rest : List Step) : ∃ room' : Room, room.run (.advance i :: rest) = room'.run rest ∧
      room'.broker = (advanceReceiver room.broker r).2 ∧
      room'.receivers[i]? = some (advanceReceiver room.broker r).1 := by
  refine ⟨room.step (.advance i), rfl, ?_, ?_⟩
  · rw [step_advance hi]
  · rw [step_advance hi]
    exact List.getElem?_set_self (List.getElem?_eq_some_iff.1 hi).1

/-- A receiver that has been notified, and finds something to wake up to, is done after one
round. -/
theorem run_round_finished {i : Nat} {channel : String}
    (hi : room.receivers[i]? = some ⟨channel, .waiting true⟩)
    (hroused : room.broker.closed = true ∨ room.broker.HasReady channel) :
    ∃ outcome, (room.run (round i)).receivers[i]? = some ⟨channel, .finished outcome⟩ := by
  obtain ⟨room₁, hrun₁, hbroker₁, hi₁⟩ := run_advance_cons hi [.advance i, .advance i, .advance i]
  obtain ⟨room₂, hrun₂, hbroker₂, hi₂⟩ := run_advance_cons hi₁ [.advance i, .advance i]
  obtain ⟨room₃, hrun₃, hbroker₃, hi₃⟩ := run_advance_cons hi₂ [.advance i]
  obtain ⟨room₄, hrun₄, -, hi₄⟩ := run_advance_cons hi₃ []
  have hlook : room₂.broker = room.broker := hbroker₂.trans hbroker₁
  have htry : room₃.broker = room.broker := hbroker₃.trans hlook
  rw [round, hrun₁, hrun₂, hrun₃, hrun₄]
  show ∃ outcome, room₄.receivers[i]? = _
  rw [hi₄]
  simp only [advanceReceiver, hlook, htry]
  cases hclosed : room.broker.closed with
  | true => exact ⟨.error .closed, rfl⟩
  | false =>
    have hready : room.broker.HasReady channel := by simpa [hclosed] using hroused
    rw [Broker.hasReady_iff] at hready
    rcases htake : room.broker.take channel with ⟨_ | d, b⟩
    · rw [htake] at hready
      exact absurd rfl hready
    · exact ⟨.ok d, by simp⟩

/-- Whenever no notification is owed, every receiver that sleeps without having been notified finds
the broker open and nothing to receive. If there is something to wake up to, it has been notified,
and needs one round to be done. -/
theorem run_no_lost_wakeup (b : Broker) (channels : List String) (steps : List Step) :
    let room := (start b channels).run steps
    room.owed = 0 → ∀ (i : Nat) (r : Receiver) (notified : Bool), room.receivers[i]? = some r →
      r.phase = .waiting notified →
      (notified = false → room.broker.closed = false ∧ ¬ room.broker.HasReady r.channel) ∧
      (room.broker.closed = true ∨ room.broker.HasReady r.channel → notified = true ∧
        ∃ outcome, (room.run (round i)).receivers[i]? = some ⟨r.channel, .finished outcome⟩) := by
  intro room howed i r notified hi hphase
  have halert : room.Alert := (alert_start b channels).run steps
  have hquiet : notified = false →
      room.broker.closed = false ∧ ¬ room.broker.HasReady r.channel := by
    rintro rfl
    exact halert.waiting howed r (List.mem_of_getElem? hi) hphase
  refine ⟨hquiet, fun hroused => ?_⟩
  have hnotified : notified = true := by
    by_contra hnot
    obtain ⟨hopen, hnone⟩ := hquiet (Bool.eq_false_iff.2 hnot)
    rcases hroused with hclosed | hready
    · simp [hopen] at hclosed
    · exact hnone hready
  obtain ⟨channel, phase⟩ := r
  subst hnotified hphase
  exact ⟨rfl, run_round_finished hi hroused⟩

/-- A receiver looks in vain while the only message is out, and sleeps. It is notified once the
message is acknowledged, finds nothing, and sleeps again. -/
theorem run_no_lost_wakeup_in_vain :
    ∃ room : Room, (start ((Broker.new 1).setChannel "transactions"
        ⟨[⟨[], some ⟨1, "7", ⟨#[1]⟩, 1, default⟩⟩], 0⟩) ["transactions"]).run
        ([.advance 0, .advance 0, .advance 0,
          .change (.settle ⟨1, "transactions", "7", 0, ⟨#[1]⟩, 1, default⟩ .acknowledge),
          .notify] ++ round 0) = room ∧
      room.owed = 0 ∧ room.receivers[0]? = some ⟨"transactions", .waiting false⟩ ∧
      room.broker.closed = false ∧ ¬ room.broker.HasReady "transactions" := by
  refine ⟨_, rfl, ?_, ?_, ?_⟩
  · decide +kernel
  · decide +kernel
  · exact (run_no_lost_wakeup _ _ _ (by decide +kernel) 0 ⟨"transactions", .waiting false⟩ false
      (by decide +kernel) rfl).1 rfl

end Room

end SpendingLedger
