import SpendingLedger.WorkerPool
import SpendingLedger.Proofs.Broker.Progress

/-!
Workers on a channel and what is out on it. However the workers take turns, and whenever they are
asked to stop or the broker is closed, what they hold is exactly what is out: no two of them hold
anything of one lane, and nothing is out that nobody holds. So whatever they settle is settled, and
once they have all stopped nothing is left out.
-/

namespace SpendingLedger

/-- A broker that is asked for a message is closed, has none or takes one. -/
theorem Broker.receive_cases (b : Broker) (name : String) :
    b.receive name = (.error .closed, b) ∨ b.receive name = (.ok none, b) ∨
      ∃ d b', b.take name = (some d, b') ∧ b.receive name = (.ok (some d), b') := by
  rw [receive]
  split
  · exact .inl rfl
  · rcases b.take_cases name with htake | ⟨_, _, _, _, -, -, htake⟩ <;> rw [htake]
    · exact .inr (.inl rfl)
    · exact .inr (.inr ⟨_, _, rfl, rfl⟩)

theorem History.reserved_perform_settle (h : History) (d : Delivery) (how : Settlement) :
    (h.perform (.settle d how)).reserved = h.reserved := by
  rw [perform]
  split <;> rfl

/-! ### Custody -/

namespace WorkerPool

/-- The delivery that worker `i` has in hand. -/
def heldBy? (p : WorkerPool) (i : Nat) : Option Delivery := p.workers[i]?.bind (·.delivery?)

/-- What the workers hold is what is out on the channel. -/
structure InCustody (p : WorkerPool) : Prop where
  isOut : ∀ i d, p.heldBy? i = some d → d.channel = p.channel ∧
    ∃ m, p.broker.outAt p.channel d.lane.toNat = some m ∧
      d = m.delivery p.channel d.lane.toNat
  lane_inj : ∀ i j d e, p.heldBy? i = some d → p.heldBy? j = some e → d.lane = e.lane → i = j
  exists_holder : ∀ k m, p.broker.outAt p.channel k = some m →
    ∃ i d, p.heldBy? i = some d ∧ d.lane.toNat = k

variable {p p' : WorkerPool}

theorem heldBy?_setWorker {i : Nat} {w : WorkerState} (hi : p.workers[i]? = some w)
    (w' : WorkerState) (j : Nat) :
    (p.setWorker i w').heldBy? j = if i = j then w'.delivery? else p.heldBy? j := by
  obtain ⟨hlt, -⟩ := List.getElem?_eq_some_iff.1 hi
  by_cases hj : i = j
  · subst hj
    simp [heldBy?, setWorker, hlt]
  · simp [heldBy?, setWorker, List.getElem?_set_ne hj, hj]

/-- Only what is held and what is out matters. -/
theorem InCustody.congr (h : p.InCustody) (hchannel : p'.channel = p.channel)
    (hheld : ∀ i, p'.heldBy? i = p.heldBy? i)
    (hout : ∀ k, p'.broker.outAt p.channel k = p.broker.outAt p.channel k) : p'.InCustody where
  isOut i d hd := by
    rw [hheld] at hd
    rw [hchannel, hout]
    exact h.isOut i d hd
  lane_inj i j d e hd he := by
    rw [hheld] at hd he
    exact h.lane_inj i j d e hd he
  exists_holder k m hm := by
    rw [hchannel, hout] at hm
    obtain ⟨i, d, hd, hk⟩ := h.exists_holder k m hm
    exact ⟨i, d, (hheld i).trans hd, hk⟩

/-- A worker may change as long as it keeps what it holds. -/
theorem InCustody.setWorker (h : p.InCustody) {i : Nat} {w w' : WorkerState}
    (hi : p.workers[i]? = some w) (hw : w'.delivery? = w.delivery?) :
    (p.setWorker i w').InCustody := by
  refine h.congr rfl (fun j => ?_) fun _ => rfl
  rw [heldBy?_setWorker hi, hw]
  split
  · next hj => rw [← hj, heldBy?, hi, Option.bind_some]
  · rfl

/-- A worker with empty hands takes what goes out on a lane with nothing out. -/
theorem InCustody.take (h : p.InCustody) {i : Nat} (hi : p.workers[i]? = some .idle) {k : Nat}
    (hfree : p.broker.outAt p.channel k = none) (hk : (UInt32.ofNat k).toNat = k) {b : Broker}
    {m : Message} (hout : ∀ k', b.outAt p.channel k' =
      if k = k' then some m else p.broker.outAt p.channel k') :
    ({ p with broker := b }.setWorker i (.holding (m.delivery p.channel k))).InCustody := by
  have hheld (j : Nat) : ({ p with broker := b }.setWorker i
      (.holding (m.delivery p.channel k))).heldBy? j =
        if i = j then some (m.delivery p.channel k) else p.heldBy? j :=
    heldBy?_setWorker (p := { p with broker := b }) hi _ j
  -- nobody else holds anything of the lane
  have hother (j : Nat) (d : Delivery) (hd : p.heldBy? j = some d) : k ≠ d.lane.toNat := by
    rintro rfl
    obtain ⟨-, m', hm', -⟩ := h.isOut j d hd
    rw [hfree] at hm'
    contradiction
  have hlane : (m.delivery p.channel k).lane.toNat = k := hk
  refine ⟨fun j d hd => ?_, fun j j' d d' hd hd' hlanes => ?_, fun k' m' hm' => ?_⟩
  · show d.channel = p.channel ∧ ∃ m', b.outAt p.channel d.lane.toNat = some m' ∧ _
    rw [hheld] at hd
    split at hd
    · obtain rfl := Option.some.inj hd
      exact ⟨rfl, m, by rw [hout, hlane, if_pos rfl], by rw [hlane]; rfl⟩
    · rw [hout, if_neg (hother j d hd)]
      exact h.isOut j d hd
  · rw [hheld] at hd hd'
    split at hd <;> split at hd'
    · omega
    · obtain rfl := Option.some.inj hd
      exact absurd (hlane.symm.trans (congrArg UInt32.toNat hlanes)) (hother j' d' hd')
    · obtain rfl := Option.some.inj hd'
      exact absurd (hlane.symm.trans (congrArg UInt32.toNat hlanes.symm)) (hother j d hd)
    · exact h.lane_inj j j' d d' hd hd' hlanes
  · have hm : (if k = k' then some m else p.broker.outAt p.channel k') = some m' := by
      rw [← hout]
      exact hm'
    split at hm
    · next heq => exact ⟨i, _, by rw [hheld, if_pos rfl], hlane.trans heq⟩
    · obtain ⟨j, d, hd, hk'⟩ := h.exists_holder k' m' hm
      have hij : i ≠ j := by
        rintro rfl
        simp [heldBy?, hi, WorkerState.delivery?] at hd
      exact ⟨j, d, by rw [hheld, if_neg hij]; exact hd, hk'⟩

/-- A worker gives back what it holds. -/
theorem InCustody.release (h : p.InCustody) {i : Nat} {d : Delivery} {how : Settlement}
    (hi : p.workers[i]? = some (.handled d how)) {b : Broker} (hout : ∀ k, b.outAt p.channel k =
      if d.lane.toNat = k then none else p.broker.outAt p.channel k) :
    ({ p with broker := b }.setWorker i .idle).InCustody := by
  have hheld (j : Nat) : ({ p with broker := b }.setWorker i .idle).heldBy? j =
      if i = j then none else p.heldBy? j :=
    heldBy?_setWorker (p := { p with broker := b }) hi _ j
  have hd : p.heldBy? i = some d := by
    rw [heldBy?, hi]
    rfl
  refine ⟨fun j e he => ?_, fun j j' e e' he he' hlanes => ?_, fun k m hm => ?_⟩
  · show e.channel = p.channel ∧ ∃ m, b.outAt p.channel e.lane.toNat = some m ∧ _
    rw [hheld] at he
    split at he
    · contradiction
    · next hij =>
      have hne : d.lane.toNat ≠ e.lane.toNat := fun heq =>
        hij (h.lane_inj i j d e hd he (UInt32.toNat_inj.1 heq))
      rw [hout, if_neg hne]
      exact h.isOut j e he
  · rw [hheld] at he he'
    split at he
    · contradiction
    · split at he'
      · contradiction
      · exact h.lane_inj j j' e e' he he' hlanes
  · have hm' : (if d.lane.toNat = k then none else p.broker.outAt p.channel k) = some m := by
      rw [← hout]
      exact hm
    split at hm'
    · contradiction
    · next hne =>
      obtain ⟨j, e, he, hk⟩ := h.exists_holder k m hm'
      have hij : i ≠ j := by
        rintro rfl
        rw [hd] at he
        obtain rfl := Option.some.inj he
        exact hne hk
      exact ⟨j, e, by rw [hheld, if_neg hij]; exact he, hk⟩

theorem InCustody.of_take (h : p.InCustody) (hs : p.broker.Shaped) {i : Nat}
    (hi : p.workers[i]? = some .idle) {d : Delivery} {b : Broker}
    (htake : p.broker.take p.channel = (some d, b)) :
    ({ p with broker := b }.setWorker i (.holding d)).InCustody := by
  rcases p.broker.take_cases p.channel with hnone | ⟨k, m, queue, cursor, hk, hlane, hsome⟩
  · rw [hnone] at htake
    cases htake
  · rw [hsome] at htake
    obtain ⟨rfl, rfl⟩ : _ = d ∧ _ = b := by simpa using htake
    refine h.take hi (by rw [Broker.outAt, hlane]) (hs.toNat_ofNat_lane hk) fun k' => ?_
    rw [Broker.outAt_changeLane hk]
    simp only [true_and]
    rfl

/-- What a worker has handled can be settled, and then the worker holds nothing. -/
theorem InCustody.settle (h : p.InCustody) (hs : p.broker.Shaped) {i : Nat} {d : Delivery}
    {how : Settlement} (hi : p.workers[i]? = some (.handled d how)) :
    (p.broker.settle d how).1 = .ok () ∧
      ({ p with broker := (p.broker.settle d how).2 }.setWorker i .idle).InCustody := by
  obtain ⟨hchannel, m, hout, hd⟩ := h.isOut i d (by rw [heldBy?, hi]; rfl)
  rw [← hchannel] at hout
  obtain ⟨_, _, hsome, -⟩ := Broker.settle_of_inFlight hout (congrArg Delivery.id hd).symm how
  rcases p.broker.settle_cases d how with ⟨hnone, -⟩ |
    ⟨_, m', queue, cursor, -, hlt, hlane, -, hsettle⟩
  · rw [hnone] at hsome
    contradiction
  · rw [hsettle]
    refine ⟨rfl, h.release hi fun k => ?_⟩
    rw [Broker.outAt_settled hs hlt hlane]
    simp only [hchannel, true_and]

end WorkerPool

/-! ### Shifts -/

/-- Workers on a channel of a broker with a past. -/
structure Shift where
  pool : WorkerPool
  reserved : List Int64 := []
  past : List Occurrence := []

namespace Shift

def history (s : Shift) : History := ⟨s.pool.broker, s.reserved, s.past⟩

inductive Action where
  | act (a : WorkerPool.Action)
  /-- The second half of receiving, by a worker that was let in while the broker was open and nobody
  asked it to stop. -/
  | take (i : Nat)
  /-- An idle worker leaves, as nobody is left who could ask it to stop. -/
  | leave (i : Nat)
  /-- What others do. They neither receive from the channel nor settle on it. -/
  | other (op : Operation)

/-- What an action in a pool asks of the broker. -/
def operation? (p : WorkerPool) : WorkerPool.Action → Option Operation
  | .receive i =>
    if p.workers[i]? = some .idle ∧ p.stopping = false then some (.receive p.channel) else none
  | .settle i =>
    match p.workers[i]? with
    | some (.handled d how) => some (.settle d how)
    | _ => none
  | .publish now channel key payload => some (.publish now channel key payload)
  | .close => some .close
  | .handle .. | .setStopping _ => none

/-- The history after what was asked of the broker, if anything was. -/
def historyAfter (h : History) : Option Operation → History
  | none => h
  | some op => h.perform op

def setWorker (s : Shift) (i : Nat) (w : WorkerState) : Shift :=
  { s with pool := s.pool.setWorker i w }

/-- The same workers, once the broker has gone on to `h`. -/
def withHistory (s : Shift) (h : History) : Shift where
  pool := { s.pool with broker := h.broker }
  reserved := h.reserved
  past := h.past

def step (s : Shift) : Action → Shift
  | .act a =>
    { s with pool := s.pool.step a, past := (historyAfter s.history (operation? s.pool a)).past }
  | .take i =>
    match s.pool.workers[i]?, s.pool.broker.take s.pool.channel with
    | some .idle, (some d, _) =>
      (s.withHistory (s.history.perform (.take s.pool.channel))).setWorker i (.holding d)
    | _, _ => s
  | .leave i =>
    match s.pool.workers[i]? with
    | some .idle => s.setWorker i .stopped
    | _ => s
  | .other op =>
    if op.serves s.pool.channel then s else s.withHistory (s.history.perform op)

def run (s : Shift) (actions : List Action) : Shift := actions.foldl step s

/-- So many workers on a channel, all of them idle. -/
def start (h : History) (channel : String) (policy : RetryPolicy) (workers : Nat) : Shift where
  pool := ⟨h.broker, channel, policy, List.replicate workers .idle, false⟩
  reserved := h.reserved
  past := h.past

/-! ### Moves -/

/-- What one action does. -/
inductive Move (s : Shift) : Shift → Prop
  | refl : Move s s
  | setStopping (stop : Bool) : Move s { s with pool := { s.pool with stopping := stop } }
  /-- A worker goes on with what it has in hand, and stops only if it is idle. -/
  | turn (i : Nat) (w w' : WorkerState) (hi : s.pool.workers[i]? = some w)
      (hw : w'.delivery? = w.delivery?) (hstop : w' = .stopped → w = .idle) :
    Move s (s.setWorker i w')
  | take (i : Nat) (d : Delivery) (b : Broker) (hi : s.pool.workers[i]? = some .idle)
      (htake : s.pool.broker.take s.pool.channel = (some d, b)) :
    Move s ((s.withHistory (s.history.perform (.take s.pool.channel))).setWorker i (.holding d))
  | settle (i : Nat) (d : Delivery) (how : Settlement)
      (hi : s.pool.workers[i]? = some (.handled d how)) :
    Move s ((s.withHistory (s.history.perform (.settle d how))).setWorker i .idle)
  | other (op : Operation) (hop : op.serves s.pool.channel = false) :
    Move s (s.withHistory (s.history.perform op))

theorem move_receive (s : Shift) (i : Nat) : Move s (s.step (.act (.receive i))) := by
  by_cases hi : s.pool.workers[i]? = some .idle
  · cases hstopping : s.pool.stopping with
    | true =>
      have hstep : s.step (.act (.receive i)) = s.setWorker i .stopped := by
        simp [step, operation?, WorkerPool.step, WorkerPool.receive, hi, hstopping, setWorker,
          historyAfter, history]
      rw [hstep]
      exact .turn i .idle .stopped hi rfl fun _ => rfl
    | false =>
      have hpool : s.pool.step (.receive i) = s.pool.receive i := by
        rw [WorkerPool.step, hi]
      have hpast : (historyAfter s.history (operation? s.pool (.receive i))).past =
          (s.history.perform (.receive s.pool.channel)).past := by
        rw [operation?, if_pos ⟨hi, hstopping⟩, historyAfter]
      rw [step, hpool, hpast]
      rcases s.pool.broker.receive_cases s.pool.channel with hclosed | hnone | ⟨d, b, htake, hsome⟩
      · have hstep : s.setWorker i .stopped = { s with
            pool := s.pool.receive i
            past := (s.history.perform (.receive s.pool.channel)).past } := by
          simp [WorkerPool.receive, hstopping, hclosed, History.perform, history, setWorker]
        rw [← hstep]
        exact .turn i .idle .stopped hi rfl fun _ => rfl
      · have hstep : s = { s with
            pool := s.pool.receive i
            past := (s.history.perform (.receive s.pool.channel)).past } := by
          simp [WorkerPool.receive, hstopping, hnone, History.perform, history]
        rw [← hstep]
        exact .refl
      · have hstep : (s.withHistory (s.history.perform (.take s.pool.channel))).setWorker i
            (.holding d) = { s with
              pool := s.pool.receive i
              past := (s.history.perform (.receive s.pool.channel)).past } := by
          simp [WorkerPool.receive, hstopping, hsome, htake, History.perform, history, setWorker,
            withHistory]
        rw [← hstep]
        exact .take i d b hi htake
  · have hstep : s.step (.act (.receive i)) = s := by
      have hpool : s.pool.step (.receive i) = s.pool := by
        rw [WorkerPool.step]
        split
        · next hidle => exact absurd hidle hi
        · rfl
      rw [step, hpool, operation?, if_neg fun h => hi h.1]
      rfl
    rw [hstep]
    exact .refl

theorem move_handle (s : Shift) (i : Nat) (v : Verdict) :
    Move s (s.step (.act (.handle i v))) := by
  rw [step, WorkerPool.step]
  split
  · next d hi => exact .turn i _ _ hi rfl nofun
  · exact .refl

theorem move_settle (s : Shift) (i : Nat) : Move s (s.step (.act (.settle i))) := by
  rw [step, WorkerPool.step, operation?]
  rcases hi : s.pool.workers[i]? with _ | _ | d | ⟨d, how⟩ | _
  case some.handled =>
    have hstep : (s.withHistory (s.history.perform (.settle d how))).setWorker i .idle = { s with
        pool := { s.pool with broker := (s.pool.broker.settle d how).2 }.setWorker i .idle
        past := (s.history.perform (.settle d how)).past } := by
      rw [withHistory, History.broker_perform_settle, History.reserved_perform_settle]
      rfl
    exact hstep ▸ .settle i d how hi
  all_goals exact .refl

theorem move_step (s : Shift) (a : Action) : Move s (s.step a) := by
  cases a with
  | act a =>
    cases a with
    | receive i => exact s.move_receive i
    | handle i v => exact s.move_handle i v
    | settle i => exact s.move_settle i
    | publish now channel key payload =>
      have hstep : s.step (.act (.publish now channel key payload)) =
          s.withHistory (s.history.perform (.publish now channel key payload)) := by
        simp only [step, operation?, WorkerPool.step, historyAfter, History.perform, history]
        rcases s.pool.broker.publish now channel key payload with ⟨_ | id, b⟩ <;> rfl
      rw [hstep]
      exact .other _ rfl
    | setStopping stop => exact .setStopping stop
    | close => exact .other .close rfl
  | take i =>
    rw [step]
    split
    · next d b hi htake => exact .take i d b hi htake
    · exact .refl
  | leave i =>
    rw [step]
    split
    · next hi => exact .turn i .idle .stopped hi rfl fun _ => rfl
    · exact .refl
  | other op =>
    rw [step]
    split
    · exact .refl
    · next hop => exact .other op (by simpa using hop)

/-! ### Safety -/

theorem Move.channel_eq {s s' : Shift} (hmove : Move s s') : s'.pool.channel = s.pool.channel := by
  cases hmove <;> rfl

theorem channel_run (s : Shift) (actions : List Action) :
    (s.run actions).pool.channel = s.pool.channel := by
  induction actions generalizing s with
  | nil => rfl
  | cons a rest ih => exact (ih (s.step a)).trans (s.move_step a).channel_eq

/-- Only an idle worker stops. -/
theorem Move.of_stopped {s s' : Shift} (hmove : Move s s') {i : Nat}
    (hi : s'.pool.workers[i]? = some .stopped) :
    s.pool.workers[i]? = some .idle ∨ s.pool.workers[i]? = some .stopped := by
  -- the workers are those before, but for the one that moved
  have hset (j : Nat) (w w' : WorkerState) (hj : s.pool.workers[j]? = some w)
      (hw : w' = .stopped → w = .idle) (hget : (s.pool.workers.set j w')[i]? = some .stopped) :
      s.pool.workers[i]? = some .idle ∨ s.pool.workers[i]? = some .stopped := by
    obtain ⟨hlt, -⟩ := List.getElem?_eq_some_iff.1 hj
    by_cases hij : j = i
    · subst hij
      rw [List.getElem?_set_self hlt] at hget
      exact .inl (by rw [hj, hw (Option.some.inj hget)])
    · rw [List.getElem?_set_ne hij] at hget
      exact .inr hget
  cases hmove with
  | refl | setStopping | other => exact .inr hi
  | turn j w w' hj hw hstop => exact hset j w w' hj hstop hi
  | take j d b hj => exact hset j .idle (.holding d) hj nofun hi
  | settle j d how hj => exact hset j (.handled d how) .idle hj nofun hi

/-- What holds of a shift at all times. -/
structure Kept (s : Shift) : Prop where
  sound : s.history.Sound
  custody : s.pool.InCustody

theorem Kept.move {s s' : Shift} (hs : s.Kept) (hmove : Move s s') : s'.Kept := by
  cases hmove with
  | refl => exact hs
  | setStopping => exact ⟨hs.sound, hs.custody.congr rfl (fun _ => rfl) fun _ => rfl⟩
  | turn i w w' hi hw => exact ⟨hs.sound, hs.custody.setWorker hi hw⟩
  | take i d b hi htake =>
    refine ⟨hs.sound.perform (.take s.pool.channel), ?_⟩
    have hbroker : (s.history.perform (.take s.pool.channel)).broker = b := by
      simp only [History.perform, history, htake]
    rw [withHistory, hbroker]
    exact hs.custody.of_take hs.sound.shaped hi htake
  | settle i d how hi =>
    refine ⟨hs.sound.perform (.settle d how), ?_⟩
    rw [withHistory, History.broker_perform_settle]
    exact (hs.custody.settle hs.sound.shaped hi).2
  | other op hop =>
    exact ⟨hs.sound.perform op, hs.custody.congr rfl (fun _ => rfl)
      fun k => History.outAt_perform hs.sound.shaped hop k⟩

theorem Kept.run {s : Shift} (hs : s.Kept) (actions : List Action) : (s.run actions).Kept := by
  induction actions generalizing s with
  | nil => exact hs
  | cons a rest ih => exact ih (hs.move (s.move_step a))

theorem kept_start {h : History} (hs : h.Sound) {channel : String}
    (hrested : h.broker.Rested channel) (policy : RetryPolicy) (workers : Nat) :
    (start h channel policy workers).Kept := by
  have hheld (i : Nat) : (start h channel policy workers).pool.heldBy? i = none := by
    rw [WorkerPool.heldBy?, start, List.getElem?_replicate]
    split <;> rfl
  refine ⟨hs, ⟨fun i d hd => ?_, fun i j d e hd => ?_, fun k m hm => ?_⟩⟩
  · rw [hheld] at hd
    contradiction
  · rw [hheld] at hd
    contradiction
  · cases (hrested k).symm.trans hm

/-- The letters on the queues of a channel. -/
def queuedOn (s : Shift) (name : String) : List Letter :=
  (s.pool.broker.channel name).lanes.flatMap (fun l => l.queue.map Message.letter)

theorem lettersOn_eq_queuedOn {s : Shift} {name : String} (hs : s.pool.broker.Rested name) :
    s.pool.broker.lettersOn name = s.queuedOn name := by
  refine List.flatMap_congr fun l hl => ?_
  obtain ⟨i, hi⟩ := List.mem_iff_getElem?.1 hl
  have hnone : l.inFlight = none := by
    rw [← Broker.laneAt_of_getElem? hi]
    exact hs i
  rw [Lane.letters, Lane.messages, hnone]
  rfl

/-- Workers on a channel keep it safe. -/
structure Safe (s : Shift) (channel : String) : Prop where
  lane_ne : ∀ i j d e, i ≠ j → s.pool.heldBy? i = some d → s.pool.heldBy? j = some e →
    d.lane ≠ e.lane
  isOut : ∀ i d, s.pool.heldBy? i = some d → ∃ m,
    (s.pool.broker.laneAt channel d.lane.toNat).inFlight = some m ∧
      d = m.delivery channel d.lane.toNat
  isHeld : ∀ k m, (s.pool.broker.laneAt channel k).inFlight = some m →
    ∃ i, s.pool.heldBy? i = some (m.delivery channel k)
  settlementAnswer? : ∀ i answer, s.pool.settlementAnswer? i = some answer → answer = .ok ()
  /-- Whatever happens next, only workers with empty hands stop. -/
  stops : ∀ a i, (s.step a).pool.workers[i]? = some .stopped → s.pool.heldBy? i = none
  rested : (∀ w ∈ s.pool.workers, w = .stopped) → s.pool.broker.Rested channel ∧
    (s.history.acknowledgedOn channel ++
      (s.history.setAsideFrom channel ++ s.queuedOn channel)).Perm
    (s.history.setAsideInto channel ++ s.history.publishedOn channel)

theorem Kept.rested {s : Shift} (hs : s.Kept) (hstopped : ∀ w ∈ s.pool.workers, w = .stopped) :
    s.pool.broker.Rested s.pool.channel := by
  intro k
  cases hout : (s.pool.broker.laneAt s.pool.channel k).inFlight with
  | none => rfl
  | some m =>
    -- somebody would hold it
    obtain ⟨i, d, hd, -⟩ := hs.custody.exists_holder k m hout
    obtain ⟨w, hw, hd⟩ := Option.bind_eq_some_iff.1 hd
    rw [hstopped w (List.mem_of_getElem? hw)] at hd
    contradiction

theorem Kept.safe {s : Shift} (hs : s.Kept) : s.Safe s.pool.channel where
  lane_ne i j d e hij hd he hlane := hij (hs.custody.lane_inj i j d e hd he hlane)
  isOut i d hd := (hs.custody.isOut i d hd).2
  isHeld k m hm := by
    obtain ⟨i, d, hd, rfl⟩ := hs.custody.exists_holder k m hm
    obtain ⟨-, m', hm', hd'⟩ := hs.custody.isOut i d hd
    obtain rfl : m = m' := Option.some.inj (hm.symm.trans hm')
    exact ⟨i, hd.trans (congrArg some hd')⟩
  settlementAnswer? i answer h := by
    rw [WorkerPool.settlementAnswer?] at h
    split at h
    · next d how hi => rw [← Option.some.inj h, (hs.custody.settle hs.sound.shaped hi).1]
    · contradiction
  stops a i hi := by
    rcases (s.move_step a).of_stopped hi with hw | hw <;> rw [WorkerPool.heldBy?, hw] <;> rfl
  rested hstopped := by
    have hrested := hs.rested hstopped
    refine ⟨hrested, ?_⟩
    rw [← lettersOn_eq_queuedOn hrested]
    exact hs.sound.tallied.lettersOn s.pool.channel

/-- Workers that start on a channel with nothing out keep it safe, through every stop and through
the end of the broker. -/
theorem run_safe (lanes : UInt32) (ops : List Operation) (channel : String) (policy : RetryPolicy)
    (workers : Nat) (actions : List Action)
    (hrested : ∀ i, (((History.new lanes).run ops).broker.laneAt channel i).inFlight = none) :
    ((start ((History.new lanes).run ops) channel policy workers).run actions).Safe channel := by
  have hsound := (History.sound_new lanes).run ops
  have hsafe := ((kept_start hsound hrested policy workers).run actions).safe
  rw [channel_run] at hsafe
  exact hsafe

/-- The broker is closed while one worker has a message in hand, and another stops before it. -/
theorem run_safe_closed_midway :
    let ops : List Operation := [.publish default "transactions" "7" ⟨#[1]⟩,
      .publish default "transactions" "8" ⟨#[2]⟩]
    let actions : List Action := [.act (.receive 0), .act .close, .act (.receive 1),
      .act (.handle 0 (.transient "busy")), .act (.settle 0), .act (.receive 0)]
    (∀ i, (((History.new 16).run ops).broker.laneAt "transactions" i).inFlight = none) ∧
      ((start ((History.new 16).run ops) "transactions" (.bounded 5) 2).run actions).Safe
        "transactions" := by
  intro ops actions
  have hrested : ((History.new 16).run ops).broker.Rested "transactions" :=
    History.rested_run_new 16 (by decide)
  exact ⟨hrested, run_safe 16 ops "transactions" (.bounded 5) 2 actions hrested⟩

end Shift

end SpendingLedger
