import SpendingLedger.Proofs.Broker.Holding
import SpendingLedger.Proofs.Broker.Service

/-!
When there is something to receive. The look at the lanes passes over none of them, so receiving
finds a message if any lane has one and nothing out. On a channel with nothing out at all, that is
as long as anything is pending. What is handed out there and settled at once, other than by putting
it back, leaves the channel with one message less and again with nothing out.
-/

namespace SpendingLedger

namespace Channel

variable {c : Channel}

/-- Every lane has its turn in the scan. -/
theorem mem_scan {i : Nat} (hi : i < c.lanes.length) : i ∈ c.scan := by
  have hpos : 0 < c.lanes.length := by omega
  have hlt := Nat.mod_lt c.cursor hpos
  have hdiv := Nat.div_add_mod c.cursor c.lanes.length
  rw [scan, List.mem_map]
  refine ⟨(i + (c.lanes.length - c.cursor % c.lanes.length)) % c.lanes.length,
    List.mem_range.2 (Nat.mod_lt _ hpos), ?_⟩
  rw [Nat.add_mod_mod]
  -- going on from the cursor by as much comes round to the lane
  calc (c.cursor + (i + (c.lanes.length - c.cursor % c.lanes.length))) % c.lanes.length
    _ = (i + c.lanes.length + c.lanes.length * (c.cursor / c.lanes.length)) %
        c.lanes.length := by congr 1; omega
    _ = i := by rw [Nat.add_mul_mod_self_left, Nat.add_mod_right, Nat.mod_eq_of_lt hi]

theorem ready?_eq_some_iff {i : Nat} {m : Message} :
    c.ready? i = some m ↔ ∃ queue, c.lanes[i]? = some ⟨m :: queue, none⟩ := by
  rw [ready?]
  constructor
  · intro h
    split at h
    · next m' queue hlane =>
      obtain rfl := Option.some.inj h
      exact ⟨queue, hlane⟩
    · contradiction
  · rintro ⟨queue, hlane⟩
    rw [hlane]

/-- Nothing can be handed out exactly if every lane is empty or has something out. -/
theorem next?_eq_none_iff :
    c.next? = none ↔ ∀ (i : Nat) (m : Message) (queue : List Message),
      c.lanes[i]? ≠ some ⟨m :: queue, none⟩ := by
  rw [next?, List.findSome?_eq_none_iff]
  constructor
  · intro h i m queue hlane
    have hready := h i (mem_scan (List.getElem?_eq_some_iff.1 hlane).1)
    rw [ready?_eq_some_iff.2 ⟨queue, hlane⟩] at hready
    contradiction
  · intro h i _
    cases hready : c.ready? i with
    | none => rfl
    | some m =>
      obtain ⟨queue, hlane⟩ := ready?_eq_some_iff.1 hready
      exact absurd hlane (h i m queue)

end Channel

namespace Broker

variable {b : Broker} {name : String}

theorem laneAt_of_get?_eq_none (h : b.channels.get? name = none) (i : Nat) :
    b.laneAt name i = {} := by
  rw [laneAt, channel, h, Option.getD_none, Channel.fresh, List.getElem?_replicate]
  split <;> rfl

theorem laneAt_of_getElem? {i : Nat} {l : Lane} (h : (b.channel name).lanes[i]? = some l) :
    b.laneAt name i = l := by
  rw [laneAt, h, Option.getD_some]

theorem getElem?_lanes_of_ne {i : Nat} (h : b.laneAt name i ≠ {}) :
    (b.channel name).lanes[i]? = some (b.laneAt name i) := by
  rw [laneAt] at h ⊢
  cases hl : (b.channel name).lanes[i]? with
  | none =>
    rw [hl] at h
    exact absurd rfl h
  | some l => rfl

/-- There is nothing to receive exactly if every lane is empty or has something out. -/
theorem take_eq_none_iff :
    (b.take name).1 = none ↔ ∀ i m queue, b.laneAt name i ≠ ⟨m :: queue, none⟩ := by
  rw [take_eq]
  cases hc : b.channels.get? name with
  | none => exact ⟨fun _ i m queue h => by simp [laneAt_of_get?_eq_none hc] at h, fun _ => rfl⟩
  | some c =>
    have hchannel := channel_of_get? hc
    have hlanes : (∀ i m queue, b.laneAt name i ≠ ⟨m :: queue, none⟩) ↔ c.next? = none := by
      rw [Channel.next?_eq_none_iff, ← hchannel]
      refine forall_congr' fun i => forall_congr' fun m => forall_congr' fun queue => ?_
      rw [not_iff_not]
      refine ⟨fun h => ?_, laneAt_of_getElem?⟩
      rw [← h]
      refine getElem?_lanes_of_ne fun hempty => ?_
      simp [hempty] at h
    rw [hlanes]
    cases hnext : c.next? <;> simp [hnext]

/-- Nothing of the channel is out. -/
def Rested (b : Broker) (name : String) : Prop := ∀ i, (b.laneAt name i).inFlight = none

theorem pending_eq_zero_iff : b.pending name = 0 ↔ ∀ i, (b.laneAt name i).messages = [] := by
  rw [← length_lettersOn, List.length_eq_zero_iff, lettersOn, Channel.letters,
    List.flatMap_eq_nil_iff]
  constructor
  · intro h i
    rw [laneAt]
    cases hl : (b.channel name).lanes[i]? with
    | none => rfl
    | some l => exact List.map_eq_nil_iff.1 (h l (List.mem_of_getElem? hl))
  · intro h l hl
    obtain ⟨i, hi⟩ := List.mem_iff_getElem?.1 hl
    rw [Lane.letters, ← laneAt_of_getElem? hi, h i, List.map_nil]

theorem rested_new (lanes : UInt32) (name : String) : (new lanes).Rested name := fun i => by
  rw [laneAt_of_get?_eq_none (Table.get?_empty name)]

/-- As long as something is pending and nothing is out, there is something to receive. -/
theorem Rested.exists_take (h : b.Rested name) (hpending : b.pending name ≠ 0) :
    ∃ i m queue cursor, i < (b.channel name).lanes.length ∧
      b.laneAt name i = ⟨m :: queue, none⟩ ∧ b.take name =
        (some ({ m with count := m.count + 1 }.delivery name i),
          b.changeLane name i (Lane.handOut { m with count := m.count + 1 }) cursor) := by
  rcases b.take_cases name with htake | hsome
  · have hnone := take_eq_none_iff.1 (congrArg Prod.fst htake)
    refine absurd (pending_eq_zero_iff.2 fun i => ?_) hpending
    have hout := h i
    have hlane := hnone i
    cases hl : b.laneAt name i with
    | mk queue inFlight =>
      rw [hl] at hout hlane
      subst hout
      cases queue with
      | nil => rfl
      | cons m queue => exact absurd rfl (hlane m queue)
  · exact hsome

/-- With nothing pending there is nothing to receive. -/
theorem take_of_pending_eq_zero (h : b.pending name = 0) : b.take name = (none, b) := by
  rcases b.take_cases name with htake | ⟨i, m, queue, cursor, hi, hlane, -⟩
  · exact htake
  · have hempty := pending_eq_zero_iff.1 h i
    rw [hlane] at hempty
    contradiction

/-! ### Other channels -/

theorem channel_changeLane_of_ne {name' : String} (hne : name' ≠ name) (i : Nat) (f : Lane → Lane)
    (cursor : Nat) : (b.changeLane name i f cursor).channel name' = b.channel name' := by
  rw [changeLane, channel_setChannel, if_neg hne.symm]

theorem channel_enqueue_of_ne {name' : String} (hne : name' ≠ name) (m : Message) :
    (b.enqueue name m).channel name' = b.channel name' :=
  channel_changeLane_of_ne hne ..

theorem laneAt_congr {b' : Broker} {name' : String} (h : b'.channel name' = b.channel name')
    (i : Nat) : b'.laneAt name' i = b.laneAt name' i := by
  rw [laneAt, laneAt, h]

theorem pending_congr {b' : Broker} {name' : String} (h : b'.channel name' = b.channel name') :
    b'.pending name' = b.pending name' := by
  rw [← length_lettersOn, ← length_lettersOn, lettersOn, lettersOn, h]

theorem laneAt_enqueue (h : b.Shaped) (m : Message) (i : Nat) :
    (b.enqueue name m).laneAt name i =
      if (laneOf m.key b.lanes).toNat = i then (b.laneAt name i).push m else b.laneAt name i := by
  rw [enqueue_eq, laneAt_changeLane (h.laneOf_lt m.key name)]
  by_cases hi : (laneOf m.key b.lanes).toNat = i
  · subst hi
    simp
  · simp [hi]

end Broker

theorem setAsideChannel_ne (name : String) : setAsideChannel name ≠ name := by
  intro h
  have hlength := length_setAsideChannel name
  rw [h] at hlength
  omega

/-! ### What is out -/

namespace Broker

variable {b : Broker} {name : String} {i : Nat}

/-- The message that is out on lane `i` of a channel. -/
def outAt (b : Broker) (name : String) (i : Nat) : Option Message := (b.laneAt name i).inFlight

theorem outAt_changeLane (hi : i < (b.channel name).lanes.length) (f : Lane → Lane) (cursor : Nat)
    (name' : String) (k : Nat) : (b.changeLane name i f cursor).outAt name' k =
      if name = name' ∧ i = k then (f (b.laneAt name i)).inFlight else b.outAt name' k := by
  rw [outAt, laneAt_changeLane hi, apply_ite Lane.inFlight, outAt]

/-- What comes to a channel does not go out by that. -/
theorem outAt_enqueue (hs : b.Shaped) (name : String) (m : Message) (name' : String) (k : Nat) :
    (b.enqueue name m).outAt name' k = b.outAt name' k := by
  rw [enqueue_eq, outAt_changeLane (hs.laneOf_lt m.key name)]
  split
  · next heq =>
    obtain ⟨rfl, rfl⟩ := heq
    rfl
  · rfl

/-- What is settled is out no longer, and all else is out as it was. -/
theorem outAt_settled (hs : b.Shaped) {d : Delivery}
    (hi : d.lane.toNat < (b.channel d.channel).lanes.length) {m : Message} {queue : List Message}
    (hlane : b.laneAt d.channel d.lane.toNat = ⟨queue, some m⟩) (cursor : Nat) (how : Settlement)
    (name : String) (k : Nat) : (b.settled d m cursor how).outAt name k =
      if d.channel = name ∧ d.lane.toNat = k then none else b.outAt name k := by
  cases how with
  | acknowledge => exact outAt_changeLane hi Lane.release cursor name k
  | requeue => exact outAt_changeLane hi (Lane.restore m) cursor name k
  | setAside reason =>
    have hs' := hs.settled hi hlane cursor .acknowledge
    exact (outAt_enqueue hs' ..).trans (outAt_changeLane hi Lane.release cursor name k)

end Broker

namespace History

variable {h : History} {name : String}

theorem outAt_perform_post (hs : h.broker.Shaped) (j : Nat) (now : Timestamp)
    (name' key : String) (payload : ByteArray) (k : Nat) :
    (h.perform (.post j now name' key payload)).broker.outAt name k = h.broker.outAt name k := by
  rw [perform]
  split
  · rfl
  · exact Broker.outAt_enqueue hs ..

theorem outAt_perform_take {name' : String} (hne : name' ≠ name) (k : Nat) :
    (h.perform (.take name')).broker.outAt name k = h.broker.outAt name k := by
  rw [perform]
  rcases h.broker.take_cases name' with htake | ⟨i, m, queue, cursor, hi, hlane, htake⟩ <;>
    rw [htake]
  exact (Broker.outAt_changeLane hi ..).trans (if_neg fun heq => hne heq.1)

/-- Whoever neither receives from a channel nor settles on it leaves out there what is out. -/
theorem outAt_perform (hs : h.broker.Shaped) {op : Operation} (hop : op.serves name = false)
    (k : Nat) : (h.perform op).broker.outAt name k = h.broker.outAt name k := by
  have hreserve : (h.perform .reserve).broker.outAt name k = h.broker.outAt name k := by
    rw [perform]
    split <;> rfl
  cases op with
  | publish now name' key payload =>
    rw [perform_publish, outAt_perform_post ((move_reserve (o := .wraps) h).shaped hs)]
    exact hreserve
  | reserve => exact hreserve
  | post j now name' key payload => exact outAt_perform_post hs ..
  | receive name' =>
    rcases h.perform_receive name' with heq | heq <;> rw [heq]
    exact outAt_perform_take (of_decide_eq_false hop) k
  | take name' => exact outAt_perform_take (of_decide_eq_false hop) k
  | settle d how =>
    have hne : d.channel ≠ name := of_decide_eq_false hop
    rw [broker_perform_settle]
    rcases h.broker.settle_cases d how with ⟨-, hsettle⟩ |
      ⟨_, m, queue, cursor, -, hi, hlane, -, hsettle⟩ <;> rw [hsettle]
    exact (Broker.outAt_settled hs hi hlane ..).trans (if_neg fun heq => hne heq.1)
  | setUnreachable | close => rfl

theorem outAt_run (hs : h.broker.Shaped) {ops : List Operation}
    (hops : ∀ op ∈ ops, op.serves name = false) (k : Nat) :
    (h.run ops).broker.outAt name k = h.broker.outAt name k := by
  induction ops generalizing h with
  | nil => rfl
  | cons op rest ih =>
    have hrest := ih (perform_keeps Move.shaped op hs)
      fun o ho => hops o (List.mem_cons_of_mem _ ho)
    exact hrest.trans (outAt_perform hs (hops op List.mem_cons_self) k)

/-- Before anybody receives from a channel, nothing of it is out. -/
theorem rested_run_new (lanes : UInt32) {ops : List Operation}
    (hops : ∀ op ∈ ops, op.serves name = false) : ((new lanes).run ops).broker.Rested name :=
  fun k => (outAt_run (Broker.shaped_new lanes) hops k).trans (Broker.rested_new lanes name k)

end History

/-! ### Handing out and settling at once -/

/-- A lane with more messages at its end. -/
def Lane.extend (l : Lane) (ms : List Message) : Lane := { l with queue := l.queue ++ ms }

/-- The message of a delivery as it comes to the channel of messages given up. -/
def Delivery.givenUp (d : Delivery) : Message := ⟨d.id, d.key, d.payload, 0, d.publishedAt⟩

namespace Broker

/-- The head of a lane was handed out and has left the channel, be it for the one of messages given
up. Nothing else has changed, and nothing of the channel is out. -/
structure Served (b : Broker) (name : String) (d : Delivery) (gone : List Delivery)
    (b' : Broker) : Prop where
  shaped : b'.Shaped
  closed_eq : b'.closed = b.closed
  rested : b'.Rested name
  pending_eq : b'.pending name + 1 = b.pending name
  exists_head : ∃ m queue, b.laneAt name d.lane.toNat = ⟨m :: queue, none⟩ ∧
    b'.laneAt name d.lane.toNat = ⟨queue, none⟩ ∧
    d = { m with count := m.count + 1 }.delivery name d.lane.toNat
  laneAt_eq : ∀ i, i ≠ d.lane.toNat → b'.laneAt name i = b.laneAt name i
  setAside_eq : ∀ i, b'.laneAt (setAsideChannel name) i =
    (b.laneAt (setAsideChannel name) i).extend
      ((gone.filter (·.lane.toNat = i)).map Delivery.givenUp)
  channel_eq : ∀ name', name' ≠ name → name' ≠ setAsideChannel name →
    b'.channel name' = b.channel name'

variable {b : Broker} {name : String} {i : Nat} {m : Message} {queue : List Message}

/-- The broker once the head of lane `i`, handed out as `m`, is gone from the channel. -/
def passOn (b : Broker) (name : String) (i : Nat) (m : Message) (cursor cursor' : Nat) : Broker :=
  (b.changeLane name i (Lane.handOut m) cursor).changeLane name i Lane.release cursor'

section PassOn

variable (hi : i < (b.channel name).lanes.length) (hlane : b.laneAt name i = ⟨m :: queue, none⟩)
  (count : UInt32) (cursor cursor' : Nat)

include hi in
theorem lane_lt_handOut (m : Message) :
    i < ((b.changeLane name i (Lane.handOut m) cursor).channel name).lanes.length := by
  rw [changeLane, channel_setChannel, if_pos rfl, List.length_modify]
  exact hi

theorem channel_passOn_of_ne {name' : String} (hne : name' ≠ name) (m : Message) :
    (b.passOn name i m cursor cursor').channel name' = b.channel name' := by
  rw [passOn, channel_changeLane_of_ne hne, channel_changeLane_of_ne hne]

include hi hlane

theorem laneAt_handOut_self :
    (b.changeLane name i (Lane.handOut { m with count }) cursor).laneAt name i =
      ⟨queue, some { m with count }⟩ := by
  rw [laneAt_changeLane hi, if_pos ⟨rfl, rfl⟩, hlane]
  rfl

theorem laneAt_passOn (j : Nat) :
    (b.passOn name i { m with count } cursor cursor').laneAt name j =
      if i = j then ⟨queue, none⟩ else b.laneAt name j := by
  rw [passOn, laneAt_changeLane (lane_lt_handOut hi cursor _), laneAt_handOut_self hi hlane]
  by_cases hj : i = j
  · rw [if_pos ⟨rfl, hj⟩, if_pos hj]
    rfl
  · rw [if_neg fun h => hj h.2, if_neg hj, laneAt_changeLane hi, if_neg fun h => hj h.2]

theorem Shaped.passOn (h : b.Shaped) :
    (b.passOn name i { m with count } cursor cursor').Shaped := by
  have hout := h.handOut hi hlane count cursor
  refine hout.changeLane (lane_lt_handOut hi cursor _) cursor' fun x hx => ?_
  refine hout.laneOf_eq name i x ?_
  rw [laneAt_handOut_self hi hlane] at hx ⊢
  exact List.mem_cons_of_mem _ hx

theorem pending_passOn :
    (b.passOn name i { m with count } cursor cursor').pending name + 1 = b.pending name := by
  have hhandOut := (perm_changeLane_of_letters_eq hi (f := Lane.handOut { m with count }) cursor
    (by rw [hlane, Lane.letters_handOut])).2 name
  have hrelease := (perm_release (lane_lt_handOut hi cursor _)
    (laneAt_handOut_self hi hlane count cursor) cursor').2 name
  rw [if_pos rfl] at hrelease
  have hlength := (hrelease.trans hhandOut).length_eq
  rw [List.singleton_append, List.length_cons, length_lettersOn, length_lettersOn] at hlength
  exact hlength

/-- Acknowledged at once, the message is gone. -/
theorem Rested.served_passOn (h : b.Rested name) (hs : b.Shaped) :
    b.Served name ({ m with count := m.count + 1 }.delivery name i) []
      (b.passOn name i { m with count := m.count + 1 } cursor cursor') := by
  have hnumber : (UInt32.ofNat i).toNat = i := hs.toNat_ofNat_lane hi
  have hlaneAt := laneAt_passOn hi hlane (m.count + 1) cursor cursor'
  refine {
    shaped := hs.passOn hi hlane _ cursor cursor'
    closed_eq := rfl
    rested := fun j => ?_
    pending_eq := pending_passOn hi hlane ..
    exists_head := ⟨m, queue, ?_, ?_, ?_⟩
    laneAt_eq := fun j hj => ?_
    setAside_eq := fun j => ?_
    channel_eq := fun name' hne _ => channel_passOn_of_ne cursor cursor' hne _ }
  · rw [hlaneAt]
    split
    · rfl
    · exact h j
  · rw [Message.delivery, hnumber]
    exact hlane
  · rw [Message.delivery, hnumber, hlaneAt, if_pos rfl]
  · simp only [Message.delivery, hnumber]
  · rw [Message.delivery, hnumber] at hj
    rw [hlaneAt, if_neg hj.symm]
  · rw [laneAt_congr (channel_passOn_of_ne cursor cursor' (setAsideChannel_ne name) _)]
    simp [Lane.extend]

/-- Set aside at once, it is at the end of its lane on the channel of messages given up. -/
theorem Rested.served_setAside (h : b.Rested name) (hs : b.Shaped) :
    let d := { m with count := m.count + 1 }.delivery name i
    b.Served name d [d] ((b.passOn name i { m with count := m.count + 1 } cursor cursor').enqueue
      (setAsideChannel name) { m with count := 0 }) := by
  intro d
  have hserved := h.served_passOn hi hlane cursor cursor' hs
  have hne := setAsideChannel_ne name
  have hchannel := channel_enqueue_of_ne
    (b := b.passOn name i { m with count := m.count + 1 } cursor cursor') hne.symm
    { m with count := 0 }
  have hnumber : d.lane.toNat = i := hs.toNat_ofNat_lane hi
  have hkey : (laneOf m.key b.lanes).toNat = i :=
    hs.laneOf_eq name i m.letter (by rw [hlane]; exact List.mem_cons_self)
  refine {
    shaped := hserved.shaped.enqueue ..
    closed_eq := rfl
    rested := fun j => ?_
    pending_eq := ?_
    exists_head := ?_
    laneAt_eq := fun j hj => ?_
    setAside_eq := fun j => ?_
    channel_eq := fun name' hname hsetAside => ?_ }
  · rw [laneAt_congr hchannel]
    exact hserved.rested j
  · rw [pending_congr hchannel]
    exact hserved.pending_eq
  · rw [laneAt_congr hchannel]
    exact hserved.exists_head
  · rw [laneAt_congr hchannel]
    exact hserved.laneAt_eq j hj
  · rw [laneAt_enqueue hserved.shaped, hserved.setAside_eq]
    -- the lane is that of the key, which is the same on both channels
    show (if (laneOf m.key b.lanes).toNat = j then _ else _) = _
    rw [hkey]
    by_cases hj : i = j
    · have hgone : [d].filter (·.lane.toNat = j) = [d] := by simp [hnumber, hj]
      rw [if_pos hj, hgone]
      simp [Lane.extend, Lane.push, Delivery.givenUp, d, Message.delivery]
    · simp [Lane.extend, hnumber, hj]
  · rw [channel_enqueue_of_ne hsetAside]
    exact hserved.channel_eq name' hname hsetAside

end PassOn

/-- As long as something is pending, it can be received, and settled at once without putting it
back. -/
theorem Rested.serve (h : b.Rested name) (hs : b.Shaped) (hpending : 0 < b.pending name) :
    ∃ d b₁, b.take name = (some d, b₁) ∧
      (∃ b₂, b₁.settle d .acknowledge = (.ok (), b₂) ∧ b.Served name d [] b₂) ∧
      ∀ reason, ∃ b₂, b₁.settle d (.setAside reason) = (.ok (), b₂) ∧ b.Served name d [d] b₂ := by
  obtain ⟨i, m, queue, cursor, hi, hlane, htake⟩ := h.exists_take (by omega)
  have hnumber : (UInt32.ofNat i).toNat = i := hs.toNat_ofNat_lane hi
  have hout : ((b.changeLane name i (Lane.handOut { m with count := m.count + 1 }) cursor).laneAt
      name (UInt32.ofNat i).toNat).inFlight = some { m with count := m.count + 1 } := by
    rw [hnumber, laneAt_handOut_self hi hlane]
  have hsettle := settle_of_inFlight
    (d := { m with count := m.count + 1 }.delivery name i) hout rfl
  refine ⟨_, _, htake, ?_, fun reason => ?_⟩
  · obtain ⟨_, cursor', -, hok⟩ := hsettle .acknowledge
    refine ⟨_, hok, ?_⟩
    simp only [settled, Message.delivery, hnumber]
    exact h.served_passOn hi hlane cursor cursor' hs
  · obtain ⟨_, cursor', -, hok⟩ := hsettle (.setAside reason)
    refine ⟨_, hok, ?_⟩
    simp only [settled, Message.delivery, hnumber]
    exact h.served_setAside hi hlane cursor cursor' hs

end Broker

end SpendingLedger
