import SpendingLedger.Proofs.Broker.Contents
import Mathlib.Data.List.Perm.Basic
import Mathlib.Data.List.Nodup

/-!
Receivers and what they hold. A delivery is good as long as the message it was made from is out on
its lane. As a lane has at most one message out, receivers hold good deliveries of different lanes;
publishing, receiving, and acknowledging what one of them holds do no harm to the others.
-/

namespace SpendingLedger.Broker

/-- The message of the delivery is out on its lane of the channel. -/
structure IsOut (b : Broker) (name : String) (d : Delivery) : Prop where
  channel_eq : d.channel = name
  lane_lt : d.lane.toNat < (b.channel name).lanes.length
  exists_message : ∃ m queue, b.laneAt name d.lane.toNat = ⟨queue, some m⟩ ∧ m.letter = d.letter

/-- The deliveries are good, and of different lanes. -/
structure Lent (b : Broker) (name : String) (held : List Delivery) : Prop where
  isOut : ∀ d ∈ held, b.IsOut name d
  nodup : (held.map (·.lane)).Nodup

variable {b : Broker} {name : String} {held : List Delivery}

theorem lent_nil (b : Broker) (name : String) : b.Lent name [] :=
  ⟨fun _ hd => absurd hd List.not_mem_nil, List.nodup_nil⟩

theorem IsOut.changeLane {d : Delivery} (h : b.IsOut name d) {i : Nat}
    (hi : i < (b.channel name).lanes.length) (f : Lane → Lane) (cursor : Nat)
    (hne : d.lane.toNat ≠ i) : (b.changeLane name i f cursor).IsOut name d where
  channel_eq := h.channel_eq
  lane_lt := by
    rw [Broker.changeLane, channel_setChannel, if_pos rfl, List.length_modify]
    exact h.lane_lt
  exists_message := by
    rw [laneAt_changeLane hi, if_neg fun heq => hne heq.2.symm]
    exact h.exists_message

/-! ### Publishing -/

def post (b : Broker) (now : Timestamp) (name key : String) (payload : ByteArray) : Broker :=
  { b with lastId := b.lastId + 1 }.enqueue name ⟨b.lastId + 1, key, payload, 0, now⟩

theorem publish_cases (b : Broker) (now : Timestamp) (name key : String) (payload : ByteArray) :
    (∃ e, b.publish now name key payload = (.error e, b)) ∨
      b.publish now name key payload = (.ok (b.lastId + 1), b.post now name key payload) := by
  rw [publish]
  split
  · exact .inl ⟨_, rfl⟩
  · split
    · exact .inl ⟨_, rfl⟩
    · exact .inr rfl

/-- The shape is a matter of the channels alone. -/
theorem Shaped.withState (h : b.Shaped) (lastId : Int64) (closed unreachable : Bool) :
    { b with lastId, closed, unreachable }.Shaped :=
  ⟨h.lanes_pos, h.length_lanes, h.laneOf_eq⟩

theorem Shaped.post (h : b.Shaped) (now : Timestamp) (name key : String) (payload : ByteArray) :
    (b.post now name key payload).Shaped :=
  (h.withState _ b.closed b.unreachable).enqueue ..

theorem perm_post (h : b.Shaped) (now : Timestamp) (name key : String) (payload : ByteArray)
    (name' : String) : ((b.post now name key payload).lettersOn name').Perm
      ((if name = name' then [⟨b.lastId + 1, key, payload, now⟩] else []) ++ b.lettersOn name') :=
  (perm_enqueue (h.withState _ b.closed b.unreachable) name _).2 name'

theorem Lent.withState (h : b.Lent name held) (lastId : Int64) (closed unreachable : Bool) :
    { b with lastId, closed, unreachable }.Lent name held :=
  ⟨fun d hd => ⟨(h.isOut d hd).channel_eq, (h.isOut d hd).lane_lt, (h.isOut d hd).exists_message⟩,
    h.nodup⟩

theorem Lent.enqueue (h : b.Lent name held) (hs : b.Shaped) (m : Message) :
    (b.enqueue name m).Lent name held where
  nodup := h.nodup
  isOut d hd := by
    obtain ⟨hchannel, hlt, m', queue, hm', hletter⟩ := h.isOut d hd
    have hi := hs.laneOf_lt m.key name
    refine ⟨hchannel, ?_, ?_⟩
    · rw [enqueue_eq, Broker.changeLane, channel_setChannel, if_pos rfl, List.length_modify]
      exact hlt
    · rw [enqueue_eq, laneAt_changeLane hi]
      split
      · next heq =>
        rw [heq.2, hm']
        exact ⟨m', queue ++ [m], rfl, hletter⟩
      · exact ⟨m', queue, hm', hletter⟩

theorem Lent.post (h : b.Lent name held) (hs : b.Shaped) (now : Timestamp) (key : String)
    (payload : ByteArray) : (b.post now name key payload).Lent name held :=
  (h.withState _ b.closed b.unreachable).enqueue (hs.withState _ b.closed b.unreachable) _

/-! ### Receiving -/

/-- What is handed out is good, and of a lane of which nobody holds anything. -/
theorem Lent.handOut (h : b.Lent name held) (hs : b.Shaped) {i : Nat} {m : Message}
    {queue : List Message} (hi : i < (b.channel name).lanes.length)
    (hlane : b.laneAt name i = ⟨m :: queue, none⟩) (count : UInt32) (cursor : Nat) :
    (b.changeLane name i (Lane.handOut { m with count }) cursor).Lent name
      (held ++ [{ m with count }.delivery name i]) := by
  have hlane_eq := hs.toNat_ofNat_lane hi
  -- a lane of which somebody holds something has no message to hand out
  have hfree : ∀ d ∈ held, d.lane.toNat ≠ i := by
    intro d hd heq
    obtain ⟨m', queue', hm', -⟩ := (h.isOut d hd).exists_message
    rw [heq, hlane] at hm'
    exact nomatch congrArg Lane.inFlight hm'
  refine ⟨fun d hd => ?_, ?_⟩
  · rcases List.mem_append.1 hd with hd | hd
    · exact (h.isOut d hd).changeLane hi _ cursor (hfree d hd)
    · obtain rfl := List.mem_singleton.1 hd
      refine ⟨rfl, ?_, ?_⟩
      · rw [Broker.changeLane, channel_setChannel, if_pos rfl, List.length_modify]
        exact hlane_eq.symm ▸ hi
      · refine ⟨{ m with count }, queue, ?_, rfl⟩
        show laneAt _ name (UInt32.ofNat i).toNat = _
        rw [hlane_eq, laneAt_changeLane hi, if_pos ⟨rfl, rfl⟩, hlane]
        rfl
  · rw [List.map_append, List.map_singleton, List.nodup_append]
    refine ⟨h.nodup, List.nodup_singleton _, fun lane hmem lane' hmem' heq => ?_⟩
    obtain ⟨d, hd, rfl⟩ := List.mem_map.1 hmem
    rw [List.mem_singleton.1 hmem'] at heq
    refine hfree d hd ?_
    rw [heq]
    exact hlane_eq

/-! ### Acknowledging -/

/-- What is held can be acknowledged, and then its letter is gone and nothing else. -/
theorem IsOut.settle {d : Delivery} (h : b.IsOut name d) :
    ∃ cursor, b.settle d .acknowledge =
        (.ok (), b.changeLane name d.lane.toNat Lane.release cursor) ∧
      (b.Shaped → (b.changeLane name d.lane.toNat Lane.release cursor).Shaped) ∧
      ∀ name', ((if name = name' then [d.letter] else []) ++
        (b.changeLane name d.lane.toNat Lane.release cursor).lettersOn name').Perm
          (b.lettersOn name') := by
  obtain ⟨rfl, hi, m, queue, hlane, hletter⟩ := h
  obtain ⟨_, cursor, -, hsettle⟩ :=
    settle_of_inFlight (by rw [hlane]) (congrArg Letter.id hletter) .acknowledge
  have hperm := (perm_release hi hlane cursor).2
  rw [hletter] at hperm
  exact ⟨cursor, hsettle, fun hs => hs.settled hi hlane cursor .acknowledge, hperm⟩

theorem Lent.release (h : b.Lent name held) {k : Nat} {d : Delivery} (hk : held[k]? = some d)
    (cursor : Nat) :
    (b.changeLane name d.lane.toNat Lane.release cursor).Lent name (held.eraseIdx k) := by
  obtain ⟨hlt, rfl⟩ := List.getElem?_eq_some_iff.1 hk
  have hperm := List.getElem_cons_eraseIdx_perm hlt
  have hnodup : ((held[k] :: held.eraseIdx k).map (·.lane)).Nodup :=
    (hperm.map _).nodup_iff.2 h.nodup
  rw [List.map_cons, List.nodup_cons] at hnodup
  refine ⟨fun d hd => ?_, hnodup.2⟩
  have hout := h.isOut d (List.mem_of_mem_eraseIdx hd)
  refine hout.changeLane (h.isOut _ (List.getElem_mem hlt)).lane_lt _ cursor fun heq => ?_
  exact hnodup.1 (List.mem_map.2 ⟨d, hd, UInt32.toNat_inj.1 heq⟩)

end SpendingLedger.Broker
