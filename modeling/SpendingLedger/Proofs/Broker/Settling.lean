import SpendingLedger.Proofs.Broker.Progress
import SpendingLedger.Proofs.Broker.Resettlement

/-!
What settling changes, and what it leaves alone. A delivery is good if its channel is there and the
message out on its lane has its number. Then the lane is idle afterwards, and nothing else changes
but that a message given up is the last of the lane with the same number on another channel. With
any other delivery the broker stays as it is.
-/

namespace SpendingLedger

/-! ### Lists and tables -/

theorem modify_of_getElem? {α : Type} {l : List α} {i : Nat} {a : α} (h : l[i]? = some a)
    (f : α → α) : l.modify i f = l.set i (f a) := by
  rw [List.modify_eq_set_getElem?, h]
  rfl

namespace Table

variable {κ ν : Type} [DecidableEq κ]

/-- Giving a key the value it has changes nothing. -/
theorem insert_of_get?_eq_some {t : Table κ ν} {k : κ} {v : ν} (h : t.get? k = some v) :
    t.insert k v = t := by
  suffices hput : ∀ l : List (κ × ν), lookup k l = some v → put k v l = l by
    cases t
    simp only [insert, mk.injEq]
    exact hput _ h
  intro l hl
  induction l with
  | nil => contradiction
  | cons e rest ih =>
    obtain ⟨k', v'⟩ := e
    rw [lookup] at hl
    rw [put]
    split at hl
    · next heq =>
      obtain rfl := Option.some.inj hl
      rw [if_pos heq, heq]
    · next hne => rw [if_neg hne, ih hl]

/-- Of two values given to one key the later counts. -/
theorem insert_insert (t : Table κ ν) (k : κ) (v v' : ν) :
    (t.insert k v).insert k v' = t.insert k v' := by
  suffices hput : ∀ l : List (κ × ν), put k v' (put k v l) = put k v' l by
    simp only [insert, mk.injEq]
    exact hput _
  intro l
  induction l with
  | nil => simp [put]
  | cons e rest ih =>
    obtain ⟨k', v''⟩ := e
    by_cases h : k' = k <;> simp [put, h, ih]

end Table

namespace Broker

variable {b : Broker} {d : Delivery}

theorem setChannel_of_get? {name : String} {c : Channel} (h : b.channels.get? name = some c) :
    b.setChannel name c = b := by
  rw [setChannel, Table.insert_of_get?_eq_some h]

theorem setChannel_setChannel (b : Broker) (name : String) (c c' : Channel) :
    (b.setChannel name c).setChannel name c' = b.setChannel name c' := by
  simp only [setChannel, Table.insert_insert]

/-! ### Taking out before looking -/

/-- Takes away what is out on the lane of a delivery, and puts it back if it has another number. -/
def takeOut (b : Broker) (d : Delivery) : Except BrokerError Message × Broker :=
  let unknown := .error (.unknownDelivery d.channel d.id)
  match b.channels.get? d.channel with
  | none => (unknown, b)
  | some c =>
    match c.lanes[d.lane.toNat]? with
    | none => (unknown, b)
    | some l =>
      let taken := c.release d.lane.toNat
      let putBack : Channel :=
        { taken with lanes := taken.lanes.modify d.lane.toNat ({ · with inFlight := l.inFlight }) }
      match l.inFlight with
      | none => (unknown, b.setChannel d.channel putBack)
      | some m =>
        if m.id = d.id then (.ok m, b.setChannel d.channel taken)
        else (unknown, b.setChannel d.channel putBack)

/-- Settles what has been taken out. To put it at the head of its lane, the lane is looked up once
more. -/
def settleTaken (b : Broker) (d : Delivery) (m : Message) : Settlement → Broker
  | .acknowledge => b
  | .requeue =>
    match b.channels.get? d.channel with
    | none => b
    | some c =>
      b.setChannel d.channel
        { c with lanes := c.lanes.modify d.lane.toNat fun l => { l with queue := m :: l.queue } }
  | .setAside _ => b.enqueue (setAsideChannel d.channel) { m with count := 0 }

/-- Settles by taking out first and looking at the number afterwards. -/
def settleInPlace (b : Broker) (d : Delivery) (how : Settlement) :
    Except BrokerError Unit × Broker :=
  match b.takeOut d with
  | (.error e, b) => (.error e, b)
  | (.ok m, b) => (.ok (), b.settleTaken d m how)

theorem takeOut_of_none (h : b.inFlight? d = none) :
    b.takeOut d = (.error (.unknownDelivery d.channel d.id), b) := by
  rw [takeOut]
  cases hc : b.channels.get? d.channel with
  | none => rfl
  | some c =>
    simp only
    cases hl : c.lanes[d.lane.toNat]? with
    | none => rfl
    | some l =>
      -- what is put back is what was there
      have hputBack : (c.release d.lane.toNat).lanes.modify d.lane.toNat
          ({ · with inFlight := l.inFlight }) = c.lanes := by
        rw [Channel.release, List.modify_modify_eq, modify_of_getElem? hl]
        obtain ⟨hlt, rfl⟩ := List.getElem?_eq_some_iff.1 hl
        exact List.set_getElem_self hlt
      have hback : b.setChannel d.channel { c.release d.lane.toNat with
          lanes := (c.release d.lane.toNat).lanes.modify d.lane.toNat
            ({ · with inFlight := l.inFlight }) } = b := by
        rw [hputBack]
        exact setChannel_of_get? hc
      simp only [hback]
      cases hm : l.inFlight with
      | none => rfl
      | some m =>
        have hid : m.id ≠ d.id := fun hid => by
          rw [inFlight?_eq_some_iff.2 ⟨hc, ⟨l, hl, hm⟩, hid⟩] at h
          contradiction
        simp only [hid, ↓reduceIte]

theorem takeOut_of_some {c : Channel} {m : Message} (h : b.inFlight? d = some (c, m)) :
    b.takeOut d = (.ok m, b.setChannel d.channel (c.release d.lane.toNat)) := by
  obtain ⟨hc, ⟨l, hl, hm⟩, hid⟩ := inFlight?_eq_some_iff.1 h
  simp only [takeOut, hc, hl, hm, hid, ↓reduceIte]

/-- It comes to the same whether one takes out first or looks first. -/
theorem settleInPlace_eq (b : Broker) (d : Delivery) (how : Settlement) :
    b.settleInPlace d how = b.settle d how := by
  rw [settleInPlace, settle]
  cases h : b.inFlight? d with
  | none => rw [takeOut_of_none h]
  | some out =>
    obtain ⟨c, m⟩ := out
    rw [takeOut_of_some h]
    cases how with
    | acknowledge | setAside => rfl
    | requeue =>
      have hagain : (b.setChannel d.channel (c.release d.lane.toNat)).channels.get? d.channel =
          some (c.release d.lane.toNat) := Table.get?_insert_self ..
      simp only [settleTaken, hagain, setChannel_setChannel]
      simp only [Channel.release, Channel.restore, List.modify_modify_eq]
      rfl

end Broker

/-! ### The change -/

/-- The queue of a lane once the message that was out on it is settled. -/
def Settlement.leaves (m : Message) (queue : List Message) : Settlement → List Message
  | .requeue => m :: queue
  | .acknowledge | .setAside _ => queue

namespace Broker

/-- Settling `m`, which is out on lane `l` of channel `c`, makes `b'` of the broker. -/
structure Settles (b : Broker) (d : Delivery) (how : Settlement) (c : Channel) (l : Lane)
    (m : Message) (b' : Broker) : Prop where
  /-- The lane is idle, and the rest of the channel as it was. -/
  lane : b'.channels.get? d.channel =
    some { c with lanes := c.lanes.set d.lane.toNat ⟨how.leaves m l.queue, none⟩ }
  /-- What is given up is the last of the lane of that number on a channel that comes into being
  if it was not there. -/
  setAside : ∀ reason, how = .setAside reason →
    let c' := b.channel (setAsideChannel d.channel)
    ∃ l', c'.lanes[d.lane.toNat]? = some l' ∧ b'.channels.get? (setAsideChannel d.channel) =
      some { c' with
        lanes := c'.lanes.set d.lane.toNat
          { l' with queue := l'.queue ++ [{ m with count := 0 }] } }
  others : ∀ name, name ≠ d.channel →
    (∀ reason, how = .setAside reason → name ≠ setAsideChannel d.channel) →
    b'.channels.get? name = b.channels.get? name
  lanes_eq : b'.lanes = b.lanes
  lastId_eq : b'.lastId = b.lastId
  closed_eq : b'.closed = b.closed
  unreachable_eq : b'.unreachable = b.unreachable

variable {b : Broker} {d : Delivery} {how : Settlement} {c : Channel} {l : Lane} {m : Message}

theorem get?_setChannel_self (b : Broker) (name : String) (c : Channel) :
    (b.setChannel name c).channels.get? name = some c := Table.get?_insert_self ..

theorem get?_setChannel_of_ne {name name' : String} (h : name' ≠ name) (c : Channel) :
    (b.setChannel name c).channels.get? name' = b.channels.get? name' :=
  Table.get?_insert_of_ne _ _ h.symm

/-- The lane of the key is the one the message was out on. -/
theorem Shaped.laneOf_eq_lane (h : b.Shaped) (hc : b.channels.get? d.channel = some c)
    (hl : c.lanes[d.lane.toNat]? = some l) (hm : l.inFlight = some m) :
    (laneOf m.key b.lanes).toNat = d.lane.toNat := by
  refine h.laneOf_eq d.channel d.lane.toNat m.letter ?_
  rw [laneAt, channel_of_get? hc, hl, Option.getD_some, Lane.letters, Lane.messages, hm]
  exact List.mem_cons_self

theorem Shaped.settles (h : b.Shaped) (hc : b.channels.get? d.channel = some c)
    (hl : c.lanes[d.lane.toNat]? = some l) (hm : l.inFlight = some m) (hid : m.id = d.id)
    (how : Settlement) : b.Settles d how c l m (b.settle d how).2 := by
  have hout : b.inFlight? d = some (c, m) := inFlight?_eq_some_iff.2 ⟨hc, ⟨l, hl, hm⟩, hid⟩
  have hidle (f : Lane → Lane) : ({ c with lanes := c.lanes.modify d.lane.toNat f } : Channel) =
      { c with lanes := c.lanes.set d.lane.toNat (f l) } := by
    rw [modify_of_getElem? hl]
  rw [settle, hout]
  cases how with
  | acknowledge =>
    refine ⟨?_, fun _ hhow => Settlement.noConfusion hhow,
      fun name hne _ => get?_setChannel_of_ne hne _, rfl, rfl, rfl, rfl⟩
    rw [get?_setChannel_self, Channel.release, hidle]
    rfl
  | requeue =>
    refine ⟨?_, fun _ hhow => Settlement.noConfusion hhow,
      fun name hne _ => get?_setChannel_of_ne hne _, rfl, rfl, rfl, rfl⟩
    rw [get?_setChannel_self, Channel.restore, hidle]
    rfl
  | setAside reason =>
    have hne := setAsideChannel_ne d.channel
    have hkey := h.laneOf_eq_lane hc hl hm
    have hl' := getElem?_lanes (h.laneOf_lt m.key (setAsideChannel d.channel))
    rw [hkey] at hl'
    -- the lane that is released is on another channel than the one that is added to
    have hput : (b.setChannel d.channel (c.release d.lane.toNat)).enqueue
        (setAsideChannel d.channel) { m with count := 0 } =
          (b.setChannel d.channel (c.release d.lane.toNat)).setChannel (setAsideChannel d.channel)
            ((b.channel (setAsideChannel d.channel)).push d.lane.toNat { m with count := 0 }) := by
      rw [Broker.enqueue, channel_setChannel, if_neg hne.symm, ← hkey]
      rfl
    simp only [hput]
    refine ⟨?_, fun _ _ => ⟨_, hl', ?_⟩, fun name hname hnot => ?_, rfl, rfl, rfl, rfl⟩
    · rw [get?_setChannel_of_ne hne.symm, get?_setChannel_self, Channel.release, hidle]
      rfl
    · rw [get?_setChannel_self, Channel.push, modify_of_getElem? hl']
    · rw [get?_setChannel_of_ne (hnot reason rfl), get?_setChannel_of_ne hname]

end Broker

namespace History

/-- Settling succeeds exactly if the channel is there and the message out on the lane has the
number. If so the lane is idle, and the message is gone, put back as the first of the lane, or given
up as the last of the lane of that number; if not, the broker is as before. It does not matter
whether the message is taken out before its number is looked at. -/
theorem run_settle_framed (lanes : UInt32) (ops : List Operation) (d : Delivery)
    (how : Settlement) :
    let b := ((new lanes).run ops).broker
    let isOut := ∃ c l m, b.channels.get? d.channel = some c ∧ c.lanes[d.lane.toNat]? = some l ∧
      l.inFlight = some m ∧ m.id = d.id
    ((b.settle d how).1 = .ok () ↔ isOut) ∧
    (¬ isOut → b.settle d how = (.error (.unknownDelivery d.channel d.id), b)) ∧
    (∀ c l m, b.channels.get? d.channel = some c → c.lanes[d.lane.toNat]? = some l →
      l.inFlight = some m → m.id = d.id → b.Settles d how c l m (b.settle d how).2) ∧
    b.settleInPlace d how = b.settle d how := by
  intro b isOut
  have hshaped : b.Shaped := shaped_run lanes ops
  have hfails (hnot : ¬ isOut) :
      b.settle d how = (.error (.unknownDelivery d.channel d.id), b) := by
    rcases b.settle_cases d how with ⟨-, hsettle⟩ | ⟨c, m, -, -, hsome, -⟩
    · exact hsettle
    · obtain ⟨hc, ⟨l, hl, hm⟩, hid⟩ := Broker.inFlight?_eq_some_iff.1 hsome
      exact absurd ⟨c, l, m, hc, hl, hm, hid⟩ hnot
  refine ⟨⟨fun hok => ?_, ?_⟩, hfails, fun c l m hc hl hm hid => hshaped.settles hc hl hm hid how,
    b.settleInPlace_eq d how⟩
  · by_contra hnot
    rw [hfails hnot] at hok
    contradiction
  · rintro ⟨c, l, m, hc, hl, hm, hid⟩
    have hout : b.inFlight? d = some (c, m) :=
      Broker.inFlight?_eq_some_iff.2 ⟨hc, ⟨l, hl, hm⟩, hid⟩
    rw [Broker.settle, hout]

/-- The only message is given up, and the channel for it is new. -/
theorem run_settle_framed_new_channel :
    let d : Delivery := ⟨1, "transactions", "7", 0, ⟨#[1]⟩, 1, default⟩
    let m : Message := ⟨1, "7", ⟨#[1]⟩, 1, default⟩
    let b := ((new 1).run [.publish default "transactions" "7" ⟨#[1]⟩,
      .receive "transactions"]).broker
    b.channels.get? "transactions" = some ⟨[⟨[], some m⟩], 0⟩ ∧
      b.channels.get? (setAsideChannel "transactions") = none ∧
      b.Settles d (.setAside "broken") ⟨[⟨[], some m⟩], 0⟩ ⟨[], some m⟩ m
        (b.settle d (.setAside "broken")).2 := by
  intro d m b
  obtain ⟨hc, hnone⟩ : b.channels.get? "transactions" = some ⟨[⟨[], some m⟩], 0⟩ ∧
      b.channels.get? (setAsideChannel "transactions") = none := by
    simp only [b, run, List.foldl_cons, List.foldl_nil, perform_publish_one]
    exact ⟨rfl, rfl⟩
  exact ⟨hc, hnone, (run_settle_framed 1 _ d (.setAside "broken")).2.2.1 _ _ m hc rfl rfl rfl⟩

end History

end SpendingLedger
