import SpendingLedger.Proofs.Broker.Contents

/-!
Brokers with their past. Anybody may ask anything in any order, and settle with any delivery.
Publishing and receiving may be interrupted halfway: the first half of publishing takes a number,
the second puts the message on its lane; receiving looks whether the broker is open before it takes
a message. In a program that is built to stop, taking a message may come to nothing.
-/

namespace SpendingLedger

inductive Operation where
  | publish (now : Timestamp) (name key : String) (payload : ByteArray)
  /-- The first half of publishing. -/
  | reserve
  /-- The second half, under one of the numbers that are reserved. -/
  | post (k : Nat) (now : Timestamp) (name key : String) (payload : ByteArray)
  | receive (name : String)
  /-- The second half of receiving. -/
  | take (name : String)
  | settle (d : Delivery) (s : Settlement)
  | setUnreachable (unreachable : Bool)
  | close

/-- What has come about. -/
inductive Occurrence where
  | publish (name : String) (x : Letter)
  | handOut (d : Delivery)
  /-- A message was settled, whatever else the delivery said about it. -/
  | settle (d : Delivery) (x : Letter) (s : Settlement)

/-- A broker, the numbers of the publishes that are halfway, and its past, oldest first. -/
structure History where
  broker : Broker
  reserved : List Int64 := []
  past : List Occurrence := []

namespace History

def new (lanes : UInt32) : History := { broker := .new lanes }

def perform (h : History) : Operation → History
  | .publish now name key payload =>
    match h.broker.publish now name key payload with
    | (.error _, b) => { h with broker := b }
    | (.ok id, b) =>
      { h with broker := b, past := h.past ++ [.publish name ⟨id, key, payload, now⟩] }
  | .reserve =>
    if h.broker.closed || h.broker.unreachable then h
    else
      { h with
        broker := { h.broker with lastId := h.broker.lastId + 1 }
        reserved := h.reserved ++ [h.broker.lastId + 1] }
  | .post k now name key payload =>
    match h.reserved[k]? with
    | none => h
    | some id =>
      { broker := h.broker.enqueue name ⟨id, key, payload, 0, now⟩
        reserved := h.reserved.eraseIdx k
        past := h.past ++ [.publish name ⟨id, key, payload, now⟩] }
  | .receive name =>
    match h.broker.receive name with
    | (.ok (some d), b) => { h with broker := b, past := h.past ++ [.handOut d] }
    | (_, b) => { h with broker := b }
  | .take name =>
    match h.broker.take name with
    | (some d, b) => { h with broker := b, past := h.past ++ [.handOut d] }
    | (none, b) => { h with broker := b }
  | .settle d s =>
    match h.broker.inFlight? d, h.broker.settle d s with
    | some (_, m), (.ok (), b) => { h with broker := b, past := h.past ++ [.settle d m.letter s] }
    | _, (_, b) => { h with broker := b }
  | .setUnreachable unreachable => { h with broker := { h.broker with unreachable } }
  | .close => { h with broker := h.broker.close }

def run (h : History) (ops : List Operation) : History := ops.foldl perform h

/-- The same in a program that wraps or stops where a count does not fit. -/
def performIn (o : Overflow) (h : History) : Operation → History
  | .receive name =>
    match h.broker.receiveIn o name with
    | (.ok (.message d), b) => { h with broker := b, past := h.past ++ [.handOut d] }
    | (_, b) => { h with broker := b }
  | .take name =>
    match h.broker.takeIn o name with
    | (.message d, b) => { h with broker := b, past := h.past ++ [.handOut d] }
    | (_, b) => { h with broker := b }
  | op => h.perform op

def runIn (o : Overflow) (h : History) (ops : List Operation) : History := ops.foldl (performIn o) h

theorem performIn_wraps (h : History) (op : Operation) : h.performIn .wraps op = h.perform op := by
  cases op with
  | receive name =>
    simp only [performIn, perform, Broker.receiveIn, Broker.receive, Broker.take]
    cases h.broker.closed with
    | true => rfl
    | false => rcases h.broker.takeIn .wraps name with ⟨_ | _ | _, b⟩ <;> rfl
  | take name =>
    simp only [performIn, perform, Broker.take]
    rcases h.broker.takeIn .wraps name with ⟨_ | _ | _, b⟩ <;> rfl
  | _ => rfl

/-- Publishing is its two halves, one right after the other. -/
theorem perform_publish (h : History) (now : Timestamp) (name key : String) (payload : ByteArray) :
    h.perform (.publish now name key payload) =
      (h.perform .reserve).perform (.post h.reserved.length now name key payload) := by
  simp only [perform, Broker.publish]
  cases h.broker.closed with
  | true => simp
  | false =>
    cases h.broker.unreachable with
    | true => simp
    | false => simp [List.eraseIdx_append_of_length_le]

theorem performIn_receive (o : Overflow) (h : History) (name : String) :
    h.performIn o (.receive name) = h ∨
      h.performIn o (.receive name) = h.performIn o (.take name) := by
  simp only [performIn, Broker.receiveIn]
  cases h.broker.closed with
  | true => exact .inl rfl
  | false =>
    rcases ht : h.broker.takeIn o name with ⟨_ | d | _, b⟩ <;> exact .inr (by simp)

/-- Receiving from an open broker is its second half. -/
theorem perform_receive (h : History) (name : String) :
    h.perform (.receive name) = h ∨ h.perform (.receive name) = h.perform (.take name) := by
  simpa only [performIn_wraps] using performIn_receive .wraps h name

theorem broker_perform_settle (h : History) (d : Delivery) (how : Settlement) :
    (h.perform (.settle d how)).broker = (h.broker.settle d how).2 := by
  rw [perform]
  rcases h.broker.settle_cases d how with ⟨hnone, hsettle⟩ |
    ⟨c, m, queue, cursor, hsome, -, -, -, hsettle⟩ <;> rw [hsettle]
  · rw [hnone]
  · rw [hsome]

/-! ### Moves -/

/-- What one operation, or half of one, does. -/
inductive Move (o : Overflow) (h : History) : History → Prop
  | switch (closed unreachable : Bool) :
    Move o h { h with broker := { h.broker with closed, unreachable } }
  | reserve :
    Move o h { h with
      broker := { h.broker with lastId := h.broker.lastId + 1 }
      reserved := h.reserved ++ [h.broker.lastId + 1] }
  | post (k : Nat) (id : Int64) (now : Timestamp) (name key : String) (payload : ByteArray)
      (hk : h.reserved[k]? = some id) :
    Move o h {
      broker := h.broker.enqueue name ⟨id, key, payload, 0, now⟩
      reserved := h.reserved.eraseIdx k
      past := h.past ++ [.publish name ⟨id, key, payload, now⟩] }
  | take (name : String) (i : Nat) (m : Message) (queue : List Message) (cursor : Nat)
      (hi : i < (h.broker.channel name).lanes.length)
      (hlane : h.broker.laneAt name i = ⟨m :: queue, none⟩)
      (hfits : o = .stops → m.count.toNat + 1 < 2 ^ 32) :
    Move o h { h with
      broker := h.broker.changeLane name i (Lane.handOut { m with count := m.count + 1 }) cursor
      past := h.past ++ [.handOut ({ m with count := m.count + 1 }.delivery name i)] }
  /-- A message whose count does not fit is gone. -/
  | lose (name : String) (i : Nat) (m : Message) (queue : List Message) (cursor : Nat)
      (hi : i < (h.broker.channel name).lanes.length)
      (hlane : h.broker.laneAt name i = ⟨m :: queue, none⟩) (ho : o = .stops)
      (hcount : 2 ^ 32 ≤ m.count.toNat + 1) :
    Move o h { h with broker := h.broker.changeLane name i Lane.drop cursor }
  | settle (d : Delivery) (s : Settlement) (m : Message) (queue : List Message) (cursor : Nat)
      (hi : d.lane.toNat < (h.broker.channel d.channel).lanes.length)
      (hlane : h.broker.laneAt d.channel d.lane.toNat = ⟨queue, some m⟩) (hid : m.id = d.id) :
    Move o h { h with
      broker := h.broker.settled d m cursor s
      past := h.past ++ [.settle d m.letter s] }

variable {o : Overflow}

theorem move_refl (h : History) : Move o h h :=
  .switch h.broker.closed h.broker.unreachable

theorem move_takeIn (h : History) (name : String) : Move o h (h.performIn o (.take name)) := by
  rw [performIn]
  rcases h.broker.takeIn_cases o name with
    htake | ⟨i, m, queue, cursor, hi, hlane, ⟨htake, hfits⟩ | ⟨htake, ho, hcount⟩⟩ <;> rw [htake]
  · exact move_refl h
  · exact .take name i m queue cursor hi hlane hfits
  · exact .lose name i m queue cursor hi hlane ho hcount

theorem move_settle (h : History) (d : Delivery) (s : Settlement) :
    Move o h (h.perform (.settle d s)) := by
  rw [perform]
  rcases h.broker.settle_cases d s with ⟨hnone, hsettle⟩ |
    ⟨c, m, queue, cursor, hsome, hi, hlane, hid, hsettle⟩ <;> rw [hsettle]
  · rw [hnone]
    exact move_refl h
  · rw [hsome]
    exact .settle d s m queue cursor hi hlane hid

theorem move_reserve (h : History) : Move o h (h.perform .reserve) := by
  rw [perform]
  split
  · exact move_refl h
  · exact .reserve

theorem move_post (h : History) (k : Nat) (now : Timestamp) (name key : String)
    (payload : ByteArray) : Move o h (h.perform (.post k now name key payload)) := by
  rw [perform]
  split
  · exact move_refl h
  · next id hk => exact .post k id now name key payload hk

theorem performIn_keeps {P : History → Prop} (hmove : ∀ {h h'}, Move o h h' → P h → P h')
    {h : History} (op : Operation) (hp : P h) : P (h.performIn o op) := by
  cases op with
  | publish now name key payload =>
    rw [show h.performIn o (.publish now name key payload) =
      h.perform (.publish now name key payload) from rfl, perform_publish]
    exact hmove (move_post ..) (hmove (move_reserve h) hp)
  | reserve => exact hmove (move_reserve h) hp
  | post k now name key payload => exact hmove (move_post ..) hp
  | receive name =>
    rcases performIn_receive o h name with heq | heq <;> rw [heq]
    · exact hp
    · exact hmove (move_takeIn h name) hp
  | take name => exact hmove (move_takeIn h name) hp
  | settle d s => exact hmove (move_settle h d s) hp
  | setUnreachable unreachable => exact hmove (.switch h.broker.closed unreachable) hp
  | close => exact hmove (.switch true h.broker.unreachable) hp

theorem runIn_keeps {P : History → Prop} (hmove : ∀ {h h'}, Move o h h' → P h → P h')
    {h : History} (hp : P h) (ops : List Operation) : P (h.runIn o ops) := by
  induction ops generalizing h with
  | nil => exact hp
  | cons op rest ih => exact ih (performIn_keeps hmove op hp)

theorem perform_keeps {P : History → Prop} (hmove : ∀ {h h'}, Move .wraps h h' → P h → P h')
    {h : History} (op : Operation) (hp : P h) : P (h.perform op) :=
  performIn_wraps h op ▸ performIn_keeps hmove op hp

theorem runIn_wraps (h : History) (ops : List Operation) : h.runIn .wraps ops = h.run ops := by
  rw [runIn, run, show performIn .wraps = perform from
    funext fun h => funext fun op => performIn_wraps h op]

theorem run_keeps {P : History → Prop} (hmove : ∀ {h h'}, Move .wraps h h' → P h → P h')
    {h : History} (hp : P h) (ops : List Operation) : P (h.run ops) :=
  runIn_wraps h ops ▸ runIn_keeps hmove hp ops

theorem Move.shaped {h h' : History} (hmove : Move o h h') (hs : h.broker.Shaped) :
    h'.broker.Shaped := by
  cases hmove with
  | switch | reserve => exact ⟨hs.lanes_pos, hs.length_lanes, hs.laneOf_eq⟩
  | post => exact hs.enqueue ..
  | take name i m queue cursor hi hlane => exact hs.handOut hi hlane _ cursor
  | lose name i m queue cursor hi hlane => exact hs.drop hi hlane cursor
  | settle d s m queue cursor hi hlane => exact hs.settled hi hlane cursor s

theorem shaped_run (lanes : UInt32) (ops : List Operation) :
    ((new lanes).run ops).broker.Shaped :=
  run_keeps Move.shaped (Broker.shaped_new lanes) ops

theorem Move.lanes_eq {h h' : History} (hmove : Move o h h') :
    h'.broker.lanes = h.broker.lanes := by
  cases hmove with
  | settle d s => cases s <;> rfl
  | _ => rfl

end History

end SpendingLedger
