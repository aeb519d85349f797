import SpendingLedger.Broker

/-!
What a broker holds, and what each operation does to it. Every operation changes one lane of one
channel, except that setting a message aside then also puts it at the end of another. Of a message,
all but the count stays as it was published: its letter.
-/

namespace SpendingLedger

/-- What was published: a message without the count of its deliveries. -/
structure Letter where
  id : Int64
  key : String
  payload : ByteArray
  publishedAt : Timestamp
deriving DecidableEq

def Message.letter (m : Message) : Letter := ⟨m.id, m.key, m.payload, m.publishedAt⟩

/-- The letter that a receiver is shown. -/
def Delivery.letter (d : Delivery) : Letter := ⟨d.id, d.key, d.payload, d.publishedAt⟩

/-- What a receiver is shown of a message that is handed out from lane `i` of a channel. -/
def Message.delivery (m : Message) (name : String) (i : Nat) : Delivery :=
  ⟨m.id, name, m.key, UInt32.ofNat i, m.payload, m.count, m.publishedAt⟩

/-! ### Lists and tables -/

/-- Changing one element of a list changes its share of the whole. -/
theorem exists_perm_flatMap_modify {α β : Type} (f : α → List β) {l : List α} {i : Nat} {a : α}
    (h : l[i]? = some a) :
    ∃ rest, (l.flatMap f).Perm (f a ++ rest) ∧
      ∀ g, ((l.modify i g).flatMap f).Perm (f (g a) ++ rest) := by
  induction l generalizing i with
  | nil => simp at h
  | cons b l ih =>
    cases i with
    | zero =>
      obtain rfl : b = a := by simpa using h
      exact ⟨l.flatMap f, by simp, fun g => by simp⟩
    | succ i =>
      obtain ⟨rest, hl, hg⟩ := ih (i := i) (by simpa using h)
      refine ⟨f b ++ rest, ?_, fun g => ?_⟩
      · rw [List.flatMap_cons]
        exact (hl.append_left (f b)).trans (List.perm_append_comm_assoc ..)
      · rw [List.modify_succ_cons, List.flatMap_cons]
        exact ((hg g).append_left (f b)).trans (List.perm_append_comm_assoc ..)

namespace Table

variable {κ ν : Type} [DecidableEq κ]

/-- Giving a key its value changes its entry and no other. -/
theorem exists_perm_insert (t : Table κ ν) (k : κ) :
    ∃ rest, t.entries.Perm ((t.get? k).toList.map (k, ·) ++ rest) ∧
      ∀ v, (t.insert k v).entries.Perm ((k, v) :: rest) := by
  suffices h : ∀ l : List (κ × ν), ∃ rest, l.Perm ((lookup k l).toList.map (k, ·) ++ rest) ∧
      ∀ v, (put k v l).Perm ((k, v) :: rest) from h t.entries
  intro l
  induction l with
  | nil => exact ⟨[], .nil, fun v => .refl _⟩
  | cons e l ih =>
    obtain ⟨k', v'⟩ := e
    by_cases hk : k' = k
    · subst hk
      exact ⟨l, by simp [lookup], fun v => by simp [put]⟩
    · obtain ⟨rest, hl, hput⟩ := ih
      refine ⟨(k', v') :: rest, ?_, fun v => ?_⟩
      · simp only [lookup, hk, ↓reduceIte]
        exact (hl.cons _).trans List.perm_middle.symm
      · simp only [put, hk, ↓reduceIte]
        exact ((hput v).cons _).trans (.swap ..)

end Table

/-! ### Lanes -/

namespace Lane

def push (m : Message) (l : Lane) : Lane := { l with queue := l.queue ++ [m] }

def handOut (m : Message) (l : Lane) : Lane := { queue := l.queue.tail, inFlight := some m }

def drop (l : Lane) : Lane := { l with queue := l.queue.tail }

def release (l : Lane) : Lane := { l with inFlight := none }

def restore (m : Message) (l : Lane) : Lane := { queue := m :: l.queue, inFlight := none }

def letters (l : Lane) : List Letter := l.messages.map Message.letter

theorem letters_push (m : Message) (l : Lane) :
    (l.push m).letters.Perm (m.letter :: l.letters) := by
  simp only [letters, messages, push, List.map_append, ← List.append_assoc]
  exact List.perm_append_singleton ..

theorem letters_handOut (m : Message) (count : UInt32) (queue : List Message) :
    (handOut { m with count } ⟨m :: queue, none⟩).letters = letters ⟨m :: queue, none⟩ := rfl

theorem letters_release (m : Message) (queue : List Message) :
    letters ⟨queue, some m⟩ = m.letter :: (release ⟨queue, some m⟩).letters := rfl

theorem letters_restore (m : Message) (queue : List Message) :
    (restore m ⟨queue, some m⟩).letters = letters ⟨queue, some m⟩ := rfl

end Lane

/-! ### Letters -/

def Channel.letters (c : Channel) : List Letter := c.lanes.flatMap Lane.letters

theorem Channel.letters_fresh (lanes : UInt32) : (fresh lanes).letters = [] := by
  rw [letters, fresh, List.flatMap_eq_nil_iff]
  intro l hl
  rw [List.eq_of_mem_replicate hl]
  rfl

theorem Channel.length_letters (c : Channel) : c.letters.length = c.pending := by
  rw [pending, ← List.sum_eq_foldr]
  simp only [letters, List.length_flatMap, Lane.letters, List.length_map]

/-- The next message of a channel is the head of a lane with nothing out. -/
theorem Channel.lane_of_next? {c : Channel} {i : Nat} {m : Message} (h : c.next? = some (i, m)) :
    ∃ queue, c.lanes[i]? = some ⟨m :: queue, none⟩ := by
  rw [next?] at h
  obtain ⟨j, -, hj⟩ := List.exists_of_findSome?_eq_some h
  obtain ⟨m', hready, hm⟩ := Option.map_eq_some_iff.1 hj
  obtain ⟨rfl, rfl⟩ := Prod.mk.inj hm
  rw [ready?] at hready
  split at hready
  · next m queue hlane =>
    obtain rfl := Option.some.inj hready
    exact ⟨queue, hlane⟩
  · contradiction

namespace Broker

/-- The letters of all queues and all slots, channel by channel. -/
def letters (b : Broker) : List Letter := b.channels.entries.flatMap (fun e => e.2.letters)

def lettersOn (b : Broker) (name : String) : List Letter := (b.channel name).letters

/-- Lane `i` of a channel, empty if there is none. -/
def laneAt (b : Broker) (name : String) (i : Nat) : Lane := (b.channel name).lanes[i]?.getD {}

theorem length_lettersOn (b : Broker) (name : String) :
    (b.lettersOn name).length = b.pending name := by
  rw [lettersOn, channel, pending]
  cases b.channels.get? name with
  | none =>
    rw [Option.getD_none, Channel.letters_fresh]
    rfl
  | some c => rw [Option.getD_some, Channel.length_letters]

theorem channel_setChannel (b : Broker) (name name' : String) (c : Channel) :
    (b.setChannel name c).channel name' = if name = name' then c else b.channel name' := by
  simp only [channel, setChannel, Table.get?_insert]
  split <;> rfl

/-- A channel that is replaced takes only its own letters with it. -/
theorem exists_perm_setChannel (b : Broker) (name : String) :
    ∃ others, b.letters.Perm (b.lettersOn name ++ others) ∧
      ∀ c, (b.setChannel name c).letters.Perm (c.letters ++ others) := by
  obtain ⟨rest, hrest, hinsert⟩ := b.channels.exists_perm_insert name
  refine ⟨rest.flatMap (fun e : String × Channel => e.2.letters), ?_, fun c =>
    (hinsert c).flatMap_right (fun e : String × Channel => e.2.letters)⟩
  refine (hrest.flatMap_right _).trans (.of_eq ?_)
  rw [List.flatMap_append, lettersOn, channel]
  cases b.channels.get? name with
  | none => rw [Option.getD_none, Channel.letters_fresh]; rfl
  | some c => simp

/-! ### Changing one lane -/

def changeLane (b : Broker) (name : String) (i : Nat) (f : Lane → Lane) (cursor : Nat) : Broker :=
  b.setChannel name ⟨(b.channel name).lanes.modify i f, cursor⟩

variable {b : Broker} {name : String} {i : Nat}

theorem getElem?_lanes (hi : i < (b.channel name).lanes.length) :
    (b.channel name).lanes[i]? = some (b.laneAt name i) := by
  rw [laneAt, List.getElem?_eq_getElem hi, Option.getD_some]

/-- A change of a lane changes its share of the letters, in the channel and in the broker. -/
theorem exists_perm_changeLane (hi : i < (b.channel name).lanes.length) :
    (∃ others, (b.lettersOn name).Perm ((b.laneAt name i).letters ++ others) ∧
      ∀ f cursor, ((b.changeLane name i f cursor).lettersOn name).Perm
        ((f (b.laneAt name i)).letters ++ others)) ∧
    (∃ others, b.letters.Perm ((b.laneAt name i).letters ++ others) ∧
      ∀ f cursor, (b.changeLane name i f cursor).letters.Perm
        ((f (b.laneAt name i)).letters ++ others)) := by
  obtain ⟨rest, hrest, hmodify⟩ := exists_perm_flatMap_modify Lane.letters (getElem?_lanes hi)
  obtain ⟨others, hothers, hset⟩ := b.exists_perm_setChannel name
  refine ⟨⟨rest, hrest, fun f cursor => ?_⟩, ⟨rest ++ others, ?_, fun f cursor => ?_⟩⟩
  · rw [lettersOn, changeLane, channel_setChannel, if_pos rfl]
    exact hmodify f
  · rw [← List.append_assoc]
    exact hothers.trans (hrest.append_right _)
  · rw [← List.append_assoc]
    exact (hset _).trans ((hmodify f).append_right _)

/-- What is out on a lane is in its channel, and in the broker. -/
theorem mem_letters (hi : i < (b.channel name).lanes.length) {m : Message} {queue : List Message}
    (hlane : b.laneAt name i = ⟨queue, some m⟩) :
    m.letter ∈ b.lettersOn name ∧ m.letter ∈ b.letters := by
  obtain ⟨⟨_, hon, -⟩, ⟨_, hletters, -⟩⟩ := exists_perm_changeLane hi
  have hmem : m.letter ∈ (b.laneAt name i).letters := by
    rw [hlane]
    exact List.mem_cons_self
  exact ⟨hon.symm.subset (List.mem_append_left _ hmem),
    hletters.symm.subset (List.mem_append_left _ hmem)⟩

/-- What goes from a lane and what comes to it goes from the broker and comes to it. -/
theorem perm_letters_changeLane (hi : i < (b.channel name).lanes.length) {f : Lane → Lane}
    (cursor : Nat) (gone come : List Letter)
    (hf : (gone ++ (f (b.laneAt name i)).letters).Perm (come ++ (b.laneAt name i).letters)) :
    (gone ++ (b.changeLane name i f cursor).letters).Perm (come ++ b.letters) := by
  obtain ⟨-, others, hb, hchange⟩ := exists_perm_changeLane hi
  have h := ((hchange f cursor).append_left gone).trans (.of_eq (List.append_assoc ..).symm)
  exact (h.trans (hf.append_right others)).trans
    ((List.Perm.of_eq (List.append_assoc ..)).trans (hb.symm.append_left come))

/-- The same for one channel, where the lane has to be one of its own. -/
theorem perm_lettersOn_changeLane (hi : i < (b.channel name).lanes.length) {f : Lane → Lane}
    (cursor : Nat) (gone come : List Letter)
    (hf : (gone ++ (f (b.laneAt name i)).letters).Perm (come ++ (b.laneAt name i).letters))
    (name' : String) :
    ((if name = name' then gone else []) ++ (b.changeLane name i f cursor).lettersOn name').Perm
      ((if name = name' then come else []) ++ b.lettersOn name') := by
  by_cases hname : name = name'
  · subst hname
    rw [if_pos rfl, if_pos rfl]
    obtain ⟨⟨others, hb, hchange⟩, -⟩ := exists_perm_changeLane hi
    have h := ((hchange f cursor).append_left gone).trans (.of_eq (List.append_assoc ..).symm)
    exact (h.trans (hf.append_right others)).trans
      ((List.Perm.of_eq (List.append_assoc ..)).trans (hb.symm.append_left come))
  · rw [if_neg hname, if_neg hname, lettersOn, changeLane, channel_setChannel, if_neg hname,
      lettersOn]

theorem laneAt_changeLane (hi : i < (b.channel name).lanes.length) (f : Lane → Lane)
    (cursor : Nat) (name' : String) (i' : Nat) :
    (b.changeLane name i f cursor).laneAt name' i' =
      if name = name' ∧ i = i' then f (b.laneAt name i) else b.laneAt name' i' := by
  by_cases hname : name = name'
  · subst hname
    rw [laneAt, changeLane, channel_setChannel, if_pos rfl, List.getElem?_modify]
    by_cases hi' : i = i'
    · subst hi'
      rw [if_pos ⟨rfl, rfl⟩, getElem?_lanes hi]
      simp
    · rw [if_neg (fun h => hi' h.2), laneAt]
      simp [hi']
  · rw [if_neg (fun h => hname h.1), laneAt, changeLane, channel_setChannel, if_neg hname, laneAt]

/-! ### What the operations do -/

theorem enqueue_eq (b : Broker) (name : String) (m : Message) :
    b.enqueue name m =
      b.changeLane name (laneOf m.key b.lanes).toNat (Lane.push m) (b.channel name).cursor := rfl

theorem channel_of_get? {c : Channel} (h : b.channels.get? name = some c) :
    b.channel name = c := by
  rw [channel, h, Option.getD_some]

/-- What is taken is the head of a lane with nothing out. It goes out counted once more, or is gone
where that does not fit. -/
theorem takeIn_cases (o : Overflow) (b : Broker) (name : String) :
    b.takeIn o name = (.nothing, b) ∨ ∃ i m queue cursor, i < (b.channel name).lanes.length ∧
      b.laneAt name i = ⟨m :: queue, none⟩ ∧
      (b.takeIn o name = (.message ({ m with count := m.count + 1 }.delivery name i),
          b.changeLane name i (Lane.handOut { m with count := m.count + 1 }) cursor) ∧
          (o = .stops → m.count.toNat + 1 < 2 ^ 32) ∨
        b.takeIn o name = (.stopped, b.changeLane name i Lane.drop cursor) ∧
          o = .stops ∧ 2 ^ 32 ≤ m.count.toNat + 1) := by
  rw [takeIn]
  cases hc : b.channels.get? name with
  | none => exact .inl rfl
  | some c =>
    have hchannel := channel_of_get? hc
    cases hnext : c.next? with
    | none => simp [hnext]
    | some next =>
      obtain ⟨i, m⟩ := next
      obtain ⟨queue, hlane⟩ := Channel.lane_of_next? hnext
      have hi : i < (b.channel name).lanes.length := by
        rw [hchannel]
        exact (List.getElem?_eq_some_iff.1 hlane).1
      have hhead : b.laneAt name i = ⟨m :: queue, none⟩ := by
        rw [laneAt, hchannel, hlane, Option.getD_some]
      cases hcount : o.next32? m.count with
      | none =>
        refine .inr ⟨i, m, queue, c.cursor, hi, hhead, .inr ⟨?_, ?_⟩⟩
        · simp only [hnext, hcount, changeLane, hchannel]
          rfl
        · exact Overflow.next32?_eq_none_iff.1 hcount
      | some count =>
        obtain ⟨rfl, hfits⟩ := Overflow.next32?_eq_some_iff.1 hcount
        refine .inr ⟨i, m, queue, (i + 1) % c.lanes.length, hi, hhead, .inl ⟨?_, hfits⟩⟩
        simp only [hnext, hcount, changeLane, hchannel]
        rfl

/-- Where counts start over, the next message goes out whatever its count is. -/
theorem take_eq (b : Broker) (name : String) : b.take name =
    match b.channels.get? name with
    | none => (none, b)
    | some c =>
      match c.next? with
      | none => (none, b)
      | some (i, m) => (some ({ m with count := m.count + 1 }.delivery name i),
          b.setChannel name (c.handOut i { m with count := m.count + 1 })) := by
  rw [take, takeIn]
  cases b.channels.get? name with
  | none => rfl
  | some c => cases hnext : c.next? <;> simp only [hnext] <;> rfl

/-- What is handed out is the head of a lane with nothing out, counted once more. -/
theorem take_cases (b : Broker) (name : String) :
    b.take name = (none, b) ∨ ∃ i m queue cursor, i < (b.channel name).lanes.length ∧
      b.laneAt name i = ⟨m :: queue, none⟩ ∧ b.take name =
        (some ({ m with count := m.count + 1 }.delivery name i),
          b.changeLane name i (Lane.handOut { m with count := m.count + 1 }) cursor) := by
  rw [take]
  rcases takeIn_cases .wraps b name with
    htake | ⟨i, m, queue, cursor, hi, hlane, ⟨htake, -⟩ | ⟨-, ho, -⟩⟩
  · rw [htake]
    exact .inl rfl
  · rw [htake]
    exact .inr ⟨i, m, queue, cursor, hi, hlane, rfl⟩
  · cases ho

/-- A delivery stands for the message that is out on its lane, if that has its number. -/
theorem inFlight?_eq_some_iff {d : Delivery} {c : Channel} {m : Message} :
    b.inFlight? d = some (c, m) ↔ b.channels.get? d.channel = some c ∧
      (∃ l, c.lanes[d.lane.toNat]? = some l ∧ l.inFlight = some m) ∧ m.id = d.id := by
  simp only [inFlight?, Option.bind_eq_bind, Option.bind_eq_some_iff, Option.ite_none_right_eq_some,
    Option.some.injEq, Prod.mk.injEq]
  constructor
  · rintro ⟨c', hc, l, hl, m', hm, hid, rfl, rfl⟩
    exact ⟨hc, ⟨l, hl, hm⟩, hid⟩
  · rintro ⟨hc, ⟨l, hl, hm⟩, hid⟩
    exact ⟨c, hc, l, hl, m, hm, hid, rfl, rfl⟩

/-- What becomes of a lane when what is out on it is settled. -/
def settled (b : Broker) (d : Delivery) (m : Message) (cursor : Nat) : Settlement → Broker
  | .acknowledge => b.changeLane d.channel d.lane.toNat Lane.release cursor
  | .requeue => b.changeLane d.channel d.lane.toNat (Lane.restore m) cursor
  | .setAside _ => (b.changeLane d.channel d.lane.toNat Lane.release cursor).enqueue
      (setAsideChannel d.channel) { m with count := 0 }

/-- Settling succeeds exactly if the number is that of the message that is out. -/
theorem settle_cases (b : Broker) (d : Delivery) (s : Settlement) :
    (b.inFlight? d = none ∧ b.settle d s = (.error (.unknownDelivery d.channel d.id), b)) ∨
    ∃ c m queue cursor, b.inFlight? d = some (c, m) ∧
      d.lane.toNat < (b.channel d.channel).lanes.length ∧
      b.laneAt d.channel d.lane.toNat = ⟨queue, some m⟩ ∧ m.id = d.id ∧
      b.settle d s = (.ok (), b.settled d m cursor s) := by
  rw [settle]
  cases h : b.inFlight? d with
  | none => exact .inl ⟨rfl, rfl⟩
  | some out =>
    obtain ⟨c, m⟩ := out
    obtain ⟨hc, ⟨⟨queue, _⟩, hl, rfl⟩, hid⟩ := inFlight?_eq_some_iff.1 h
    have hchannel := channel_of_get? hc
    refine .inr ⟨c, m, queue, c.cursor, rfl, ?_, ?_, hid, ?_⟩
    · rw [hchannel]
      exact (List.getElem?_eq_some_iff.1 hl).1
    · rw [laneAt, hchannel, hl, Option.getD_some]
    · cases s <;> simp only [settled, changeLane, hchannel] <;> rfl

/-- What is out on a lane is settled by any delivery with its number. -/
theorem settle_of_inFlight {d : Delivery} {m : Message}
    (hm : (b.laneAt d.channel d.lane.toNat).inFlight = some m) (hid : m.id = d.id)
    (s : Settlement) :
    ∃ c cursor, b.inFlight? d = some (c, m) ∧ b.settle d s = (.ok (), b.settled d m cursor s) := by
  obtain ⟨c, hc, l, hl, hm⟩ : ∃ c, b.channels.get? d.channel = some c ∧
      ∃ l, c.lanes[d.lane.toNat]? = some l ∧ l.inFlight = some m := by
    rw [laneAt, channel] at hm
    cases hc : b.channels.get? d.channel with
    | none =>
      rw [hc, Option.getD_none, Channel.fresh, List.getElem?_replicate] at hm
      split at hm <;> cases hm
    | some c =>
      rw [hc, Option.getD_some] at hm
      cases hl : c.lanes[d.lane.toNat]? with
      | none =>
        rw [hl] at hm
        cases hm
      | some l =>
        rw [hl, Option.getD_some] at hm
        exact ⟨c, rfl, l, hl, hm⟩
  have hout : b.inFlight? d = some (c, m) := inFlight?_eq_some_iff.2 ⟨hc, ⟨l, hl, hm⟩, hid⟩
  rcases b.settle_cases d s with ⟨hnone, -⟩ | ⟨c', m', _, cursor, hsome, -, -, -, hsettle⟩
  · rw [hout] at hnone
    contradiction
  · rw [hout] at hsome
    obtain ⟨rfl, rfl⟩ := Prod.mk.inj (Option.some.inj hsome)
    exact ⟨c, cursor, hout, hsettle⟩

/-! ### Shape -/

/-- Every channel has its lanes, and every letter is on the lane of its key. -/
structure Shaped (b : Broker) : Prop where
  lanes_pos : 0 < b.lanes.toNat
  length_lanes : ∀ name, (b.channel name).lanes.length = b.lanes.toNat
  laneOf_eq : ∀ name i, ∀ x ∈ (b.laneAt name i).letters, (laneOf x.key b.lanes).toNat = i

theorem toNat_max_one (lanes : UInt32) : (max lanes 1).toNat = max lanes.toNat 1 := by
  show (if lanes ≤ 1 then 1 else lanes).toNat = _
  split <;> rename_i h <;> rw [UInt32.le_iff_toNat_le] at h <;> simp at h ⊢ <;> omega

theorem laneOf_lt (key : String) {lanes : UInt32} (h : 0 < lanes.toNat) :
    (laneOf key lanes).toNat < lanes.toNat := by
  rw [laneOf, UInt32.toNat_mod, toNat_max_one, Nat.max_eq_left h]
  exact Nat.mod_lt _ h

/-- With one lane there is no choice. -/
theorem laneOf_one (key : String) : laneOf key 1 = 0 := by
  rw [← UInt32.toNat_inj, laneOf, UInt32.toNat_mod]
  exact Nat.mod_one _

theorem shaped_new (lanes : UInt32) : (new lanes).Shaped where
  lanes_pos := by
    rw [new, toNat_max_one]
    omega
  length_lanes _ := List.length_replicate
  laneOf_eq name i x hx := by
    rw [laneAt, channel, new, Table.get?_empty, Option.getD_none, Channel.fresh,
      List.getElem?_replicate] at hx
    split at hx <;> exact nomatch hx

theorem Shaped.laneOf_lt (h : b.Shaped) (key name : String) :
    (laneOf key b.lanes).toNat < (b.channel name).lanes.length := by
  rw [h.length_lanes]
  exact Broker.laneOf_lt key h.lanes_pos

/-- The number of a lane is one of 32 bits. -/
theorem Shaped.toNat_ofNat_lane (h : b.Shaped) (hi : i < (b.channel name).lanes.length) :
    (UInt32.ofNat i).toNat = i := by
  rw [h.length_lanes] at hi
  exact UInt32.toNat_ofNat_of_lt' (Nat.lt_trans hi b.lanes.toNat_lt)

theorem Shaped.changeLane (h : b.Shaped) (hi : i < (b.channel name).lanes.length)
    {f : Lane → Lane} (cursor : Nat)
    (hf : ∀ x ∈ (f (b.laneAt name i)).letters, (laneOf x.key b.lanes).toNat = i) :
    (b.changeLane name i f cursor).Shaped where
  lanes_pos := h.lanes_pos
  length_lanes name' := by
    rw [Broker.changeLane, channel_setChannel]
    split
    · rw [List.length_modify]
      exact h.length_lanes name
    · exact h.length_lanes name'
  laneOf_eq name' i' x hx := by
    rw [laneAt_changeLane hi] at hx
    split at hx
    · next heq => exact heq.2 ▸ hf x hx
    · exact h.laneOf_eq name' i' x hx

theorem Shaped.enqueue (h : b.Shaped) (name : String) (m : Message) :
    (b.enqueue name m).Shaped := by
  have hi := h.laneOf_lt m.key name
  rw [enqueue_eq]
  refine h.changeLane hi _ fun x hx => ?_
  rcases List.mem_cons.1 ((Lane.letters_push m _).mem_iff.1 hx) with rfl | hx
  · rfl
  · exact h.laneOf_eq name _ x hx

theorem Shaped.handOut (h : b.Shaped) (hi : i < (b.channel name).lanes.length) {m : Message}
    {queue : List Message} (hlane : b.laneAt name i = ⟨m :: queue, none⟩) (count : UInt32)
    (cursor : Nat) : (b.changeLane name i (Lane.handOut { m with count }) cursor).Shaped := by
  refine h.changeLane hi cursor fun x hx => h.laneOf_eq name i x ?_
  rw [hlane] at hx ⊢
  rwa [Lane.letters_handOut] at hx

theorem Shaped.drop (h : b.Shaped) (hi : i < (b.channel name).lanes.length) {m : Message}
    {queue : List Message} (hlane : b.laneAt name i = ⟨m :: queue, none⟩) (cursor : Nat) :
    (b.changeLane name i Lane.drop cursor).Shaped := by
  refine h.changeLane hi cursor fun x hx => h.laneOf_eq name i x ?_
  rw [hlane] at hx ⊢
  exact List.mem_cons_of_mem _ hx

theorem Shaped.settled (h : b.Shaped) {d : Delivery}
    (hi : d.lane.toNat < (b.channel d.channel).lanes.length) {m : Message} {queue : List Message}
    (hlane : b.laneAt d.channel d.lane.toNat = ⟨queue, some m⟩) (cursor : Nat) (s : Settlement) :
    (b.settled d m cursor s).Shaped := by
  have hrelease : (b.changeLane d.channel d.lane.toNat Lane.release cursor).Shaped := by
    refine h.changeLane hi cursor fun x hx => h.laneOf_eq d.channel _ x ?_
    rw [hlane] at hx ⊢
    exact List.mem_cons_of_mem _ hx
  cases s with
  | acknowledge => exact hrelease
  | requeue =>
    refine h.changeLane hi cursor fun x hx => h.laneOf_eq d.channel _ x ?_
    rw [hlane] at hx ⊢
    exact hx
  | setAside reason => exact hrelease.enqueue ..

/-! ### What the operations do to the letters -/

/-- What is put on a channel is there, beside what was. -/
theorem perm_enqueue (h : b.Shaped) (name : String) (m : Message) :
    (b.enqueue name m).letters.Perm (m.letter :: b.letters) ∧ ∀ name',
      ((b.enqueue name m).lettersOn name').Perm
        ((if name = name' then [m.letter] else []) ++ b.lettersOn name') := by
  have hi := h.laneOf_lt m.key name
  have hpush := Lane.letters_push m (b.laneAt name (laneOf m.key b.lanes).toNat)
  rw [enqueue_eq]
  refine ⟨perm_letters_changeLane hi _ [] [m.letter] hpush, fun name' => ?_⟩
  have := perm_lettersOn_changeLane hi (b.channel name).cursor [] [m.letter] hpush name'
  rwa [ite_self, List.nil_append] at this

/-- A lane that keeps its letters leaves those of the broker as they are. -/
theorem perm_changeLane_of_letters_eq (hi : i < (b.channel name).lanes.length) {f : Lane → Lane}
    (cursor : Nat) (hf : (f (b.laneAt name i)).letters = (b.laneAt name i).letters) :
    (b.changeLane name i f cursor).letters.Perm b.letters ∧ ∀ name',
      ((b.changeLane name i f cursor).lettersOn name').Perm (b.lettersOn name') := by
  have hperm := List.Perm.of_eq hf
  refine ⟨perm_letters_changeLane hi cursor [] [] hperm, fun name' => ?_⟩
  have := perm_lettersOn_changeLane hi cursor [] [] hperm name'
  rwa [ite_self, List.nil_append, List.nil_append] at this

theorem perm_release (hi : i < (b.channel name).lanes.length) {m : Message} {queue : List Message}
    (hlane : b.laneAt name i = ⟨queue, some m⟩) (cursor : Nat) :
    (m.letter :: (b.changeLane name i Lane.release cursor).letters).Perm b.letters ∧ ∀ name',
      ((if name = name' then [m.letter] else []) ++
        (b.changeLane name i Lane.release cursor).lettersOn name').Perm (b.lettersOn name') := by
  have hperm : ([m.letter] ++ (b.laneAt name i).release.letters).Perm
      ([] ++ (b.laneAt name i).letters) := by
    rw [hlane, Lane.letters_release]
    rfl
  refine ⟨perm_letters_changeLane hi cursor [m.letter] [] hperm, fun name' => ?_⟩
  have := perm_lettersOn_changeLane hi cursor [m.letter] [] hperm name'
  rwa [ite_self, List.nil_append] at this

end Broker

end SpendingLedger
