import SpendingLedger.Proofs.Broker.Settling

/-!
No lane is passed over for long. What counts is how many lanes the next receive looks at before it
comes to a lane. While a message waits there, every receive on the channel either hands it out or
brings the lane nearer, and nothing else that is done to the broker moves it.
-/

namespace SpendingLedger

namespace Channel

/-- How many lanes the next receive looks at before lane `i`. -/
def distance (c : Channel) (i : Nat) : Nat := (((i : Int) - c.cursor) % c.lanes.length).toNat

variable {c : Channel} {i j k : Nat}

theorem distance_lt (hi : i < c.lanes.length) : c.distance i < c.lanes.length := by
  have hpos : (0 : Int) < c.lanes.length := by omega
  have hnonneg := Int.emod_nonneg ((i : Int) - c.cursor) (Int.ne_of_gt hpos)
  have hlt := Int.emod_lt_of_pos ((i : Int) - c.cursor) hpos
  rw [distance]
  omega

theorem distance_eq_iff (hi : i < c.lanes.length) (hk : k < c.lanes.length) :
    c.distance i = k ↔ (c.cursor + k) % c.lanes.length = i := by
  have hpos : (0 : Int) < c.lanes.length := by omega
  constructor
  · rintro rfl
    have hnonneg := Int.emod_nonneg ((i : Int) - c.cursor) (Int.ne_of_gt hpos)
    have hcast : ((c.cursor + c.distance i : Nat) : Int) % c.lanes.length = i := by
      have hsum : (c.cursor : Int) + (i - c.cursor) = i := by omega
      rw [Int.natCast_add, distance, Int.toNat_of_nonneg hnonneg, Int.add_emod_emod, hsum,
        Int.emod_eq_of_lt (by omega) (by omega)]
    exact_mod_cast hcast
  · intro h
    have hcast : ((i : Int) - c.cursor) % c.lanes.length = k := by
      have hdifference : ((c.cursor + k : Nat) : Int) - c.cursor = k := by omega
      rw [← h, Int.natCast_emod, Int.emod_sub_emod, hdifference,
        Int.emod_eq_of_lt (by omega) (by omega)]
    rw [distance, hcast, Int.toNat_natCast]

theorem cursor_add_distance (hi : i < c.lanes.length) :
    (c.cursor + c.distance i) % c.lanes.length = i :=
  (distance_eq_iff hi (distance_lt hi)).1 rfl

theorem distance_inj (hi : i < c.lanes.length) (hj : j < c.lanes.length) :
    c.distance j = c.distance i ↔ j = i := by
  refine ⟨fun h => ?_, congrArg c.distance⟩
  rw [← cursor_add_distance hj, h, cursor_add_distance hi]

theorem getElem?_scan (hk : k < c.lanes.length) :
    c.scan[k]? = some ((c.cursor + k) % c.lanes.length) := by
  rw [scan, List.getElem?_map, List.getElem?_range hk]
  rfl

/-- The lane that is found ready has no ready one before it. -/
theorem distance_le_of_next? {m m' : Message} {queue : List Message}
    (hnext : c.next? = some (j, m)) (hi : c.lanes[i]? = some ⟨m' :: queue, none⟩) :
    c.distance j ≤ c.distance i := by
  obtain ⟨queue', hj⟩ := lane_of_next? hnext
  have hjlt := (List.getElem?_eq_some_iff.1 hj).1
  have hilt := (List.getElem?_eq_some_iff.1 hi).1
  obtain ⟨before, j', after, hscan, hfound, hnone⟩ := List.findSome?_eq_some_iff.1 hnext
  obtain ⟨_, -, hpair⟩ := Option.map_eq_some_iff.1 hfound
  obtain rfl : j' = j := congrArg Prod.fst hpair
  have hlength : before.length < c.lanes.length := by
    have hlengths := congrArg List.length hscan
    rw [scan, List.length_map, List.length_range, List.length_append, List.length_cons] at hlengths
    omega
  have hdistance : c.distance j' = before.length := by
    have hget := getElem?_scan hlength
    rw [hscan, List.getElem?_append_right (Nat.le_refl _), Nat.sub_self] at hget
    exact (distance_eq_iff hjlt hlength).2 (Option.some.inj hget).symm
  rw [hdistance]
  by_contra hlt
  -- otherwise lane `i` stands before the one that was found, and is ready
  have hmem : i ∈ before := by
    have hget := getElem?_scan (distance_lt hilt)
    rw [cursor_add_distance hilt, hscan, List.getElem?_append_left (Nat.lt_of_not_le hlt)] at hget
    exact List.mem_of_getElem? hget
  have hready := hnone i hmem
  rw [ready?_eq_some_iff.2 ⟨queue, hi⟩] at hready
  contradiction

/-- Once another lane has handed out a message, a lane is nearer than it was. -/
theorem distance_handOut_lt (hi : i < c.lanes.length) (hj : j < c.lanes.length)
    (hlt : c.distance j < c.distance i) (m : Message) :
    (c.handOut j m).distance i < c.distance i := by
  have hlength : (c.handOut j m).lanes.length = c.lanes.length := List.length_modify ..
  have hdistance := distance_lt hi
  -- the cursor has gone on by the distance of the other lane, and one more
  have hnearer : (c.handOut j m).distance i = c.distance i - c.distance j - 1 := by
    rw [distance_eq_iff (by rwa [hlength]) (by omega), hlength]
    calc ((j + 1) % c.lanes.length + (c.distance i - c.distance j - 1)) % c.lanes.length
      _ = (j + (c.distance i - c.distance j)) % c.lanes.length := by
        rw [Nat.mod_add_mod]
        congr 1
        omega
      _ = ((c.cursor + c.distance j) % c.lanes.length + (c.distance i - c.distance j)) %
          c.lanes.length := by rw [cursor_add_distance hj]
      _ = (c.cursor + c.distance i) % c.lanes.length := by
        rw [Nat.mod_add_mod]
        congr 1
        omega
      _ = i := cursor_add_distance hi
  omega

/-- Lane `i` has nothing out and `m` at its head, and the next receive looks at `k` lanes or fewer
before it comes there. -/
structure Waits (c : Channel) (i : Nat) (m : Message) (k : Nat) : Prop where
  exists_queue : ∃ queue, c.lanes[i]? = some ⟨m :: queue, none⟩
  distance_le : c.distance i ≤ k

/-- What is done to a lane keeps `m` waiting if it leaves `m` there. -/
theorem Waits.set (h : c.Waits i m k) (l : Lane)
    (hl : j = i → ∃ queue, l = ⟨m :: queue, none⟩) :
    ({ c with lanes := c.lanes.set j l } : Channel).Waits i m k where
  exists_queue := by
    obtain ⟨queue, hlane⟩ := h.exists_queue
    have hilt := (List.getElem?_eq_some_iff.1 hlane).1
    by_cases hj : j = i
    · obtain ⟨queue', rfl⟩ := hl hj
      subst hj
      exact ⟨queue', List.getElem?_set_self hilt⟩
    · exact ⟨queue, (List.getElem?_set_ne hj).trans hlane⟩
  distance_le := by
    simp only [distance, List.length_set]
    exact h.distance_le

/-- What is handed out from another lane brings `m` nearer. -/
theorem Waits.handOut (h : c.Waits i m k) {m' : Message} (hnext : c.next? = some (j, m'))
    (hij : j ≠ i) (m'' : Message) : ∃ k' < k, (c.handOut j m'').Waits i m k' := by
  obtain ⟨queue, hlane⟩ := h.exists_queue
  obtain ⟨queue', hj⟩ := lane_of_next? hnext
  have hjlt := (List.getElem?_eq_some_iff.1 hj).1
  have hilt := (List.getElem?_eq_some_iff.1 hlane).1
  have hlt : c.distance j < c.distance i :=
    Nat.lt_of_le_of_ne (distance_le_of_next? hnext hlane) (mt (distance_inj hilt hjlt).1 hij)
  exact ⟨_, Nat.lt_of_lt_of_le (distance_handOut_lt hilt hjlt hlt m'') h.distance_le,
    ⟨queue, (List.getElem?_modify_ne _ _ hij).trans hlane⟩, Nat.le_refl _⟩

end Channel

namespace Broker

open Channel (Waits)

variable {b : Broker} {name : String} {i k : Nat} {m : Message}

/-- There is nothing to receive exactly if no lane has both a message and nothing out. -/
theorem take_eq_none_iff_forall_mem :
    (b.take name).1 = none ↔ ∀ l ∈ (b.channel name).lanes, l.inFlight = none → l.queue = [] := by
  rw [take_eq_none_iff]
  constructor
  · rintro h ⟨_ | ⟨m, queue⟩, inFlight⟩ hl hnone
    · rfl
    · obtain ⟨i, hi⟩ := List.mem_iff_getElem?.1 hl
      obtain rfl : inFlight = none := hnone
      exact absurd (laneAt_of_getElem? hi) (h i m queue)
  · intro h i m queue hlane
    have hi := getElem?_lanes_of_ne (by rw [hlane]; nofun)
    rw [hlane] at hi
    exact nomatch h _ (List.mem_of_getElem? hi) rfl

theorem waits_enqueue (hs : b.Shaped) (h : (b.channel name).Waits i m k) (name' : String)
    (m' : Message) : ((b.enqueue name' m').channel name).Waits i m k := by
  rw [enqueue, channel_setChannel]
  split
  · next heq =>
    subst heq
    have hlane := getElem?_lanes (hs.laneOf_lt m'.key name')
    rw [Channel.push, modify_of_getElem? hlane]
    refine h.set _ fun hi => ?_
    obtain ⟨queue, hqueue⟩ := h.exists_queue
    rw [← hi, hlane] at hqueue
    rw [Option.some.inj hqueue]
    exact ⟨queue ++ [m'], rfl⟩
  · exact h

/-- Nobody can settle on a lane where a message waits. -/
theorem waits_settle (hs : b.Shaped) (h : (b.channel name).Waits i m k) (d : Delivery)
    (how : Settlement) : ((b.settle d how).2.channel name).Waits i m k := by
  rcases b.settle_cases d how with ⟨-, hsettle⟩ | ⟨c, m', -, -, hsome, -⟩
  · rw [hsettle]
    exact h
  obtain ⟨hc, ⟨l, hl, hm'⟩, hid⟩ := inFlight?_eq_some_iff.1 hsome
  have hsettles := hs.settles hc hl hm' hid how
  obtain ⟨queue, hlane⟩ := h.exists_queue
  by_cases hname : name = d.channel
  · subst hname
    rw [channel_of_get? hc] at h hlane
    rw [channel_of_get? hsettles.lane]
    refine h.set _ fun hi => ?_
    rw [hi, hlane] at hl
    rw [← Option.some.inj hl] at hm'
    contradiction
  by_cases hsetAside : ∃ reason, how = .setAside reason ∧ name = setAsideChannel d.channel
  · obtain ⟨reason, hhow, rfl⟩ := hsetAside
    obtain ⟨l', hl', hget⟩ := hsettles.setAside reason hhow
    rw [channel_of_get? hget]
    refine h.set _ fun hi => ?_
    rw [hi, hlane] at hl'
    rw [← Option.some.inj hl']
    exact ⟨queue ++ [{ m' with count := 0 }], rfl⟩
  · have hget := hsettles.others name hname fun reason hhow hto => hsetAside ⟨reason, hhow, hto⟩
    rw [channel, hget, hsettles.lanes_eq]
    exact h

/-- While a message waits, something can be received: the message itself, or one from a nearer
lane. -/
theorem exists_take_of_waits (hs : b.Shaped) (h : (b.channel name).Waits i m k) :
    ∃ d b', b.take name = (some d, b') ∧ ((d.lane.toNat = i ∧ d.letter = m.letter) ∨
      ∃ k' < k, (b'.channel name).Waits i m k') := by
  obtain ⟨queue, hlane⟩ := h.exists_queue
  obtain ⟨c, hc⟩ : ∃ c, b.channels.get? name = some c := by
    cases hc : b.channels.get? name with
    | some c => exact ⟨c, rfl⟩
    | none =>
      have hempty := laneAt_of_get?_eq_none hc i
      rw [laneAt_of_getElem? hlane] at hempty
      cases hempty
  have hchannel := channel_of_get? hc
  rw [hchannel] at h hlane
  cases hnext : c.next? with
  | none => exact absurd hlane (Channel.next?_eq_none_iff.1 hnext i m queue)
  | some next =>
    obtain ⟨j, m'⟩ := next
    refine ⟨_, _, by rw [take_eq, hc]; simp only [hnext]; rfl, ?_⟩
    by_cases hij : j = i
    · subst hij
      obtain ⟨queue', hj⟩ := Channel.lane_of_next? hnext
      have hjlt := (List.getElem?_eq_some_iff.1 hj).1
      rw [hlane] at hj
      obtain ⟨rfl, -⟩ := List.cons.inj (congrArg Lane.queue (Option.some.inj hj))
      exact .inl ⟨hs.toNat_ofNat_lane (hchannel ▸ hjlt), rfl⟩
    · rw [channel_setChannel, if_pos rfl]
      exact .inr (h.handOut hnext hij _)

end Broker

/-- Whether an operation receives from a channel. -/
def Operation.receivesFrom (name : String) : Operation → Bool
  | .receive name' | .take name' => name' = name
  | _ => false

/-- With `out` handed out on the channel, `m` of lane `i` is among the first `k + 1` of it, or
still waits, with no more lanes before it than are left of the `k`. -/
def Channel.InTurn (c : Channel) (out : List Delivery) (i : Nat) (m : Message) (k : Nat) : Prop :=
  (∃ d ∈ out.take (k + 1), d.lane.toNat = i ∧ d.letter = m.letter) ∨
    ∃ left, out.length + left ≤ k ∧ c.Waits i m left

namespace History

variable {h : History} {name : String} {i k : Nat} {m : Message} {op : Operation}

theorem waits_perform_post (hs : h.broker.Shaped) (hw : (h.broker.channel name).Waits i m k)
    (j : Nat) (now : Timestamp) (name' key : String) (payload : ByteArray) :
    ((h.perform (.post j now name' key payload)).broker.channel name).Waits i m k := by
  rw [perform]
  split
  · exact hw
  · exact Broker.waits_enqueue hs hw ..

theorem waits_perform_take_of_ne (hw : (h.broker.channel name).Waits i m k) {name' : String}
    (hne : name' ≠ name) : ((h.perform (.take name')).broker.channel name).Waits i m k := by
  rw [perform]
  rcases h.broker.take_cases name' with heq | ⟨_, _, _, _, -, -, heq⟩ <;> rw [heq]
  · exact hw
  · rwa [Broker.channel_changeLane_of_ne hne.symm]

/-- Whoever does not receive from the channel leaves a message that waits there where it is. -/
theorem waits_perform (hs : h.broker.Shaped) (hw : (h.broker.channel name).Waits i m k)
    (hop : op.receivesFrom name = false) :
    ((h.perform op).broker.channel name).Waits i m k := by
  have hreserve : ((h.perform .reserve).broker.channel name).Waits i m k := by
    rw [perform]
    split <;> exact hw
  cases op with
  | publish now name' key payload =>
    rw [perform_publish]
    exact waits_perform_post ((move_reserve (o := .wraps) h).shaped hs) hreserve ..
  | reserve => exact hreserve
  | post j now name' key payload => exact waits_perform_post hs hw ..
  | receive name' =>
    rcases h.perform_receive name' with heq | heq <;> rw [heq]
    · exact hw
    · exact waits_perform_take_of_ne hw (of_decide_eq_false hop)
  | take name' => exact waits_perform_take_of_ne hw (of_decide_eq_false hop)
  | settle d how =>
    rw [broker_perform_settle]
    exact Broker.waits_settle hs hw d how
  | setUnreachable | close => exact hw

theorem deliveriesOn_perform (h : History) (hop : op.receivesFrom name = false) :
    (h.perform op).deliveriesOn name = h.deliveriesOn name := by
  cases hserves : op.serves name with
  | false =>
    obtain ⟨news, hpast, hnews⟩ := h.exists_past_perform hserves
    have hnone : news.flatMap (·.deliveriesOn name) = [] :=
      List.flatMap_eq_nil_iff.2 fun o ho => by
        cases o with
        | publish | settle => rfl
        | handOut d => exact if_neg (of_decide_eq_false (hnews _ ho))
    rw [deliveriesOn, hpast, List.flatMap_append, hnone, List.append_nil, deliveriesOn]
  | true =>
    -- of what serves the channel only settling does not receive from it
    cases op with
    | settle d how =>
      rw [perform]
      split
      · simp [deliveriesOn, Occurrence.deliveriesOn]
      · rfl
    | receive | take => exact absurd (hop.symm.trans hserves) Bool.false_ne_true
    | publish | reserve | post | setUnreachable | close => cases hserves

/-- What is received while a message waits is the message, or brings it nearer. -/
theorem exists_deliveriesOn_perform_take (hs : h.broker.Shaped)
    (hw : (h.broker.channel name).Waits i m k) :
    ∃ d, (h.perform (.take name)).deliveriesOn name = h.deliveriesOn name ++ [d] ∧
      ((d.lane.toNat = i ∧ d.letter = m.letter) ∨
        ∃ k' < k, ((h.perform (.take name)).broker.channel name).Waits i m k') := by
  obtain ⟨d, b', htake, hturn⟩ := Broker.exists_take_of_waits hs hw
  obtain ⟨hchannel, hpast, -⟩ := of_take_eq_some htake
  have hbroker : (h.perform (.take name)).broker = b' := by rw [perform, htake]
  refine ⟨d, ?_, by rwa [hbroker]⟩
  rw [deliveriesOn, hpast, List.flatMap_append, List.flatMap_singleton, Occurrence.deliveriesOn,
    if_pos hchannel, deliveriesOn]

theorem exists_deliveriesOn_perform (h : History) (name : String) (op : Operation) :
    ∃ out, (h.perform op).deliveriesOn name = h.deliveriesOn name ++ out := by
  refine perform_keeps (P := fun h' => ∃ out, h'.deliveriesOn name = h.deliveriesOn name ++ out) ?_
    op ⟨[], (List.append_nil _).symm⟩
  rintro h₁ h₂ hmove ⟨out, hout⟩
  cases hmove with
  | switch | reserve | lose => exact ⟨out, hout⟩
  | post | take | settle =>
    rw [deliveriesOn] at hout
    exact ⟨out ++ Occurrence.deliveriesOn name _, by
      rw [deliveriesOn, List.flatMap_append, List.flatMap_singleton, hout, List.append_assoc]⟩

/-- One operation keeps the turn of a message. -/
theorem inTurn_perform (hs : h.broker.Shaped) {out : List Delivery}
    (hturn : (h.broker.channel name).InTurn out i m k) (op : Operation) :
    ∃ news, (h.perform op).deliveriesOn name = h.deliveriesOn name ++ news ∧
      ((h.perform op).broker.channel name).InTurn (out ++ news) i m k := by
  rcases hturn with ⟨d, hd, hlane⟩ | ⟨left, hleft, hw⟩
  -- once it is among the first, it stays there whatever follows
  · obtain ⟨news, hnews⟩ := h.exists_deliveriesOn_perform name op
    refine ⟨news, hnews, .inl ⟨d, ?_, hlane⟩⟩
    rw [List.take_append]
    exact List.mem_append_left _ hd
  have hstays {h' : History} (hdeliveries : h'.deliveriesOn name = h.deliveriesOn name)
      (hw' : (h'.broker.channel name).Waits i m left) :
      ∃ news, h'.deliveriesOn name = h.deliveriesOn name ++ news ∧
        (h'.broker.channel name).InTurn (out ++ news) i m k :=
    ⟨[], by rw [hdeliveries, List.append_nil], .inr ⟨left, by rwa [List.append_nil], hw'⟩⟩
  have htake : ∃ news, (h.perform (.take name)).deliveriesOn name = h.deliveriesOn name ++ news ∧
      ((h.perform (.take name)).broker.channel name).InTurn (out ++ news) i m k := by
    obtain ⟨d, hdeliveries, hlane | ⟨left', hlt, hw'⟩⟩ := exists_deliveriesOn_perform_take hs hw
    · refine ⟨[d], hdeliveries, .inl ⟨d, ?_, hlane⟩⟩
      rw [List.take_of_length_le (by rw [List.length_append, List.length_singleton]; omega)]
      exact List.mem_append_right _ List.mem_cons_self
    · refine ⟨[d], hdeliveries, .inr ⟨left', ?_, hw'⟩⟩
      rw [List.length_append, List.length_singleton]
      omega
  cases hop : op.receivesFrom name with
  | false => exact hstays (h.deliveriesOn_perform hop) (waits_perform hs hw hop)
  | true =>
    cases op with
    | receive name' =>
      obtain rfl : name' = name := of_decide_eq_true hop
      rcases h.perform_receive name' with heq | heq <;> rw [heq]
      · exact hstays rfl hw
      · exact htake
    | take name' =>
      obtain rfl : name' = name := of_decide_eq_true hop
      exact htake
    | publish | reserve | post | settle | setUnreachable | close => cases hop

theorem inTurn_run (hs : h.broker.Shaped) {out : List Delivery}
    (hturn : (h.broker.channel name).InTurn out i m k) (ops : List Operation) :
    ∃ news, (h.run ops).deliveriesOn name = h.deliveriesOn name ++ news ∧
      ((h.run ops).broker.channel name).InTurn (out ++ news) i m k := by
  induction ops generalizing h out with
  | nil => exact ⟨[], (List.append_nil _).symm, by rwa [List.append_nil]⟩
  | cons op rest ih =>
    obtain ⟨first, hfirst, hturn'⟩ := inTurn_perform hs hturn op
    obtain ⟨news, hnews, hturn''⟩ := ih (perform_keeps Move.shaped op hs) hturn'
    refine ⟨first ++ news, ?_, by rwa [← List.append_assoc]⟩
    rw [← List.append_assoc, ← hfirst]
    exact hnews

/-- A message at the head of a lane with nothing out is handed out as soon as the channel has handed
out as many messages as the next receive looks at lanes to come to that one, which are no more than
there are. This holds whatever else is done in between. And a receive finds nothing exactly if no
lane has both a message and nothing out. -/
theorem run_no_starvation (lanes : UInt32) (ops : List Operation) (name : String) :
    let h := (new lanes).run ops
    let c := h.broker.channel name
    ((h.broker.take name).1 = none ↔ ∀ l ∈ c.lanes, l.inFlight = none → l.queue = []) ∧
    ∀ (i : Nat) (m : Message) queue, c.lanes[i]? = some ⟨m :: queue, none⟩ →
      let wait := (((i : Int) - c.cursor) % c.lanes.length).toNat + 1
      wait ≤ c.lanes.length ∧ ∀ ops', ∃ out,
        (h.run ops').deliveriesOn name = h.deliveriesOn name ++ out ∧
          (wait ≤ out.length →
            ∃ d ∈ out.take wait, d.lane.toNat = i ∧ d.letter = m.letter) := by
  intro h c
  have hs : h.broker.Shaped := shaped_run lanes ops
  refine ⟨Broker.take_eq_none_iff_forall_mem, fun i m queue hlane => ?_⟩
  intro wait
  refine ⟨Channel.distance_lt (List.getElem?_eq_some_iff.1 hlane).1, fun ops' => ?_⟩
  have hturn : c.InTurn [] i m (c.distance i) :=
    .inr ⟨c.distance i, Nat.le_of_eq (Nat.zero_add _), ⟨queue, hlane⟩, Nat.le_refl _⟩
  obtain ⟨out, hout, hserved | ⟨left, hleft, -⟩⟩ := inTurn_run hs hturn ops'
  · exact ⟨out, hout, fun _ => hserved⟩
  · have hwait : wait = c.distance i + 1 := rfl
    rw [List.nil_append] at hleft
    exact ⟨out, hout, fun hle => absurd hle (by omega)⟩

/-- A lane that was served is served again after the other one. -/
theorem run_no_starvation_of_two :
    let d : Delivery := ⟨1, "transactions", "7", 0, ⟨#[1]⟩, 1, default⟩
    let m : Message := ⟨2, "7", ⟨#[2]⟩, 0, default⟩
    let h := (new 2).run [.publish default "transactions" "7" ⟨#[1]⟩, .receive "transactions",
      .settle d .acknowledge, .publish default "transactions" "7" ⟨#[2]⟩,
      .publish default "transactions" "8" ⟨#[3]⟩]
    let c := h.broker.channel "transactions"
    let h' := h.run [.receive "transactions", .receive "transactions"]
    (c.lanes[0]? = some ⟨[m], none⟩ ∧ c.lanes.length = 2 ∧ c.cursor = 1) ∧
      (h.deliveriesOn "transactions" = [d] ∧ (h'.deliveriesOn "transactions").length = 3) ∧
      ∃ d' ∈ (h'.deliveriesOn "transactions").drop 1, d'.lane.toNat = 0 ∧ d'.letter = m.letter := by
  intro d m h c h'
  obtain ⟨⟨hlane, hlength, hcursor⟩, hbefore, hafter⟩ :
      (c.lanes[0]? = some ⟨[m], none⟩ ∧ c.lanes.length = 2 ∧ c.cursor = 1) ∧
        h.deliveriesOn "transactions" = [d] ∧ (h'.deliveriesOn "transactions").length = 3 := by
    decide +kernel
  refine ⟨⟨hlane, hlength, hcursor⟩, ⟨hbefore, hafter⟩, ?_⟩
  have hwait : ((((0 : Nat) : Int) - c.cursor) % c.lanes.length).toNat + 1 = 2 := by
    rw [hlength, hcursor]
    rfl
  obtain ⟨out, hout, hserved⟩ := ((run_no_starvation 2 _ "transactions").2 0 m [] hlane).2
    [.receive "transactions", .receive "transactions"]
  replace hout : h'.deliveriesOn "transactions" = [d] ++ out := hbefore ▸ hout
  rw [hout, List.length_append, List.length_singleton] at hafter
  obtain ⟨d', hd', hserved⟩ := hserved (by rw [hwait]; omega)
  refine ⟨d', ?_, hserved⟩
  rw [hout]
  exact List.mem_of_mem_take hd'

end History

end SpendingLedger
