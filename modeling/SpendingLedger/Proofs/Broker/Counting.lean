import Mathlib.Data.List.Chain
import SpendingLedger.Proofs.Broker.Resettlement
import SpendingLedger.Proofs.Broker.Rotation
import SpendingLedger.Proofs.Broker.Settling
import SpendingLedger.Proofs.Broker.WakeUp

/-!
Counting deliveries. Each time a message is put back and handed out anew it is counted once more, in
32 bits: the count goes up by one, up to 2³² - 1. After that it starts over with zero in a program
that wraps, where nothing else depends on it: what is handed out, and where it stays, goes by the
lanes. In a program that is built to stop, the next receiver stops there, with the message in its
hands. As long as no message goes out that often, both do the same.
-/

namespace SpendingLedger

/-! ### The counts of a stay -/

namespace Stay

variable {s : Stay} {x : Letter}

/-- Each delivery is counted one higher than the one before it. -/
def CountsUp (s : Stay) : Prop :=
  s.deliveries.IsChain fun d d' => d'.count.toNat = d.count.toNat + 1

/-- Every delivery is counted once more, as far as 32 bits go. -/
theorem Of.isChain_count (h : s.Of x) :
    s.deliveries.IsChain fun d d' => d'.count = d.count + 1 := by
  have hcounts : (s.deliveries.map (·.count)).IsChain fun n n' => n' = n + 1 := by
    rw [h.count_eq, List.isChain_map]
    refine (List.isChain_range' 1 s.deliveries.length 1).imp fun n n' hn => ?_
    rw [hn, UInt32.ofNat_add]
    rfl
  exact (List.isChain_map _).1 hcounts

theorem Of.count_getElem (h : s.Of x) {k : Nat} (hk : k < s.deliveries.length) :
    s.deliveries[k].count = UInt32.ofNat (k + 1) := by
  have hcounts := congrArg (·[k]?) h.count_eq
  simp only [List.getElem?_map, List.getElem?_eq_getElem hk, Option.map_some] at hcounts
  rw [List.getElem?_range' (by omega)] at hcounts
  rw [Option.some.inj hcounts, Nat.one_mul, Nat.add_comm]

/-- The counts of a stay go up exactly if it has no more deliveries than there are counts. -/
theorem Of.countsUp_iff (h : s.Of x) : s.CountsUp ↔ s.deliveries.length < 2 ^ 32 := by
  constructor
  · intro hup
    by_contra hlong
    rw [CountsUp, List.isChain_iff_getElem] at hup
    -- the last number there is, and the delivery after it
    have hnext := hup (2 ^ 32 - 2) (by omega)
    rw [h.count_getElem, h.count_getElem] at hnext
    exact absurd hnext (by decide)
  · intro hlt
    have hcounts : (s.deliveries.map (·.count.toNat)).IsChain fun n n' => n' = n + 1 := by
      rw [(h.exactly hlt).count_eq]
      exact List.isChain_range' 1 _ 1
    exact (List.isChain_map _).1 hcounts

end Stay

/-! ### Receiving -/

namespace Broker

variable {o : Overflow} {b : Broker} {name : String}

/-- What receiving does. -/
structure Receives (o : Overflow) (b : Broker) (name : String) : Prop where
  closed : b.closed = true → b.receiveIn o name = (.error .closed, b)
  /-- From an open broker nothing comes only if no lane is ready. -/
  answers : b.closed = false →
    ∃ r, (b.receiveIn o name).1 = .ok r ∧ (r ≠ .nothing ↔ b.HasReady name)
  /-- What is handed out was the head of its lane, and is out there from then on. -/
  handsOut : ∀ d, (b.receiveIn o name).1 = .ok (.message d) → ∃ m queue,
    b.laneAt name d.lane.toNat = ⟨m :: queue, none⟩ ∧ m.letter = d.letter ∧
      d.count = m.count + 1 ∧ (o = .stops → d.count.toNat = m.count.toNat + 1) ∧
      (b.receiveIn o name).2.laneAt name d.lane.toNat = ⟨queue, some { m with count := d.count }⟩
  /-- A receiver stops over a message that has been out as often as can be counted, and only that
  one is gone. -/
  stops : (b.receiveIn o name).1 = .ok .stopped → o = .stops ∧ ∃ i m queue,
    b.laneAt name i = ⟨m :: queue, none⟩ ∧ m.count.toNat = 2 ^ 32 - 1 ∧
      (b.receiveIn o name).2.laneAt name i = ⟨queue, none⟩ ∧
      (m.letter :: (b.receiveIn o name).2.letters).Perm b.letters
  /-- Otherwise no message comes or goes. -/
  letters : (b.receiveIn o name).1 ≠ .ok .stopped → (b.receiveIn o name).2.letters.Perm b.letters ∧
    ∀ name', ((b.receiveIn o name).2.lettersOn name').Perm (b.lettersOn name')

theorem takeIn_eq_nothing_iff : (b.takeIn o name).1 = .nothing ↔ (b.take name).1 = none := by
  rw [take_eq, takeIn]
  cases b.channels.get? name with
  | none => simp
  | some c =>
    cases hnext : c.next? with
    | none => simp [hnext]
    | some next => cases hcount : o.next32? next.2.count <;> simp [hnext, hcount]

theorem receives_of_closed (h : b.closed = true) : b.Receives o name := by
  have hreceive : b.receiveIn o name = (.error .closed, b) := by rw [receiveIn, if_pos h]
  refine ⟨fun _ => hreceive, fun h' => absurd (h.symm.trans h') (by decide), ?_, ?_, ?_⟩ <;>
    rw [hreceive]
  · intro d hd
    cases hd
  · intro hd
    cases hd
  · exact fun _ => ⟨.refl _, fun _ => .refl _⟩

theorem Shaped.receives (hs : b.Shaped) (o : Overflow) (name : String) : b.Receives o name := by
  cases hclosed : b.closed with
  | true => exact receives_of_closed hclosed
  | false =>
    have hreceive : b.receiveIn o name = (.ok (b.takeIn o name).1, (b.takeIn o name).2) := by
      rw [receiveIn, hclosed, if_neg Bool.false_ne_true]
    have hready : (b.takeIn o name).1 ≠ .nothing ↔ b.HasReady name :=
      (not_congr takeIn_eq_nothing_iff).trans hasReady_iff.symm
    have hopen : ¬ b.closed = true := by rw [hclosed]; exact Bool.false_ne_true
    rcases b.takeIn_cases o name with
      htake | ⟨i, m, queue, cursor, hi, hlane, ⟨htake, hfits⟩ | ⟨htake, ho, hcount⟩⟩ <;>
      rw [htake] at hreceive hready <;>
      refine ⟨fun h => absurd h hopen, fun _ => ⟨_, congrArg Prod.fst hreceive, hready⟩,
        ?_, ?_, ?_⟩ <;>
      rw [hreceive]
    · exact fun d hd => Taken.noConfusion (Except.ok.inj hd)
    · exact fun hd => Taken.noConfusion (Except.ok.inj hd)
    · exact fun _ => ⟨.refl _, fun _ => .refl _⟩
    · intro d hd
      obtain rfl := Taken.message.inj (Except.ok.inj hd)
      have hnumber : ({ m with count := m.count + 1 }.delivery name i).lane.toNat = i :=
        hs.toNat_ofNat_lane hi
      rw [hnumber]
      refine ⟨m, queue, hlane, rfl, rfl, fun ho => ?_, laneAt_handOut_self hi hlane _ _⟩
      show (m.count + 1).toNat = m.count.toNat + 1
      rw [UInt32.toNat_add]
      exact Nat.mod_eq_of_lt (hfits ho)
    · exact fun hd => Taken.noConfusion (Except.ok.inj hd)
    · exact fun _ => perm_changeLane_of_letters_eq hi cursor (by rw [hlane, Lane.letters_handOut])
    · exact fun d hd => Taken.noConfusion (Except.ok.inj hd)
    · have hlt := m.count.toNat_lt
      refine fun _ => ⟨ho, i, m, queue, hlane, by omega, ?_, ?_⟩
      · rw [laneAt_changeLane hi, if_pos ⟨rfl, rfl⟩, hlane]
        rfl
      · exact perm_letters_changeLane hi cursor [m.letter] [] (by rw [hlane]; exact .refl _)
    · exact fun h => absurd rfl h

end Broker

/-! ### Runs -/

namespace History

/-- In every run the deliveries of a message at its lane are counted from one, each once more than
the one before. As numbers the counts go up exactly if there are fewer than 2³² of them, as they are
in a program that is built to stop. Nothing is withheld over its count, and no message is lost over
it, but that in such a program one that has been out 2³² - 1 times stops its next receiver and is
gone. -/
theorem run_counted (o : Overflow) (lanes : UInt32) (ops : List Operation) :
    let h := (new lanes).runIn o ops
    (∀ name i, ∃ stays gone, h.turnsAt name i = stays.flatMap Stay.turns ∧
      gone <+: h.arrivalsAt name i ∧ List.Forall₂ Stay.Of stays gone ∧
      (∀ s ∈ stays.dropLast, s.EndsIn o) ∧
      ∀ s ∈ stays, s.first.count = 1 ∧
        s.deliveries.IsChain (fun d d' => d'.count = d.count + 1) ∧
        (s.CountsUp ↔ s.deliveries.length < 2 ^ 32) ∧ (o = .stops → s.CountsUp)) ∧
    ∀ name, h.broker.Receives o name := by
  intro h
  obtain ⟨hshaped, hlanes⟩ : h.broker.Shaped ∧ h.LanesInOrder o :=
    runIn_keeps (P := fun h => h.broker.Shaped ∧ h.LanesInOrder o)
      (fun hmove ⟨hs, ho⟩ => ⟨hmove.shaped hs, ho.move hs hmove⟩)
      ⟨Broker.shaped_new lanes, lanesInOrder_new o lanes⟩ ops
  refine ⟨fun name i => ?_, hshaped.receives o⟩
  obtain ⟨stays, gone, hturns, hgone, hof, hends⟩ := (hlanes name i).follows.exists_staysIn
  refine ⟨stays, gone, hturns, hgone, hof.imp fun _ _ => Stay.OfIn.toOf, hends, fun s hs => ?_⟩
  obtain ⟨x, hx⟩ : ∃ x, s.OfIn o x := by
    obtain ⟨k, hk, rfl⟩ := List.mem_iff_getElem.1 hs
    exact ⟨_, hof.get hk (hof.length_eq ▸ hk)⟩
  have hup := hx.toOf.countsUp_iff
  exact ⟨hx.toOf.count_getElem (Nat.succ_pos _), hx.toOf.isChain_count, hup,
    fun ho => hup.2 (hx.length_lt ho)⟩

/-! ### Programs that do the same -/

theorem takeIn_eq_or (o : Overflow) (b : Broker) (name : String) :
    b.takeIn o name = b.takeIn .wraps name ∨ ∃ i m queue,
      b.laneAt name i = ⟨m :: queue, none⟩ ∧ 2 ^ 32 ≤ m.count.toNat + 1 ∧
      (b.take name).1 = some ({ m with count := m.count + 1 }.delivery name i) := by
  rw [Broker.take_eq]
  simp only [Broker.takeIn]
  cases hc : b.channels.get? name with
  | none => exact .inl rfl
  | some c =>
    cases hnext : c.next? with
    | none => simp [hnext]
    | some next =>
      obtain ⟨i, m⟩ := next
      obtain ⟨queue, hlane⟩ := Channel.lane_of_next? hnext
      have hwraps : Overflow.wraps.next32? m.count = some (m.count + 1) := rfl
      cases hcount : o.next32? m.count with
      | none =>
        refine .inr ⟨i, m, queue, ?_, (Overflow.next32?_eq_none_iff.1 hcount).2, by simp [hnext]⟩
        rw [Broker.laneAt, Broker.channel_of_get? hc, hlane, Option.getD_some]
      | some count =>
        obtain ⟨rfl, -⟩ := Overflow.next32?_eq_some_iff.1 hcount
        simp [hnext, hcount, hwraps]

/-- No message of a channel goes out so often that its count comes round. -/
def Sparing (h : History) : Prop :=
  ∀ name x, (h.deliveriesOn name).countP (fun d => d.letter = x) < 2 ^ 32

theorem takeIn_eq {h : History} (ho : h.LanesInOrder .wraps) {name : String}
    (hafter : (h.perform (.take name)).Sparing) (o : Overflow) :
    h.broker.takeIn o name = h.broker.takeIn .wraps name := by
  rcases takeIn_eq_or o h.broker name with heq | ⟨i, m, queue, hlane, hcount, htake⟩
  · exact heq
  · have hle := ho.count_le hlane
    have hlt := hafter name m.letter
    have hpast : (h.perform (.take name)).past =
        h.past ++ [.handOut ({ m with count := m.count + 1 }.delivery name i)] := by
      rw [perform, show h.broker.take name = (some _, _) from Prod.ext htake rfl]
    have hout : (h.perform (.take name)).deliveriesOn name = h.deliveriesOn name ++
        [{ m with count := m.count + 1 }.delivery name i] := by
      rw [deliveriesOn, hpast, List.flatMap_append, List.flatMap_singleton, deliveriesOn]
      exact congrArg _ (if_pos rfl)
    rw [hout, List.countP_append, List.countP_singleton] at hlt
    have hletter : ({ m with count := m.count + 1 }.delivery name i).letter = m.letter := rfl
    rw [hletter, decide_eq_true rfl, if_pos rfl] at hlt
    omega

theorem performIn_eq {h : History} (ho : h.LanesInOrder .wraps) {op : Operation}
    (hafter : (h.perform op).Sparing) (o : Overflow) : h.performIn o op = h.perform op := by
  rw [← performIn_wraps]
  cases op with
  | take name => rw [performIn, performIn, takeIn_eq ho hafter o]
  | receive name =>
    cases hclosed : h.broker.closed with
    | true => simp only [performIn, Broker.receiveIn, hclosed, ↓reduceIte]
    | false =>
      have hreceive : h.perform (.receive name) = h.perform (.take name) := by
        simp only [perform, Broker.receive, hclosed, Bool.false_eq_true, ↓reduceIte]
        rcases h.broker.take name with ⟨_ | d, b⟩ <;> rfl
      rw [hreceive] at hafter
      rw [performIn, performIn, Broker.receiveIn, Broker.receiveIn, takeIn_eq ho hafter o]
  | _ => rfl

/-- As long as no message goes out so often that its count comes round, it makes no difference what
the program is built to do then. -/
theorem runIn_eq_run (o : Overflow) (lanes : UInt32) (ops : List Operation)
    (hlt : ((new lanes).run ops).Sparing) : (new lanes).runIn o ops = (new lanes).run ops := by
  induction ops using List.reverseRecOn with
  | nil => rfl
  | append_singleton rest op ih =>
    have hrun : (new lanes).run (rest ++ [op]) = ((new lanes).run rest).perform op :=
      List.foldl_append
    have hrunIn : (new lanes).runIn o (rest ++ [op]) = ((new lanes).runIn o rest).performIn o op :=
      List.foldl_append
    rw [hrun] at hlt ⊢
    have hrest : ((new lanes).run rest).Sparing := by
      intro name x
      obtain ⟨out, hout⟩ := exists_deliveriesOn_perform ((new lanes).run rest) name op
      have := hlt name x
      rw [hout, List.countP_append] at this
      omega
    have hsound : ((new lanes).run rest).Sound := (sound_new lanes).run rest
    rw [hrunIn, ih hrest, performIn_eq hsound.inOrder hlt o]

/-! ### A message that is put back for ever -/

/-- The one message there is, counted `n` times. -/
def lone (n : Nat) : Message := ⟨1, "7", ⟨#[1]⟩, UInt32.ofNat n, default⟩

/-- Its delivery with the number `n`. -/
def loneDelivery (n : Nat) : Delivery := (lone n).delivery "transactions" 0

/-- A broker of one lane. -/
def keeping (l : Lane) : Broker :=
  { (Broker.new 1).setChannel "transactions" ⟨[l], 0⟩ with lastId := 1 }

/-- The message is published and goes out, and `n` times it is put back and goes out again. -/
def backAndForth : Nat → List Operation
  | 0 => [.publish default "transactions" "7" ⟨#[1]⟩, .receive "transactions"]
  | n + 1 => backAndForth n ++ [.settle (loneDelivery (n + 1)) .requeue, .receive "transactions"]

/-- The stay of the message after that. -/
def loneStay (n : Nat) : Stay where
  first := loneDelivery 1
  again := (List.range' 2 n).map loneDelivery

theorem loneStay_succ (n : Nat) :
    ((loneStay n).settle .requeue).goOn (loneDelivery (n + 2)) = loneStay (n + 1) := by
  simp only [loneStay, Stay.settle, Stay.goOn, List.range'_concat, List.map_append,
    List.map_singleton, Nat.one_mul, Nat.add_comm 2 n]

theorem deliveries_loneStay (n : Nat) :
    (loneStay n).deliveries = (List.range' 1 (n + 1)).map loneDelivery := rfl

theorem deliveries_loneStay_succ (n : Nat) : (loneStay (n + 1)).deliveries =
    (List.range' 1 n).map loneDelivery ++ [loneDelivery (n + 1), loneDelivery (n + 2)] := by
  rw [deliveries_loneStay, List.range'_concat, List.range'_concat, List.append_assoc,
    List.map_append, Nat.one_mul, Nat.one_mul, Nat.add_comm 1, Nat.add_comm 1]
  rfl

theorem of_loneStay (n : Nat) : (loneStay n).Of (lone 1).letter where
  letter_eq d hd := by
    rw [deliveries_loneStay, List.mem_map] at hd
    obtain ⟨k, -, rfl⟩ := hd
    rfl
  count_eq := by
    rw [deliveries_loneStay, List.map_map, List.length_map, List.length_range']
    rfl

theorem setChannel_keeping (l l' : Lane) :
    (keeping l).setChannel "transactions" ⟨[l'], 0⟩ = keeping l' := by
  simp only [keeping, Broker.setChannel, Table.insert_insert]

theorem receiveIn_keeping (o : Overflow) (m : Message) :
    (keeping ⟨[m], none⟩).receiveIn o "transactions" =
      match o.next32? m.count with
      | none => (.ok .stopped, keeping ⟨[], none⟩)
      | some count => (.ok (.message ({ m with count }.delivery "transactions" 0)),
          keeping ⟨[], some { m with count }⟩) := by
  have hdrop : Channel.drop ⟨[⟨[m], none⟩], 0⟩ 0 = ⟨[⟨[], none⟩], 0⟩ := by simp [Channel.drop]
  have hout (m' : Message) : Channel.handOut ⟨[⟨[m], none⟩], 0⟩ 0 m' = ⟨[⟨[], some m'⟩], 0⟩ := by
    simp [Channel.handOut]
  have htake : (keeping ⟨[m], none⟩).takeIn o "transactions" =
      match o.next32? m.count with
      | none => (.stopped, (keeping ⟨[m], none⟩).setChannel "transactions"
          (Channel.drop ⟨[⟨[m], none⟩], 0⟩ 0))
      | some count => (.message ({ m with count }.delivery "transactions" 0),
          (keeping ⟨[m], none⟩).setChannel "transactions"
            (Channel.handOut ⟨[⟨[m], none⟩], 0⟩ 0 { m with count })) := rfl
  have hopen : (keeping ⟨[m], none⟩).closed = false := rfl
  rw [Broker.receiveIn, hopen, if_neg Bool.false_ne_true, htake]
  cases o.next32? m.count <;> simp only [hdrop, hout, setChannel_keeping]

theorem settle_keeping (n : Nat) :
    (keeping ⟨[], some (lone n)⟩).settle (loneDelivery n) .requeue =
      (.ok (), keeping ⟨[lone n], none⟩) := by
  have hsettle : (keeping ⟨[], some (lone n)⟩).settle (loneDelivery n) .requeue =
      (.ok (), (keeping ⟨[], some (lone n)⟩).setChannel "transactions"
        ⟨[⟨[lone n], none⟩], 0⟩) := rfl
  rw [hsettle, setChannel_keeping]

theorem lone_succ (n : Nat) : { lone n with count := (lone n).count + 1 } = lone (n + 1) := by
  simp only [lone, UInt32.ofNat_add]
  rfl

variable {o : Overflow}

/-- Whoever holds the message puts it back. -/
theorem performIn_settle_lone {h : History} {n : Nat}
    (hbroker : h.broker = keeping ⟨[], some (lone n)⟩) :
    h.performIn o (.settle (loneDelivery n) .requeue) =
      { h with
        broker := keeping ⟨[lone n], none⟩
        past := h.past ++ [.settle (loneDelivery n) (lone n).letter .requeue] } := by
  rw [performIn, perform, hbroker, settle_keeping]
  · rfl
  · intro _ h
    cases h
  · intro _ h
    cases h

/-- The message goes out as the next delivery, if that can be counted. -/
theorem performIn_receive_lone {h : History} {n : Nat}
    (hbroker : h.broker = keeping ⟨[lone n], none⟩) (hfits : o = .stops → n + 1 < 2 ^ 32) :
    h.performIn o (.receive "transactions") =
      { h with
        broker := keeping ⟨[], some (lone (n + 1))⟩
        past := h.past ++ [.handOut (loneDelivery (n + 1))] } := by
  have hcount : o.next32? (lone n).count = some ((lone n).count + 1) := by
    refine Overflow.next32?_eq_some_iff.2 ⟨rfl, fun ho => ?_⟩
    have hlt := hfits ho
    rwa [show (lone n).count.toNat = n from UInt32.toNat_ofNat_of_lt' (Nat.lt_of_succ_lt hlt)]
  rw [performIn, hbroker, receiveIn_keeping, hcount]
  simp only [lone_succ]
  rfl

/-- What happened at the lane is one stay that grows and grows. -/
theorem run_backAndForth (n : Nat) (hfits : o = .stops → n + 1 < 2 ^ 32) :
    ((new 1).runIn o (backAndForth n)).broker = keeping ⟨[], some (lone (n + 1))⟩ ∧
      ((new 1).runIn o (backAndForth n)).turnsAt "transactions" 0 = (loneStay n).turns := by
  induction n with
  | zero =>
    have hpublish : (new 1).performIn o (.publish default "transactions" "7" ⟨#[1]⟩) = _ :=
      perform_publish_one default "transactions" "7" ⟨#[1]⟩
    have hreceive := performIn_receive_lone (o := o) (n := 0) (congrArg broker hpublish) hfits
    rw [runIn, backAndForth, List.foldl_cons, List.foldl_cons, List.foldl_nil, hreceive, hpublish]
    exact ⟨rfl, rfl⟩
  | succ n ih =>
    obtain ⟨hbroker, hturns⟩ := ih fun ho => Nat.lt_of_succ_lt (hfits ho)
    have hsettle := performIn_settle_lone (o := o) hbroker
    have hreceive := performIn_receive_lone (o := o) (congrArg broker hsettle) hfits
    have hrun : (new 1).runIn o (backAndForth (n + 1)) =
        (((new 1).runIn o (backAndForth n)).performIn o
          (.settle (loneDelivery (n + 1)) .requeue)).performIn o (.receive "transactions") :=
      List.foldl_append
    rw [hrun, hreceive, hsettle]
    refine ⟨rfl, ?_⟩
    -- coming back and going out again are the two turns by which the stay has grown
    rw [← loneStay_succ, Stay.turns_goOn rfl, Stay.turns_settle rfl, ← hturns]
    simp only [turnsAt, List.flatMap_append, List.flatMap_singleton]
    rfl

theorem broker_run_backAndForth_settle (n : Nat) (hfits : o = .stops → n + 1 < 2 ^ 32) :
    ((new 1).runIn o (backAndForth n ++ [.settle (loneDelivery (n + 1)) .requeue])).broker =
      keeping ⟨[lone (n + 1)], none⟩ := by
  have hrun : (new 1).runIn o (backAndForth n ++ [.settle (loneDelivery (n + 1)) .requeue]) =
      ((new 1).runIn o (backAndForth n)).performIn o (.settle (loneDelivery (n + 1)) .requeue) :=
    List.foldl_append
  rw [hrun, performIn_settle_lone (run_backAndForth n hfits).1]

/-- The message has been out as often as can be counted, and is back. -/
theorem broker_run_spent : ((new 1).runIn .stops (backAndForth (2 ^ 32 - 2) ++
    [.settle (loneDelivery (2 ^ 32 - 1)) .requeue])).broker =
      keeping ⟨[lone (2 ^ 32 - 1)], none⟩ :=
  broker_run_backAndForth_settle (2 ^ 32 - 2) fun _ => by omega

theorem receiveIn_spent : (keeping ⟨[lone (2 ^ 32 - 1)], none⟩).receiveIn .stops "transactions" =
    (.ok .stopped, keeping ⟨[], none⟩) := by
  have hcount : Overflow.stops.next32? (lone (2 ^ 32 - 1)).count = none := by
    refine Overflow.next32?_eq_none_iff.2 ⟨rfl, ?_⟩
    rw [show (lone (2 ^ 32 - 1)).count.toNat = 2 ^ 32 - 1 from
      UInt32.toNat_ofNat_of_lt' (by decide)]
  have hreceive := receiveIn_keeping .stops (lone (2 ^ 32 - 1))
  rwa [hcount] at hreceive

theorem letters_keeping (n : Nat) : (keeping ⟨[lone n], none⟩).letters = [(lone 1).letter] := rfl

/-- A message goes out as the last number there is, and is put back. In a program that wraps it goes
out next as number zero. In one that is built to stop, its next receiver stops, and it is nowhere.
-/
theorem run_counted_overflows :
    (let h := (new 1).runIn .wraps (backAndForth (2 ^ 32 - 1))
      let s := loneStay (2 ^ 32 - 1)
      h.turnsAt "transactions" 0 = s.turns ∧ s.Of (lone 1).letter ∧ ¬ s.CountsUp ∧
        ∃ before d d', s.deliveries = before ++ [d, d'] ∧ d.count.toNat = 2 ^ 32 - 1 ∧
          d'.count.toNat = 0) ∧
    let h := (new 1).runIn .stops
      (backAndForth (2 ^ 32 - 2) ++ [.settle (loneDelivery (2 ^ 32 - 1)) .requeue])
    h.broker.letters = [(lone 1).letter] ∧
      (h.broker.receiveIn .stops "transactions").1 = .ok .stopped ∧
      (h.broker.receiveIn .stops "transactions").2.letters = [] := by
  constructor
  · intro h s
    have hof : s.Of (lone 1).letter := of_loneStay (2 ^ 32 - 1)
    have hlast : s.deliveries = _ := deliveries_loneStay_succ (2 ^ 32 - 2)
    refine ⟨(run_backAndForth (o := .wraps) (2 ^ 32 - 1) nofun).2, hof, ?_, _, _, _, hlast, ?_, ?_⟩
    · rw [hof.countsUp_iff, deliveries_loneStay, List.length_map, List.length_range']
      exact Nat.lt_irrefl _
    · exact UInt32.toNat_ofNat'
    · exact UInt32.toNat_ofNat'
  · refine ⟨?_, ?_, ?_⟩
    · rw [broker_run_spent, letters_keeping]
    · rw [broker_run_spent, receiveIn_spent]
    · rw [broker_run_spent, receiveIn_spent]
      rfl

end History

end SpendingLedger
