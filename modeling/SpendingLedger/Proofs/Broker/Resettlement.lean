import SpendingLedger.Proofs.Broker.Soundness

/-!
Settling with one delivery more than once. Of a delivery, settling looks at the channel, the lane
and the number of the message, and not at the count. So a delivery that has been settled with is
refused from then on if the message was acknowledged or given up. If the message was put back, the
old delivery is good again as soon as the message is out another time, whoever holds it then.
-/

namespace SpendingLedger

namespace History

variable {h : History}

/-- Since the message was settled, it has gone out and not come back. -/
def OutAgain (after : List Occurrence) (d : Delivery) (x : Letter) : Prop :=
  ∃ d', (after.flatMap (·.turnsAt d.channel d.lane.toNat)).getLast? = some (.out d') ∧ d'.letter = x

variable {before after : List Occurrence} {d : Delivery} {x : Letter} {s : Settlement}

/-- The last that happened at the lane was this settlement, or came after it. -/
theorem getLast?_turnsAt (hpast : h.past = before ++ .settle d x s :: after) (d' : Delivery) :
    (h.turnsAt d.channel d.lane.toNat).getLast? = some (.out d') ↔
      (after.flatMap (·.turnsAt d.channel d.lane.toNat)).getLast? = some (.out d') := by
  rw [turnsAt, hpast, List.flatMap_append, List.flatMap_cons, Occurrence.turnsAt,
    if_pos ⟨rfl, rfl⟩, List.singleton_append, List.getLast?_append, List.getLast?_cons]
  cases (after.flatMap (·.turnsAt d.channel d.lane.toNat)).getLast? <;> simp

theorem LanesInOrder.outAgain_iff {o : Overflow} (ho : h.LanesInOrder o)
    (hpast : h.past = before ++ .settle d x s :: after) :
    OutAgain after d x ↔
      ∃ m, (h.broker.laneAt d.channel d.lane.toNat).inFlight = some m ∧ m.letter = x := by
  rw [(ho d.channel d.lane.toNat).inFlight_iff x]
  simp only [OutAgain, getLast?_turnsAt hpast]

theorem Sound.settle_again_iff (hh : h.Sound) (hlt : h.numbers < 2 ^ 63)
    (hpast : h.past = before ++ .settle d x s :: after) (s' : Settlement) :
    (h.broker.settle d s').1 = .ok () ↔ s = .requeue ∧ OutAgain after d x := by
  have hmem : .settle d x s ∈ h.past := by
    rw [hpast]
    exact List.mem_append_right _ List.mem_cons_self
  obtain ⟨hid, hx⟩ := hh.identified d x s hmem
  have hids := hh.numbered.nodup hlt
  rw [hh.inOrder.outAgain_iff hpast]
  constructor
  · intro hsettle
    rcases h.broker.settle_cases d s' with ⟨-, heq⟩ | ⟨_, m, queue, _, -, hlt, hlane, hm, -⟩
    · rw [heq] at hsettle
      contradiction
    obtain ⟨hon, hletters⟩ := Broker.mem_letters hlt hlane
    have hpublished : m.letter ∈ h.published :=
      hh.tallied.letters.subset (List.mem_append_right _ hletters)
    obtain rfl : m.letter = x := List.inj_on_of_nodup_map hids hpublished hx (hm.trans hid.symm)
    refine ⟨?_, m, by rw [hlane], rfl⟩
    by_contra hs
    exact hh.tallied.not_mem_lettersOn hids hmem hs hon
  · rintro ⟨-, m, hm, rfl⟩
    obtain ⟨_, _, -, hsettle⟩ := Broker.settle_of_inFlight hm hid s'
    rw [hsettle]

theorem perform_publish_one (now : Timestamp) (name key : String) (payload : ByteArray) :
    (new 1).perform (.publish now name key payload) =
      { broker := { (Broker.new 1).setChannel name ⟨[⟨[⟨1, key, payload, 0, now⟩], none⟩], 0⟩ with
          lastId := 1 }
        past := [.publish name ⟨1, key, payload, now⟩] } := by
  have hpush : (new 1).perform (.publish now name key payload) =
      { broker := { (Broker.new 1).setChannel name
            ((Channel.fresh 1).push (laneOf key 1).toNat ⟨1, key, payload, 0, now⟩) with lastId := 1 }
        past := [.publish name ⟨1, key, payload, now⟩] } := rfl
  rwa [Broker.laneOf_one] at hpush

/-- A delivery that was settled with is good again exactly if its message was put back and is out
another time, whoever holds it then, and is refused otherwise. -/
theorem run_settle_again (lanes : UInt32) (ops : List Operation)
    (hlt : ops.countP Operation.takesNumber < 2 ^ 63)
    (hpast : ((new lanes).run ops).past = before ++ .settle d x s :: after) (s' : Settlement) :
    let b := ((new lanes).run ops).broker
    ((b.settle d s').1 = .ok () ↔ s = .requeue ∧ OutAgain after d x) ∧
      (¬ (s = .requeue ∧ OutAgain after d x) →
        b.settle d s' = (.error (.unknownDelivery d.channel d.id), b)) := by
  have hsound := (sound_new lanes).run ops
  have hnumbers : ((new lanes).run ops).numbers < 2 ^ 63 := by
    have hle := (new lanes).numbers_run_le ops
    have hnone : (new lanes).numbers = 0 := rfl
    omega
  generalize (new lanes).run ops = h at *
  have hok := hsound.settle_again_iff hnumbers hpast s'
  refine ⟨hok, fun hnot => ?_⟩
  rcases h.broker.settle_cases d s' with ⟨-, heq⟩ | ⟨_, _, _, _, -, -, -, -, heq⟩
  · exact heq
  · exact absurd (hok.1 (by rw [heq])) hnot

/-- A message is put back, and the delivery that was settled with is refused while it waits. -/
theorem run_settle_again_waiting :
    let d : Delivery := ⟨1, "transactions", "7", 0, ⟨#[1]⟩, 1, default⟩
    let ops : List Operation := [.publish default "transactions" "7" ⟨#[1]⟩,
      .receive "transactions", .settle d .requeue]
    let h := (new 1).run ops
    ops.countP Operation.takesNumber < 2 ^ 63 ∧
      h.past = [.publish "transactions" d.letter, .handOut d] ++ [.settle d d.letter .requeue] ∧
      h.broker.settle d .acknowledge = (.error (.unknownDelivery "transactions" 1), h.broker) := by
  intro d ops h
  have hlt : ops.countP Operation.takesNumber < 2 ^ 63 := by decide
  have hpast : h.past =
      [.publish "transactions" d.letter, .handOut d] ++ [.settle d d.letter .requeue] := by
    simp only [h, ops, run, List.foldl_cons, List.foldl_nil, perform_publish_one]
    rfl
  refine ⟨hlt, hpast, (run_settle_again 1 ops hlt hpast .acknowledge).2 ?_⟩
  rintro ⟨-, d', hlast, -⟩
  cases hlast

/-- A message is put back and goes out to somebody else. The delivery that was settled with then
takes it away from there, for good. -/
theorem settle_again_of_redelivered :
    let d : Delivery := ⟨1, "transactions", "7", 0, ⟨#[1]⟩, 1, default⟩
    let h := (new 1).run [.publish default "transactions" "7" ⟨#[1]⟩, .receive "transactions",
      .settle d .requeue, .receive "transactions"]
    let b := (h.broker.settle d .acknowledge).2
    h.past = [.publish "transactions" d.letter, .handOut d, .settle d d.letter .requeue,
        .handOut { d with count := 2 }] ∧
      (h.broker.settle d .acknowledge).1 = .ok () ∧ b.letters = [] ∧
      (b.settle { d with count := 2 } .acknowledge).1 =
        .error (.unknownDelivery "transactions" 1) := by
  intro d h b
  simp only [b, h, run, List.foldl_cons, List.foldl_nil, perform_publish_one]
  exact ⟨rfl, rfl, rfl, rfl⟩

end History

end SpendingLedger
