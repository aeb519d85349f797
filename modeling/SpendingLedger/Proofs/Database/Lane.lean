import SpendingLedger.Proofs.Broker.Contents
import SpendingLedger.Proofs.Database.SettingAside
import SpendingLedger.Proofs.Settings.Variables

/-!
Lanes on their way through the column of a database. The column has a sign and lanes have none:
those of the lower half come back as they were stored, those of the upper half are stored as
negative numbers, and all of these are read as the first lane.
-/

namespace SpendingLedger.Database.Queue

open Dialogue

variable {said first rest : List Exchange} {d : Delivery} {row : Row} {lane : UInt32} {key : String}
  {reason : String} {answer : Except BrokerError Unit}

/-! ### The column -/

theorem toInt_toColumn (lane : UInt32) : (toColumn lane).toInt =
    if lane.toNat < 2 ^ 31 then (lane.toNat : Int) else lane.toNat - 2 ^ 32 := by
  show lane.toBitVec.toInt = _
  rw [BitVec.toInt_eq_toNat_cond, UInt32.toNat_toBitVec]
  split_ifs <;> omega

theorem toInt_toColumn_of_lt (h : lane.toNat < 2 ^ 31) : (toColumn lane).toInt = lane.toNat := by
  rw [toInt_toColumn, if_pos h]

theorem zero_le_toColumn_iff : 0 ≤ (toColumn lane).toInt ↔ lane.toNat < 2 ^ 31 := by
  have := lane.toNat_lt
  rw [toInt_toColumn]
  split_ifs <;> omega

theorem ofColumn_toColumn (lane : UInt32) :
    ofColumn (toColumn lane) = if lane.toNat < 2 ^ 31 then lane else 0 := by
  have hiff : 0 ≤ toColumn lane ↔ lane.toNat < 2 ^ 31 := by
    rw [Int32.le_iff_toInt_le, Int32.toInt_zero]
    exact zero_le_toColumn_iff
  rw [ofColumn]
  simp only [hiff]
  split_ifs
  · exact lane.toUInt32_toInt32
  · rfl

/-- What is read from the column fits it again. -/
theorem ofColumn_lt (i : Int32) : (ofColumn i).toNat < 2 ^ 31 := by
  rw [ofColumn]
  split_ifs with h
  · have hi := i.toInt_lt
    rw [Int32.toNat_toUInt32_of_le h]
    show i.toInt.toNat < 2 ^ 31
    omega
  · decide

theorem int32?_integer (i : Int32) : (Cell.integer i.toInt).int32? = some i := by
  have hle := i.le_toInt
  have hlt := i.toInt_lt
  rw [Cell.int32?, if_pos ⟨hle, hlt⟩, Int32.ofInt_toInt]

/-- A message is on the lane that its row carries. -/
theorem lane_of_deliveryOfRow? {i : Int32} (hlane : row[3]? = some (.integer i.toInt))
    (h : deliveryOfRow? row = some d) : d.lane = ofColumn i := by
  unfold deliveryOfRow? at h
  split at h
  · next id channel key lane payload count at' =>
    obtain rfl := Option.some.inj hlane
    simp only [int32?_integer, Option.bind_eq_bind, Option.bind_eq_some_iff, Option.some.injEq,
      exists_eq_left'] at h
    obtain ⟨_, -, _, -, _, -, _, -, _, -, _, -, h⟩ := h
    rw [← Option.some.inj h]
  · contradiction

/-! ### The lanes that are bound -/

/-- The lane that is bound by what is sent: the third parameter of a statement. -/
def lane? : Request → Option Int
  | .statement ⟨_, _ :: _ :: .integer i :: _⟩ => some i
  | _ => none

/-- The lanes bound in a conversation. -/
def lanesOf (said : List Exchange) : List Int := said.filterMap fun x => lane? x.request

theorem lanesOf_append : lanesOf (first ++ rest) = lanesOf first ++ lanesOf rest :=
  List.filterMap_append

theorem lanesOf_of_onlyCommands (h : OnlyCommands said) : lanesOf said = [] := by
  refine List.filterMap_eq_nil_iff.2 fun x hx => ?_
  obtain ⟨c, hc⟩ := h x hx
  rw [hc]
  rfl

theorem lanesOf_command_cons (c : Command) (reply : Reply) (rest : List Exchange) :
    lanesOf (⟨.command c, reply⟩ :: rest) = lanesOf rest := rfl

/-- The lanes bound in a transaction are bound by its body, whose ending has the value that comes of
it. -/
theorem lanesOf_of_transacted {α : Type} {body : List Exchange → Except Fault (Ending α) → Prop}
    {r : Except Fault α} (h : Transacted body said r) :
    (lanesOf said = [] ∧ ∀ v, r ≠ .ok v) ∨
      ∃ first ending, body first ending ∧ lanesOf said = lanesOf first ∧ ∀ v, r = .ok v →
        ending = .ok (.commit v) ∨ ending = .ok (.rollback v) ∨ ending = .ok (.abandon v) := by
  have hlanes (reply : Reply) (first : List Exchange) {rest : List Exchange}
      (hrest : OnlyCommands rest) :
      lanesOf (⟨.command .begin, reply⟩ :: (first ++ rest)) = lanesOf first := by
    rw [lanesOf_command_cons, lanesOf_append, lanesOf_of_onlyCommands hrest, List.append_nil]
  cases h with
  | notBegun hcount hrest => exact .inl ⟨hlanes _ [] hrest.onlyCommands, nofun⟩
  | failed hcount hfirst hrest =>
    exact .inr ⟨_, _, hfirst, hlanes _ _ hrest.onlyCommands, nofun⟩
  | commit hcount hfirst hrest =>
    refine .inr ⟨_, _, hfirst, hlanes _ _ hrest.onlyCommands, fun v hv => .inl ?_⟩
    rw [hrest.committed_iff.2 v hv]
  | rollback hcount hfirst hrest =>
    refine .inr ⟨_, _, hfirst, hlanes _ _ hrest.onlyCommands, fun v hv => .inr (.inl ?_)⟩
    rw [hrest.committed_iff.2 v hv]
  | abandon hcount hfirst =>
    have hrest (reply : Reply) : OnlyCommands [⟨.command .rollback, reply⟩] :=
      (GivenUp.refused reply).onlyCommands
    refine .inr ⟨_, _, hfirst, hlanes _ _ (hrest _), fun v hv => .inr (.inr ?_)⟩
    rw [Except.ok.inj hv]

/-- Publishing binds the lane of the key, and sends nothing else. -/
theorem lanesOf_publish {lanes : UInt32} {channel : String} {payload : ByteArray}
    (h : Runs (publish lanes channel key payload) said answer) :
    lanesOf said = [(toColumn (laneOf key lanes)).toInt] := by
  obtain ⟨reply, rest, rfl, hrest⟩ := runs_fetchFirst_bind h
  obtain rfl : rest = [] := by
    cases hid : reply.first (single? Cell.int64?) with
    | error f =>
      rw [hid] at hrest
      exact (runs_pure_iff.1 hrest).1
    | ok id =>
      rw [hid] at hrest
      exact (runs_pure_iff.1 hrest).1
  rfl

/-- Setting a message aside binds its lane, unless it ends before there is a copy. -/
theorem lanesOf_setAside (h : Runs (setAside d reason) said answer) :
    (lanesOf said = [] ∧ answer ≠ .ok ()) ∨ lanesOf said = [(toColumn d.lane).toInt] := by
  obtain ⟨outcome, htransacted, rfl⟩ := transacted_of_runs_setAside h
  -- only what ends with a commit is answered to be done
  have hfailed (hno : outcome ≠ .ok true) : settled d outcome ≠ .ok () := by
    intro hok
    rcases outcome with f | _ | _
    · cases hok
    · cases hok
    · exact hno rfl
  rcases lanesOf_of_transacted htransacted with ⟨hnil, herror⟩ | ⟨first, ending, hmoved, heq, hend⟩
  · exact .inl ⟨hnil, hfailed (herror true)⟩
  · rw [heq]
    cases hmoved with
    | markRefused hmark => exact .inl ⟨rfl, hfailed fun hok => by simpa using hend true hok⟩
    | notOut hmark => exact .inl ⟨rfl, hfailed fun hok => by simpa using hend true hok⟩
    | copyRefused hmark hn hcopy => exact .inr rfl
    | copied hmark hn hcopy => exact .inr rfl

/-! ### There and back -/

/-- The way of a key's messages through the database: publishing binds `stored` as their lane, a
message whose row carries that is on the lane `read`, and `read` is bound for its copy if it is set
aside. -/
structure Passage (lanes : UInt32) (key : String) (stored : Int) (read : UInt32) : Prop where
  published : ∀ {channel : String} {payload : ByteArray} {said : List Exchange}
    {answer : Except BrokerError Unit},
    Runs (publish lanes channel key payload) said answer → lanesOf said = [stored]
  received : ∀ {row : Row} {d : Delivery}, row[3]? = some (.integer stored) →
    deliveryOfRow? row = some d → d.lane = read
  setAside : ∀ {row : Row} {d : Delivery} {reason : String} {said : List Exchange}
    {answer : Except BrokerError Unit}, row[3]? = some (.integer stored) →
    deliveryOfRow? row = some d → Runs (setAside d reason) said answer →
    (lanesOf said = [] ∧ answer ≠ .ok ()) ∨ lanesOf said = [(read.toNat : Int)]

/-- A lane survives the database if what is stored is a lane of the queue, and what is read from it
is the lane of the key. -/
def LaneSurvives (lanes : UInt32) (key : String) : Prop :=
  ∃ stored : Int, 0 ≤ stored ∧ stored < lanes.toNat ∧ Passage lanes key stored (laneOf key lanes)

theorem passage (lanes : UInt32) (key : String) :
    Passage lanes key (toColumn (laneOf key lanes)).toInt
      (ofColumn (toColumn (laneOf key lanes))) where
  published := lanesOf_publish
  received := lane_of_deliveryOfRow?
  setAside hrow hd h := by
    have hlane := lane_of_deliveryOfRow? hrow hd
    have hsaid := lanesOf_setAside h
    rwa [hlane, toInt_toColumn_of_lt (ofColumn_lt _)] at hsaid

/-- What is stored is known from publishing any message of the key. -/
theorem Passage.stored_eq {lanes : UInt32} {stored : Int} {read : UInt32}
    (h : Passage lanes key stored read) : stored = (toColumn (laneOf key lanes)).toInt := by
  have hruns : Runs (publish lanes "" key ⟨#[]⟩)
      [⟨.statement (addMessage lanes "" key ⟨#[]⟩), .failure⟩]
      (.error (.publish "Database error")) := .send .failure (.done _)
  have hstored : [_] = [stored] := h.published hruns
  exact (List.singleton_inj.1 hstored).symm

/-- Exactly the lanes below 2³¹ survive. The others are stored as negative numbers, and their
messages come back on the first lane. -/
theorem laneSurvives_iff {o : Overflow} {vars : Settings.Source} {s : Settings}
    (h : Settings.ofSource o vars = .ok s) (key : String) :
    (LaneSurvives s.queue.lanes key ↔ (laneOf key s.queue.lanes).toNat < 2 ^ 31) ∧
    (s.queue.lanes.toNat ≤ 2 ^ 31 → LaneSurvives s.queue.lanes key) ∧
    (¬ LaneSurvives s.queue.lanes key →
      Passage s.queue.lanes key ((laneOf key s.queue.lanes).toNat - 2 ^ 32) 0) := by
  have hlanes : s.queue.lanes ≠ 0 := (Settings.ofSource_eq_ok_iff.1 h).2.lanes
  generalize s.queue.lanes = lanes at hlanes ⊢
  have hpos : 0 < lanes.toNat := by
    rw [Nat.pos_iff_ne_zero]
    exact fun h0 => hlanes (UInt32.toNat_inj.1 h0)
  have hlt := Broker.laneOf_lt key hpos
  have hpassage := passage lanes key
  rw [toInt_toColumn, ofColumn_toColumn] at hpassage
  have hiff : LaneSurvives lanes key ↔ (laneOf key lanes).toNat < 2 ^ 31 := by
    constructor
    · rintro ⟨stored, hstored, -, hsurvives⟩
      rw [hsurvives.stored_eq] at hstored
      exact zero_le_toColumn_iff.1 hstored
    · intro hlow
      rw [if_pos hlow, if_pos hlow] at hpassage
      exact ⟨_, by omega, by omega, hpassage⟩
  refine ⟨hiff, fun hle => hiff.2 (Nat.lt_of_lt_of_le hlt hle), fun hnot => ?_⟩
  rw [hiff] at hnot
  rwa [if_neg hnot, if_neg hnot] at hpassage

/-- With four lanes every lane survives. -/
theorem laneSurvives_iff_four :
    let vars := Settings.Source.ofList [("DATABASE_URL", "db"), ("BROKER_LANES", "4")]
    ∃ s, Settings.ofSource .stops vars = .ok s ∧ s.queue.lanes = 4 ∧
      LaneSurvives s.queue.lanes "1" := by
  intro vars
  obtain ⟨s, hs, hlanes⟩ : ∃ s, Settings.ofSource .stops vars = .ok s ∧ s.queue.lanes = 4 :=
    ⟨_, rfl, rfl⟩
  refine ⟨s, hs, hlanes, (laneSurvives_iff hs "1").2.1 ?_⟩
  rw [hlanes]
  decide

/-- As many lanes as there may be: the lane of this key is stored as a negative number, and the
message comes back on the first lane. -/
theorem not_laneSurvives_most_lanes :
    let vars := Settings.Source.ofList [("DATABASE_URL", "db"), ("BROKER_LANES", "4294967295")]
    ∃ s, Settings.ofSource .stops vars = .ok s ∧ ¬ LaneSurvives s.queue.lanes "1" ∧
      laneOf "1" s.queue.lanes = 2832808918 ∧ Passage s.queue.lanes "1" (-1462158378) 0 := by
  intro vars
  obtain ⟨s, hs, hlanes⟩ :
      ∃ s, Settings.ofSource .stops vars = .ok s ∧ s.queue.lanes = 4294967295 := ⟨_, rfl, rfl⟩
  have hlane : laneOf "1" 4294967295 = 2832808918 := by decide +kernel
  have hstored : (toColumn 2832808918).toInt = -1462158378 := by decide
  have hread : ofColumn (toColumn 2832808918) = 0 := by decide
  have hpassage := passage 4294967295 "1"
  rw [hlane, hstored, hread] at hpassage
  refine ⟨s, hs, ?_, hlanes ▸ hlane, hlanes ▸ hpassage⟩
  rintro ⟨stored, hnonneg, -, hsurvives⟩
  rw [hsurvives.stored_eq, hlanes, hlane, hstored] at hnonneg
  exact absurd hnonneg (by decide)

end SpendingLedger.Database.Queue
