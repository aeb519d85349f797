import SpendingLedger.Proofs.Broker.History
import Mathlib.Data.List.Forall2

/-!
The order of a lane. Messages go to the end of their lane and out from its head, and the head stays
there until it is acknowledged or given up, however often it goes out and comes back. So what was
handed out from a lane falls into stays, one for each message, in the order in which the messages
came. Where a program stops instead of counting on, a message may also go out for the last time its
count allows, and come back to be lost.
-/

namespace SpendingLedger

/-! ### What happens at a lane -/

/-- A message goes out, or is settled. -/
inductive Turn where
  | out (d : Delivery)
  | back (s : Settlement)

def Turn.isOut : Turn → Bool
  | .out _ => true
  | .back _ => false

/-- The delivery, if a message goes out. -/
def Turn.deliveries : Turn → List Delivery
  | .out d => [d]
  | .back _ => []

/-- The time of a message at the head of its lane: it goes out, comes back and goes out again any
number of times, and may have been settled since. -/
structure Stay where
  first : Delivery
  again : List Delivery := []
  settlement : Option Settlement := none

namespace Stay

def deliveries (s : Stay) : List Delivery := s.first :: s.again

/-- What happens at the lane during a stay. -/
def turns (s : Stay) : List Turn :=
  (.out s.first :: s.again.flatMap (fun d => [.back .requeue, .out d])) ++
    s.settlement.toList.map .back

/-- A stay is over once the message is acknowledged or given up. -/
def IsOver (s : Stay) : Prop := ∃ how, s.settlement = some how ∧ how ≠ .requeue

/-- The stay is that of a message, whose deliveries are counted from one. The count is a number of
32 bits. -/
structure Of (s : Stay) (x : Letter) : Prop where
  letter_eq : ∀ d ∈ s.deliveries, d.letter = x
  count_eq : s.deliveries.map (·.count) = (List.range' 1 s.deliveries.length).map UInt32.ofNat

def begin (d : Delivery) : Stay := { first := d }

def goOn (s : Stay) (d : Delivery) : Stay := { s with again := s.again ++ [d], settlement := none }

def settle (s : Stay) (how : Settlement) : Stay := { s with settlement := some how }

theorem of_begin {d : Delivery} {x : Letter} (hx : d.letter = x) (hcount : d.count = 1) :
    (begin d).Of x where
  letter_eq d' hd' := by
    obtain rfl : d' = d := by simpa [deliveries, begin] using hd'
    exact hx
  count_eq := by
    rw [deliveries, begin, List.map_singleton, hcount]
    rfl

variable {s : Stay} {x : Letter}

theorem deliveries_goOn (s : Stay) (d : Delivery) :
    (s.goOn d).deliveries = s.deliveries ++ [d] := rfl

theorem Of.goOn (h : s.Of x) {d : Delivery} (hx : d.letter = x)
    (hcount : d.count = UInt32.ofNat s.deliveries.length + 1) : (s.goOn d).Of x where
  letter_eq d' hd' := by
    rw [deliveries_goOn, List.mem_append, List.mem_singleton] at hd'
    rcases hd' with hd' | rfl
    · exact h.letter_eq d' hd'
    · exact hx
  count_eq := by
    rw [deliveries_goOn, List.map_append, List.length_append, List.length_singleton,
      List.range'_concat, List.map_append, h.count_eq, List.map_singleton, List.map_singleton,
      hcount, Nat.one_mul, Nat.add_comm 1, UInt32.ofNat_add]
    rfl

theorem Of.settle (h : s.Of x) (how : Settlement) : (s.settle how).Of x :=
  ⟨h.letter_eq, h.count_eq⟩

theorem turns_goOn (h : s.settlement = some .requeue) (d : Delivery) :
    (s.goOn d).turns = s.turns ++ [.out d] := by
  simp [turns, goOn, h, List.flatMap_append]

theorem turns_settle (h : s.settlement = none) (how : Settlement) :
    (s.settle how).turns = s.turns ++ [.back how] := by
  simp [turns, settle, h]

/-- The message has been out as often as can be counted, and has come back. -/
def IsSpent (s : Stay) : Prop :=
  s.settlement = some .requeue ∧ s.deliveries.length = 2 ^ 32 - 1

/-- How a stay may end: where programs stop, the next receiver takes a spent message with it. -/
def EndsIn (o : Overflow) (s : Stay) : Prop := s.IsOver ∨ o = .stops ∧ s.IsSpent

theorem endsIn_wraps_iff : s.EndsIn .wraps ↔ s.IsOver :=
  ⟨fun h => h.resolve_right nofun, .inl⟩

/-- The stay is that of a message. Where programs stop, its count never starts over. -/
structure OfIn (o : Overflow) (s : Stay) (x : Letter) : Prop extends s.Of x where
  length_lt : o = .stops → s.deliveries.length < 2 ^ 32

theorem OfIn.settle {o : Overflow} (h : s.OfIn o x) (how : Settlement) : (s.settle how).OfIn o x :=
  ⟨h.toOf.settle how, h.length_lt⟩

/-- A message whose count goes up has been out less often than can be counted. -/
theorem OfIn.length_lt_goOn {o : Overflow} (h : s.OfIn o x) {m : Message}
    (hcount : m.count = UInt32.ofNat s.deliveries.length)
    (hfits : o = .stops → m.count.toNat + 1 < 2 ^ 32) (d : Delivery) (ho : o = .stops) :
    (s.goOn d).deliveries.length < 2 ^ 32 := by
  have hlt := hfits ho
  rw [hcount, UInt32.toNat_ofNat_of_lt' (h.length_lt ho)] at hlt
  rwa [deliveries_goOn, List.length_append, List.length_singleton]

/-- The stay is that of a message, whose deliveries are counted from one without a gap. -/
structure Exactly (s : Stay) (x : Letter) : Prop where
  letter_eq : ∀ d ∈ s.deliveries, d.letter = x
  count_eq : s.deliveries.map (·.count.toNat) = List.range' 1 s.deliveries.length

theorem Of.exactly (h : s.Of x) (hlt : s.deliveries.length < 2 ^ 32) : s.Exactly x where
  letter_eq := h.letter_eq
  count_eq := by
    have hcounts := congrArg (List.map UInt32.toNat) h.count_eq
    rw [List.map_map, List.map_map] at hcounts
    refine hcounts.trans ((List.map_congr_left (g := id) fun n hn => ?_).trans (List.map_id _))
    rw [List.mem_range'_1] at hn
    have hn' : n < 2 ^ 32 := by omega
    exact UInt32.toNat_ofNat_of_lt' hn'

/-- Only the first delivery of a stay has the count one. -/
theorem Exactly.filter_deliveries (h : s.Exactly x) :
    s.deliveries.filter (·.count = 1) = [s.first] := by
  have hcounts := h.count_eq
  rw [deliveries, List.map_cons, List.length_cons, List.range'_succ] at hcounts
  obtain ⟨hfirst, hagain⟩ := List.cons.inj hcounts
  have hone : s.first.count = 1 := UInt32.toNat_inj.1 hfirst
  rw [deliveries, List.filter_cons_of_pos (by simpa using hone)]
  congr 1
  rw [List.filter_eq_nil_iff]
  intro d hd hd'
  have hmem : d.count.toNat ∈ s.again.map (·.count.toNat) := List.mem_map_of_mem hd
  rw [hagain, List.mem_range'_1, of_decide_eq_true hd'] at hmem
  exact absurd hmem.1 (by decide)

theorem deliveries_turns (s : Stay) : s.turns.flatMap Turn.deliveries = s.deliveries := by
  have hagain (ds : List Delivery) :
      (ds.flatMap (fun d => [Turn.back .requeue, .out d])).flatMap Turn.deliveries = ds := by
    induction ds with
    | nil => rfl
    | cons d rest ih => simpa [List.flatMap_append, Turn.deliveries] using ih
  rw [turns, List.flatMap_append, List.flatMap_cons, hagain]
  cases s.settlement <;> simp [Turn.deliveries, deliveries]

/-- What is out went out last. -/
theorem exists_getLast?_turns (h : s.settlement = none) :
    ∃ d ∈ s.deliveries, s.turns.getLast? = some (.out d) := by
  rcases s with ⟨first, again, settlement⟩
  obtain rfl : settlement = none := h
  rcases again.eq_nil_or_concat with rfl | ⟨ds, d, rfl⟩
  · exact ⟨first, List.mem_cons_self, rfl⟩
  · refine ⟨d, by simp [deliveries], ?_⟩
    simp [turns, List.getLast?_cons, List.getLast?_append]

theorem deliveries_flatMap_turns (stays : List Stay) :
    (stays.flatMap turns).flatMap Turn.deliveries = stays.flatMap deliveries := by
  rw [List.flatMap_assoc]
  exact List.flatMap_congr fun s _ => s.deliveries_turns

/-- Each message that had a stay went out for the first time once. -/
theorem filter_flatMap_deliveries {stays : List Stay} {gone : List Letter}
    (h : List.Forall₂ Exactly stays gone) :
    ((stays.flatMap deliveries).filter (·.count = 1)).map Delivery.letter = gone := by
  induction h with
  | nil => rfl
  | @cons s x stays gone hs _ ih =>
    rw [List.flatMap_cons, List.filter_append, List.map_append, ih, hs.filter_deliveries,
      List.map_singleton, hs.letter_eq s.first List.mem_cons_self, List.singleton_append]

end Stay

/-! ### The invariant of a lane -/

/-- What was handed out from a lane falls into stays of the messages that came, up to the one that
is at the head of the lane. -/
inductive Lane.Follows (o : Overflow) : List Letter → List Turn → Lane → Prop
  /-- The head has never been out. -/
  | idle {stays : List Stay} {gone : List Letter} {queue : List Message}
      (hover : ∀ s ∈ stays, s.EndsIn o) (hstays : List.Forall₂ (Stay.OfIn o) stays gone)
      (hqueue : ∀ m ∈ queue, m.count = 0) :
    Follows o (gone ++ queue.map Message.letter) (stays.flatMap Stay.turns) ⟨queue, none⟩
  | out {stays : List Stay} {gone : List Letter} {queue : List Message} {s : Stay} {m : Message}
      (hover : ∀ s ∈ stays, s.EndsIn o) (hstays : List.Forall₂ (Stay.OfIn o) stays gone)
      (hqueue : ∀ m ∈ queue, m.count = 0) (hs : s.OfIn o m.letter) (hopen : s.settlement = none)
      (hcount : m.count = UInt32.ofNat s.deliveries.length) :
    Follows o (gone ++ m.letter :: queue.map Message.letter) (stays.flatMap Stay.turns ++ s.turns)
      ⟨queue, some m⟩
  | waiting {stays : List Stay} {gone : List Letter} {queue : List Message} {s : Stay} {m : Message}
      (hover : ∀ s ∈ stays, s.EndsIn o) (hstays : List.Forall₂ (Stay.OfIn o) stays gone)
      (hqueue : ∀ m ∈ queue, m.count = 0) (hs : s.OfIn o m.letter)
      (hopen : s.settlement = some .requeue)
      (hcount : m.count = UInt32.ofNat s.deliveries.length) :
    Follows o (gone ++ m.letter :: queue.map Message.letter) (stays.flatMap Stay.turns ++ s.turns)
      ⟨m :: queue, none⟩

namespace Lane.Follows

variable {o : Overflow} {arrivals : List Letter} {turns : List Turn} {queue : List Message}
  {m : Message}

theorem start : Follows o [] [] {} :=
  @idle o [] [] [] (by simp) .nil (by simp)

theorem push {l : Lane} (h : Follows o arrivals turns l) (hm : m.count = 0) :
    Follows o (arrivals ++ [m.letter]) turns (l.push m) := by
  have hsnoc {queue : List Message} (hqueue : ∀ m ∈ queue, m.count = 0) :
      ∀ m' ∈ queue ++ [m], m'.count = 0 := by
    intro m' hm'
    rw [List.mem_append, List.mem_singleton] at hm'
    rcases hm' with hm' | rfl
    · exact hqueue m' hm'
    · exact hm
  cases h with
  | idle hover hstays hqueue =>
    have := idle hover hstays (hsnoc hqueue)
    rwa [List.map_append, ← List.append_assoc] at this
  | out hover hstays hqueue hs hopen hcount =>
    have := out hover hstays (hsnoc hqueue) hs hopen hcount
    rwa [List.map_append, ← List.cons_append, ← List.append_assoc] at this
  | waiting hover hstays hqueue hs hopen hcount =>
    have := waiting hover hstays (hsnoc hqueue) hs hopen hcount
    rwa [List.map_append, ← List.cons_append, ← List.append_assoc] at this

theorem handOut (h : Follows o arrivals turns ⟨m :: queue, none⟩) {d : Delivery}
    (hletter : d.letter = m.letter) (hcount : d.count = m.count + 1)
    (hfits : o = .stops → m.count.toNat + 1 < 2 ^ 32) :
    Follows o arrivals (turns ++ [.out d]) ⟨queue, some { m with count := m.count + 1 }⟩ := by
  cases h with
  | idle hover hstays hqueue =>
    have hzero := hqueue m List.mem_cons_self
    have hs : (Stay.begin d).OfIn o m.letter :=
      ⟨Stay.of_begin hletter (by rw [hcount, hzero]; rfl), fun _ => show 1 < 2 ^ 32 by decide⟩
    exact out (m := { m with count := m.count + 1 }) hover hstays
      (fun m' hm' => hqueue m' (List.mem_cons_of_mem _ hm')) hs rfl (by rw [hzero]; rfl)
  | waiting hover hstays hqueue hs hopen hm =>
    have hlt := hs.length_lt_goOn hm hfits d
    rw [hm] at hcount
    have := out (m := { m with count := m.count + 1 }) hover hstays hqueue
      ⟨hs.toOf.goOn hletter hcount, hlt⟩ rfl (by
        rw [Stay.deliveries_goOn, List.length_append, List.length_singleton, UInt32.ofNat_add, hm]
        rfl)
    rwa [Stay.turns_goOn hopen, ← List.append_assoc] at this

theorem restore (h : Follows o arrivals turns ⟨queue, some m⟩) :
    Follows o arrivals (turns ++ [.back .requeue]) ⟨m :: queue, none⟩ := by
  cases h with
  | out hover hstays hqueue hs hopen hcount =>
    have := waiting hover hstays hqueue (hs.settle .requeue) rfl hcount
    rwa [Stay.turns_settle hopen, ← List.append_assoc] at this

theorem release (h : Follows o arrivals turns ⟨queue, some m⟩) {how : Settlement}
    (hhow : how ≠ .requeue) : Follows o arrivals (turns ++ [.back how]) ⟨queue, none⟩ := by
  cases h with
  | @out stays gone _ s _ hover hstays hqueue hs hopen hcount =>
    have hover' : ∀ s' ∈ stays ++ [s.settle how], s'.EndsIn o := by
      intro s' hs'
      rw [List.mem_append, List.mem_singleton] at hs'
      rcases hs' with hs' | rfl
      · exact hover s' hs'
      · exact .inl ⟨how, rfl, hhow⟩
    have hstays' : List.Forall₂ (Stay.OfIn o) (stays ++ [s.settle how]) (gone ++ [m.letter]) :=
      List.rel_append hstays (.cons (hs.settle how) .nil)
    have := idle hover' hstays' hqueue
    rwa [List.flatMap_append, List.flatMap_singleton, Stay.turns_settle hopen, ← List.append_assoc,
      List.append_assoc gone, List.singleton_append] at this

/-- A message whose count does not fit is the one that has been out most often, so it leaves a stay
that is spent. -/
theorem drop (h : Follows .stops arrivals turns ⟨m :: queue, none⟩)
    (hcount : 2 ^ 32 ≤ m.count.toNat + 1) : Follows .stops arrivals turns ⟨queue, none⟩ := by
  cases h with
  | idle _ _ hqueue =>
    rw [hqueue m List.mem_cons_self] at hcount
    exact absurd hcount (by decide)
  | @waiting stays gone _ s _ hover hstays hqueue hs hopen hm =>
    have hlt := hs.length_lt rfl
    rw [hm, UInt32.toNat_ofNat_of_lt' hlt] at hcount
    have hover' : ∀ s' ∈ stays ++ [s], s'.EndsIn .stops := by
      intro s' hs'
      rw [List.mem_append, List.mem_singleton] at hs'
      rcases hs' with hs' | rfl
      · exact hover s' hs'
      · exact .inr ⟨rfl, hopen, by omega⟩
    have hstays' : List.Forall₂ (Stay.OfIn .stops) (stays ++ [s]) (gone ++ [m.letter]) :=
      List.rel_append hstays (.cons hs .nil)
    have := idle hover' hstays' hqueue
    rwa [List.flatMap_append, List.flatMap_singleton, List.append_assoc gone,
      List.singleton_append] at this

/-- The stays that a lane has seen. -/
theorem exists_staysIn {l : Lane} (h : Follows o arrivals turns l) :
    ∃ stays gone, turns = stays.flatMap Stay.turns ∧ gone <+: arrivals ∧
      List.Forall₂ (Stay.OfIn o) stays gone ∧ ∀ s ∈ stays.dropLast, s.EndsIn o := by
  have hsnoc {stays : List Stay} {gone : List Letter} {queue : List Message} {s : Stay}
      {m : Message} (hover : ∀ s ∈ stays, s.EndsIn o)
      (hstays : List.Forall₂ (Stay.OfIn o) stays gone)
      (hs : s.OfIn o m.letter) : ∃ stays' gone', stays.flatMap Stay.turns ++ s.turns =
        stays'.flatMap Stay.turns ∧ gone' <+: gone ++ m.letter :: queue.map Message.letter ∧
      List.Forall₂ (Stay.OfIn o) stays' gone' ∧ ∀ s ∈ stays'.dropLast, s.EndsIn o := by
    refine ⟨stays ++ [s], gone ++ [m.letter], ?_, ?_, List.rel_append hstays (.cons hs .nil), ?_⟩
    · rw [List.flatMap_append, List.flatMap_singleton]
    · have := List.prefix_append (gone ++ [m.letter]) (queue.map Message.letter)
      rwa [← List.append_cons] at this
    · rwa [List.dropLast_concat]
  cases h with
  | idle hover hstays =>
    exact ⟨_, _, rfl, List.prefix_append .., hstays,
      fun s hs => hover s (List.dropLast_subset _ hs)⟩
  | out hover hstays _ hs => exact hsnoc hover hstays hs
  | waiting hover hstays _ hs => exact hsnoc hover hstays hs

/-- Where counts start over, each message stays until it is acknowledged or given up. -/
theorem exists_stays {l : Lane} (h : Follows .wraps arrivals turns l) :
    ∃ stays gone, turns = stays.flatMap Stay.turns ∧ gone <+: arrivals ∧
      List.Forall₂ Stay.Of stays gone ∧ ∀ s ∈ stays.dropLast, s.IsOver := by
  obtain ⟨stays, gone, hturns, hgone, hof, hends⟩ := h.exists_staysIn
  exact ⟨stays, gone, hturns, hgone, hof.imp fun _ _ => Stay.OfIn.toOf,
    fun s hs => Stay.endsIn_wraps_iff.1 (hends s hs)⟩

end Lane.Follows

/-! ### Going out and coming back -/

/-- Going out and coming back take turns. -/
def Alternate (turns : List Turn) : Prop :=
  ∀ k t, turns[k]? = some t → (t.isOut = true ↔ k % 2 = 0)

theorem Alternate.snoc {turns : List Turn} (h : Alternate turns) {t : Turn}
    (ht : t.isOut = true ↔ turns.length % 2 = 0) : Alternate (turns ++ [t]) := by
  intro k t' hk
  rcases Nat.lt_trichotomy k turns.length with hlt | rfl | hgt
  · rw [List.getElem?_append_left hlt] at hk
    exact h k t' hk
  · rw [List.getElem?_concat_length] at hk
    obtain rfl := Option.some.inj hk
    exact ht
  · rw [List.getElem?_eq_none (by rw [List.length_append, List.length_singleton]; omega)] at hk
    contradiction

/-- The state of a lane beside its past. -/
structure Lane.InOrder (o : Overflow) (arrivals : List Letter) (turns : List Turn)
    (l : Lane) : Prop where
  follows : l.Follows o arrivals turns
  alternate : Alternate turns
  /-- One more has gone out than come back exactly if a message is out. -/
  length_mod : turns.length % 2 = l.inFlight.toList.length

namespace Lane.InOrder

variable {o : Overflow} {arrivals : List Letter} {turns : List Turn} {queue : List Message}
  {m : Message}

theorem start : InOrder o [] [] {} := ⟨.start, fun _ _ h => by simp at h, rfl⟩

theorem push {l : Lane} (h : InOrder o arrivals turns l) (hm : m.count = 0) :
    InOrder o (arrivals ++ [m.letter]) turns (l.push m) :=
  ⟨h.follows.push hm, h.alternate, h.length_mod⟩

theorem handOut (h : InOrder o arrivals turns ⟨m :: queue, none⟩) {d : Delivery}
    (hletter : d.letter = m.letter) (hcount : d.count = m.count + 1)
    (hfits : o = .stops → m.count.toNat + 1 < 2 ^ 32) :
    InOrder o arrivals (turns ++ [.out d]) ⟨queue, some { m with count := m.count + 1 }⟩ := by
  have hmod : turns.length % 2 = 0 := h.length_mod
  refine ⟨h.follows.handOut hletter hcount hfits, h.alternate.snoc (by simp [Turn.isOut, hmod]), ?_⟩
  show (turns ++ [Turn.out d]).length % 2 = 1
  rw [List.length_append, List.length_singleton]
  omega

theorem drop (h : InOrder .stops arrivals turns ⟨m :: queue, none⟩)
    (hcount : 2 ^ 32 ≤ m.count.toNat + 1) : InOrder .stops arrivals turns ⟨queue, none⟩ :=
  ⟨h.follows.drop hcount, h.alternate, h.length_mod⟩

theorem restore (h : InOrder o arrivals turns ⟨queue, some m⟩) :
    InOrder o arrivals (turns ++ [.back .requeue]) ⟨m :: queue, none⟩ := by
  have hmod : turns.length % 2 = 1 := h.length_mod
  refine ⟨h.follows.restore, h.alternate.snoc (by simp [Turn.isOut, hmod]), ?_⟩
  show (turns ++ [Turn.back .requeue]).length % 2 = 0
  rw [List.length_append, List.length_singleton]
  omega

theorem release (h : InOrder o arrivals turns ⟨queue, some m⟩) {how : Settlement}
    (hhow : how ≠ .requeue) : InOrder o arrivals (turns ++ [.back how]) ⟨queue, none⟩ := by
  have hmod : turns.length % 2 = 1 := h.length_mod
  refine ⟨h.follows.release hhow, h.alternate.snoc (by simp [Turn.isOut, hmod]), ?_⟩
  show (turns ++ [Turn.back how]).length % 2 = 0
  rw [List.length_append, List.length_singleton]
  omega

/-- A message is out exactly if the last that happened is that it went out. -/
theorem inFlight_iff {l : Lane} (h : InOrder o arrivals turns l) (x : Letter) :
    (∃ m, l.inFlight = some m ∧ m.letter = x) ↔
      ∃ d, turns.getLast? = some (.out d) ∧ d.letter = x := by
  have hout {m : Message} (hm : l.inFlight = some m) :
      ∃ d, turns.getLast? = some (.out d) ∧ d.letter = m.letter := by
    cases h.follows with
    | idle | waiting => cases hm
    | out _ _ _ hs hopen _ =>
      obtain rfl := Option.some.inj hm
      obtain ⟨d, hd, hlast⟩ := Stay.exists_getLast?_turns hopen
      exact ⟨d, by rw [List.getLast?_append, hlast]; rfl, hs.letter_eq d hd⟩
  constructor
  · rintro ⟨m, hm, rfl⟩
    exact hout hm
  · rintro ⟨d, hlast, rfl⟩
    -- the number of turns is odd, so a message is out
    have hodd : turns.length % 2 = 1 := by
      have hget := hlast
      rw [List.getLast?_eq_getElem?] at hget
      have heven := (h.alternate _ _ hget).1 rfl
      have hpos := (List.getElem?_eq_some_iff.1 hget).1
      omega
    rw [h.length_mod] at hodd
    obtain ⟨m, hm⟩ : ∃ m, l.inFlight = some m := by
      cases hl : l.inFlight with
      | none =>
        rw [hl] at hodd
        cases hodd
      | some m => exact ⟨m, rfl⟩
    obtain ⟨d', hlast', hletter⟩ := hout hm
    rw [hlast] at hlast'
    obtain rfl := Turn.out.inj (Option.some.inj hlast')
    exact ⟨m, hm, hletter.symm⟩

end Lane.InOrder

/-! ### Histories -/

namespace Occurrence

/-- The delivery that a receiver of a channel gets. -/
def deliveriesOn (name : String) : Occurrence → List Delivery
  | .handOut d => if d.channel = name then [d] else []
  | _ => []

/-- The letter that comes to a channel. -/
def arrivalsOn (name : String) : Occurrence → List Letter
  | .publish name' x => if name' = name then [x] else []
  | .settle d x (.setAside _) => if setAsideChannel d.channel = name then [x] else []
  | _ => []

/-- The letter that comes to lane `i` of a channel. -/
def arrivalsAt (lanes : UInt32) (name : String) (i : Nat) : Occurrence → List Letter
  | .publish name' x => if name' = name ∧ (laneOf x.key lanes).toNat = i then [x] else []
  | .settle d x (.setAside _) =>
    if setAsideChannel d.channel = name ∧ (laneOf x.key lanes).toNat = i then [x] else []
  | _ => []

/-- What happens at lane `i` of a channel. -/
def turnsAt (name : String) (i : Nat) : Occurrence → List Turn
  | .publish .. => []
  | .handOut d => if d.channel = name ∧ d.lane.toNat = i then [.out d] else []
  | .settle d _ how => if d.channel = name ∧ d.lane.toNat = i then [.back how] else []

end Occurrence

namespace History

def deliveriesOn (h : History) (name : String) : List Delivery :=
  h.past.flatMap (·.deliveriesOn name)

def arrivalsOn (h : History) (name : String) : List Letter := h.past.flatMap (·.arrivalsOn name)

def arrivalsAt (h : History) (name : String) (i : Nat) : List Letter :=
  h.past.flatMap (·.arrivalsAt h.broker.lanes name i)

def turnsAt (h : History) (name : String) (i : Nat) : List Turn := h.past.flatMap (·.turnsAt name i)

def LanesInOrder (o : Overflow) (h : History) : Prop :=
  ∀ name i, (h.broker.laneAt name i).InOrder o (h.arrivalsAt name i) (h.turnsAt name i)

theorem lanesInOrder_new (o : Overflow) (lanes : UInt32) : (new lanes).LanesInOrder o := by
  intro name i
  have hlane : (new lanes).broker.laneAt name i = {} := by
    rw [Broker.laneAt, Broker.channel, new, Broker.new, Table.get?_empty, Option.getD_none,
      Channel.fresh, List.getElem?_replicate]
    split <;> rfl
  rw [hlane]
  exact .start

/-- What comes about at one lane leaves all others in order. -/
theorem inOrder_changeLane {o : Overflow} {arrivals : String → Nat → List Letter}
    {turns : String → Nat → List Turn} {b : Broker} {name : String} {i : Nat}
    (h : ∀ name i, (b.laneAt name i).InOrder o (arrivals name i) (turns name i))
    (hi : i < (b.channel name).lanes.length) (f : Lane → Lane) (cursor : Nat) (xs : List Letter)
    (ts : List Turn)
    (hf : (f (b.laneAt name i)).InOrder o (arrivals name i ++ xs) (turns name i ++ ts))
    (name' : String) (i' : Nat) :
    ((b.changeLane name i f cursor).laneAt name' i').InOrder o
      (arrivals name' i' ++ if name = name' ∧ i = i' then xs else [])
      (turns name' i' ++ if name = name' ∧ i = i' then ts else []) := by
  rw [Broker.laneAt_changeLane hi]
  by_cases heq : name = name' ∧ i = i'
  · obtain ⟨rfl, rfl⟩ := heq
    simpa using hf
  · simpa [heq] using h name' i'

variable {o : Overflow} {h : History}

theorem lanesInOrder_snoc {b : Broker} (hlanes : b.lanes = h.broker.lanes) {reserved : List Int64}
    {news : Occurrence} (ho : ∀ name i, (b.laneAt name i).InOrder o
      (h.arrivalsAt name i ++ news.arrivalsAt h.broker.lanes name i)
      (h.turnsAt name i ++ news.turnsAt name i)) :
    LanesInOrder o ⟨b, reserved, h.past ++ [news]⟩ := by
  intro name i
  simp only [arrivalsAt, turnsAt, List.flatMap_append, List.flatMap_singleton, hlanes]
  exact ho name i

theorem LanesInOrder.post (ho : h.LanesInOrder o) (hs : h.broker.Shaped) (reserved : List Int64)
    (name : String) {m : Message} (hm : m.count = 0) :
    LanesInOrder o ⟨h.broker.enqueue name m, reserved, h.past ++ [.publish name m.letter]⟩ := by
  have hlanes : (h.broker.enqueue name m).lanes = h.broker.lanes := rfl
  refine lanesInOrder_snoc hlanes fun name' i' => ?_
  have := inOrder_changeLane ho (hs.laneOf_lt m.key name) (Lane.push m)
    (h.broker.channel name).cursor [m.letter] [] (by
      rw [List.append_nil]
      exact (ho name _).push hm) name' i'
  rwa [ite_self] at this

theorem LanesInOrder.take (ho : h.LanesInOrder o) (hs : h.broker.Shaped) {name : String} {i : Nat}
    (hi : i < (h.broker.channel name).lanes.length) {m : Message} {queue : List Message}
    (hlane : h.broker.laneAt name i = ⟨m :: queue, none⟩)
    (hfits : o = .stops → m.count.toNat + 1 < 2 ^ 32) (cursor : Nat) :
    LanesInOrder o { h with
      broker := h.broker.changeLane name i (Lane.handOut { m with count := m.count + 1 }) cursor
      past := h.past ++ [.handOut ({ m with count := m.count + 1 }.delivery name i)] } := by
  have hlanes (f : Lane → Lane) :
      (h.broker.changeLane name i f cursor).lanes = h.broker.lanes := rfl
  refine lanesInOrder_snoc (hlanes _) fun name' i' => ?_
  have hold := ho name i
  rw [hlane] at hold
  have := inOrder_changeLane ho hi (Lane.handOut { m with count := m.count + 1 }) cursor
    [] [.out ({ m with count := m.count + 1 }.delivery name i)] (by
      rw [hlane, List.append_nil]
      exact hold.handOut rfl rfl hfits) name' i'
  rw [ite_self] at this
  have hlane : ({ m with count := m.count + 1 }.delivery name i).lane.toNat = i :=
    hs.toNat_ofNat_lane hi
  simp only [Occurrence.turnsAt, hlane]
  exact this

theorem LanesInOrder.drop (ho : h.LanesInOrder .stops) {name : String} {i : Nat}
    (hi : i < (h.broker.channel name).lanes.length) {m : Message} {queue : List Message}
    (hlane : h.broker.laneAt name i = ⟨m :: queue, none⟩) (hcount : 2 ^ 32 ≤ m.count.toNat + 1)
    (cursor : Nat) :
    LanesInOrder .stops { h with broker := h.broker.changeLane name i Lane.drop cursor } := by
  have hold := ho name i
  rw [hlane] at hold
  intro name' i'
  have := inOrder_changeLane ho hi Lane.drop cursor [] [] (by
    rw [hlane, List.append_nil, List.append_nil]
    exact hold.drop hcount) name' i'
  rwa [ite_self, ite_self, List.append_nil, List.append_nil] at this

theorem LanesInOrder.settle (ho : h.LanesInOrder o) (hs : h.broker.Shaped) {d : Delivery}
    (hi : d.lane.toNat < (h.broker.channel d.channel).lanes.length) {m : Message}
    {queue : List Message} (hlane : h.broker.laneAt d.channel d.lane.toNat = ⟨queue, some m⟩)
    (cursor : Nat) (how : Settlement) :
    LanesInOrder o { h with
      broker := h.broker.settled d m cursor how, past := h.past ++ [.settle d m.letter how] } := by
  have hold := ho d.channel d.lane.toNat
  rw [hlane] at hold
  have hrelease (hhow : how ≠ .requeue) := inOrder_changeLane ho hi Lane.release cursor []
    [.back how] (by
      rw [hlane, List.append_nil]
      exact hold.release hhow)
  have hlanes : (h.broker.settled d m cursor how).lanes = h.broker.lanes := by cases how <;> rfl
  refine lanesInOrder_snoc hlanes fun name i => ?_
  cases how with
  | acknowledge =>
    have := hrelease nofun name i
    rwa [ite_self] at this
  | requeue =>
    have := inOrder_changeLane ho hi (Lane.restore m) cursor [] [.back .requeue] (by
        rw [hlane, List.append_nil]
        exact hold.restore) name i
    rwa [ite_self] at this
  | setAside reason =>
    have hshaped := hs.settled hi hlane cursor .acknowledge
    have hlt := hshaped.laneOf_lt m.key (setAsideChannel d.channel)
    have := inOrder_changeLane (hrelease nofun) hlt (Lane.push { m with count := 0 })
      ((h.broker.settled d m cursor .acknowledge).channel (setAsideChannel d.channel)).cursor
      [m.letter] [] (by
        rw [List.append_nil]
        exact (hrelease nofun _ _).push (m := { m with count := 0 }) rfl) name i
    rwa [ite_self, ite_self, List.append_nil, List.append_nil] at this

theorem LanesInOrder.move {h h' : History} (ho : h.LanesInOrder o) (hs : h.broker.Shaped)
    (hmove : Move o h h') : h'.LanesInOrder o := by
  cases hmove with
  | switch | reserve => exact ho
  | post k id now name key payload => exact ho.post hs _ name (m := ⟨id, key, payload, 0, now⟩) rfl
  | take name i m queue cursor hi hlane hfits => exact ho.take hs hi hlane hfits cursor
  | lose name i m queue cursor hi hlane hstops hcount =>
    subst hstops
    exact ho.drop hi hlane hcount cursor
  | settle d s m queue cursor hi hlane => exact ho.settle hs hi hlane cursor s

/-- Whatever was handed out came from the lane of its key. -/
def Placed (h : History) : Prop :=
  ∀ name, ∀ d ∈ h.deliveriesOn name, (laneOf d.key h.broker.lanes).toNat = d.lane.toNat

theorem placed_snoc (hp : h.Placed) {b : Broker} (hlanes : b.lanes = h.broker.lanes)
    {reserved : List Int64} {o : Occurrence} (ho : ∀ name, ∀ d ∈ o.deliveriesOn name,
      (laneOf d.key h.broker.lanes).toNat = d.lane.toNat) :
    Placed ⟨b, reserved, h.past ++ [o]⟩ := by
  intro name d hd
  rw [deliveriesOn, List.flatMap_append, List.flatMap_singleton, List.mem_append] at hd
  show (laneOf d.key b.lanes).toNat = d.lane.toNat
  rw [hlanes]
  exact hd.elim (hp name d) (ho name d)

theorem Placed.move {h h' : History} (hp : h.Placed) (hs : h.broker.Shaped)
    (hmove : Move o h h') : h'.Placed := by
  have hlanes := hmove.lanes_eq
  cases hmove with
  | switch | reserve | lose => exact hp
  | post | settle => exact placed_snoc hp hlanes fun _ _ hd => absurd hd List.not_mem_nil
  | take name i m queue cursor hi hlane =>
    refine placed_snoc hp hlanes fun name' d hd => ?_
    have hd : d = { m with count := m.count + 1 }.delivery name i := by
      rw [Occurrence.deliveriesOn] at hd
      split at hd
      · exact List.mem_singleton.1 hd
      · contradiction
    have hkey : (laneOf m.key h.broker.lanes).toNat = i := by
      refine hs.laneOf_eq name i m.letter ?_
      rw [hlane]
      exact List.mem_cons_self
    subst hd
    exact hkey.trans (hs.toNat_ofNat_lane hi).symm

/-- What was handed out from a lane is what its channel handed out from there. -/
theorem deliveries_turnsAt (h : History) (name : String) (i : Nat) :
    (h.turnsAt name i).flatMap Turn.deliveries =
      (h.deliveriesOn name).filter (fun d => d.lane.toNat = i) := by
  rw [turnsAt, deliveriesOn, List.flatMap_assoc, List.filter_flatMap]
  congr 1
  funext o
  cases o with
  | publish => rfl
  | handOut d =>
    by_cases hname : d.channel = name <;> by_cases hi : d.lane.toNat = i <;>
      simp [Occurrence.turnsAt, Occurrence.deliveriesOn, Turn.deliveries, hname, hi]
  | settle d x s =>
    by_cases hname : d.channel = name <;> by_cases hi : d.lane.toNat = i <;>
      simp [Occurrence.turnsAt, Occurrence.deliveriesOn, Turn.deliveries, hname, hi]

/-- What came to a lane is what came to its channel under a key of that lane. -/
theorem arrivalsAt_eq (h : History) (name : String) (i : Nat) :
    h.arrivalsAt name i =
      (h.arrivalsOn name).filter (fun x => (laneOf x.key h.broker.lanes).toNat = i) := by
  rw [arrivalsAt, arrivalsOn, List.filter_flatMap]
  congr 1
  funext o
  cases o with
  | publish name' x =>
    by_cases hname : name' = name <;> by_cases hi : (laneOf x.key h.broker.lanes).toNat = i <;>
      simp [Occurrence.arrivalsAt, Occurrence.arrivalsOn, hname, hi]
  | handOut => rfl
  | settle d x s =>
    cases s with
    | acknowledge | requeue => rfl
    | setAside reason =>
      by_cases hname : setAsideChannel d.channel = name <;>
        by_cases hi : (laneOf x.key h.broker.lanes).toNat = i <;>
        simp [Occurrence.arrivalsAt, Occurrence.arrivalsOn, hname, hi]

/-! ### The order of every lane -/

/-- What happened on the channels of a broker, lane by lane. -/
structure Ordered (h : History) : Prop where
  /-- It falls into stays, one for each message in the order in which they came and none left out.
  All but the last are over. -/
  stays : ∀ name i, ∃ stays gone, h.turnsAt name i = stays.flatMap Stay.turns ∧
    gone <+: h.arrivalsAt name i ∧ List.Forall₂ Stay.Exactly stays gone ∧
    ∀ s ∈ stays.dropLast, s.IsOver
  /-- Between two deliveries there is one settlement. -/
  alternate : ∀ name i, Alternate (h.turnsAt name i)
  /-- Messages of one key go out for the first time in the order in which they came. -/
  firsts : ∀ name key,
    ((h.deliveriesOn name).filter (fun d => d.key = key ∧ d.count = 1)).map Delivery.letter <+:
      (h.arrivalsOn name).filter (fun x => x.key = key)

theorem length_deliveriesOn_le (h : History) (name : String) :
    (h.deliveriesOn name).length ≤ h.past.length := by
  rw [deliveriesOn]
  induction h.past with
  | nil => exact Nat.le_refl _
  | cons o rest ih =>
    have hone : (o.deliveriesOn name).length ≤ 1 := by
      cases o with
      | publish | settle => exact Nat.zero_le _
      | handOut d =>
        rw [Occurrence.deliveriesOn]
        split <;> simp
    rw [List.flatMap_cons, List.length_append, List.length_cons]
    omega

theorem length_past_perform_le (h : History) (op : Operation) :
    (h.perform op).past.length ≤ h.past.length + 1 := by
  cases op <;> rw [perform] <;> (try split) <;> simp

theorem length_past_run_le (h : History) (ops : List Operation) :
    (h.run ops).past.length ≤ h.past.length + ops.length := by
  induction ops generalizing h with
  | nil => exact Nat.le_refl _
  | cons op rest ih =>
    have h₁ := ih (h.perform op)
    have h₂ := h.length_past_perform_le op
    rw [List.length_cons]
    exact Nat.le_trans h₁ (by omega)

/-- The deliveries of a stay at a lane are among those of its message on the channel. -/
theorem length_deliveries_le {s : Stay} {x : Letter} (hx : s.Of x) {name : String} {i : Nat}
    (hsub : s.deliveries.Sublist ((h.turnsAt name i).flatMap Turn.deliveries)) :
    s.deliveries.length ≤ (h.deliveriesOn name).countP (fun d => d.letter = x) := by
  rw [deliveries_turnsAt] at hsub
  calc s.deliveries.length
    _ = s.deliveries.countP (fun d => d.letter = x) :=
      (List.countP_eq_length.2 fun d hd => by simpa using hx.letter_eq d hd).symm
    _ ≤ (h.deliveriesOn name).countP (fun d => d.letter = x) :=
      (hsub.trans List.filter_sublist).countP_le

/-- If no message goes out so often that its count comes round, the stays at a lane tell the exact
counts. -/
theorem LanesInOrder.exists_stays (ho : h.LanesInOrder .wraps)
    (hlt : ∀ name x, (h.deliveriesOn name).countP (fun d => d.letter = x) < 2 ^ 32)
    (name : String) (i : Nat) :
    ∃ stays gone, h.turnsAt name i = stays.flatMap Stay.turns ∧ gone <+: h.arrivalsAt name i ∧
      List.Forall₂ Stay.Exactly stays gone ∧ ∀ s ∈ stays.dropLast, s.IsOver := by
  obtain ⟨stays, gone, hturns, hgone, hof, hover⟩ := (ho name i).follows.exists_stays
  refine ⟨stays, gone, hturns, hgone, ?_, hover⟩
  have hlong : ∀ s ∈ stays, ∀ x, s.Of x → s.deliveries.length < 2 ^ 32 := by
    intro s hs x hx
    have hsub : s.deliveries.Sublist ((h.turnsAt name i).flatMap Turn.deliveries) := by
      rw [hturns, Stay.deliveries_flatMap_turns, List.flatMap_def]
      exact List.sublist_flatten_of_mem (List.mem_map_of_mem hs)
    exact Nat.lt_of_le_of_lt (length_deliveries_le hx hsub) (hlt name x)
  exact ((List.forall₂_and_left _ _).2 ⟨hlong, hof⟩).imp fun s x hx => hx.2.exactly (hx.1 x hx.2)

/-- The head of a lane is counted no higher than it has been out. -/
theorem LanesInOrder.count_le (ho : h.LanesInOrder .wraps) {name : String} {i : Nat} {m : Message}
    {queue : List Message} (hlane : h.broker.laneAt name i = ⟨m :: queue, none⟩) :
    m.count.toNat ≤ (h.deliveriesOn name).countP (fun d => d.letter = m.letter) := by
  have hfollows := (ho name i).follows
  rw [hlane] at hfollows
  generalize hturns : h.turnsAt name i = turns at hfollows
  generalize h.arrivalsAt name i = arrivals at hfollows
  cases hfollows with
  | idle _ _ hqueue =>
    rw [hqueue m List.mem_cons_self]
    exact Nat.zero_le _
  | @waiting stays _ _ s _ _ _ _ hs _ hcount =>
    have hsub : s.deliveries.Sublist ((h.turnsAt name i).flatMap Turn.deliveries) := by
      rw [hturns, List.flatMap_append, s.deliveries_turns]
      exact List.sublist_append_right _ _
    have hle := length_deliveries_le hs.toOf hsub
    rw [hcount, UInt32.toNat_ofNat']
    exact Nat.le_trans (Nat.mod_le _ _) hle

/-- What a channel hands out for the first time under a key, it hands out from the lane of the
key. -/
theorem Placed.firstDeliveries_eq (hp : h.Placed) (name key : String) :
    (h.deliveriesOn name).filter (fun d => d.key = key ∧ d.count = 1) =
      (((h.turnsAt name (laneOf key h.broker.lanes).toNat).flatMap Turn.deliveries).filter
        (·.count = 1)).filter (·.key = key) := by
  rw [deliveries_turnsAt, List.filter_filter, List.filter_filter]
  refine List.filter_congr fun d hd => ?_
  have hlane := hp name d hd
  by_cases hkey : d.key = key
  · simp [hkey, ← hlane]
  · simp [hkey]

theorem arrivalsOn_key_eq (h : History) (name key : String) :
    (h.arrivalsOn name).filter (fun x => x.key = key) =
      (h.arrivalsAt name (laneOf key h.broker.lanes).toNat).filter (fun x => x.key = key) := by
  rw [arrivalsAt_eq, List.filter_filter]
  refine List.filter_congr fun x _ => ?_
  by_cases hkey : x.key = key <;> simp [hkey]

/-- Every run keeps the order of every lane, if no message goes out so often that its count comes
round. -/
theorem run_ordered (lanes : UInt32) (ops : List Operation)
    (hlt : ∀ name x,
      (((new lanes).run ops).deliveriesOn name).countP (fun d => d.letter = x) < 2 ^ 32) :
    ((new lanes).run ops).Ordered := by
  obtain ⟨-, hlanes, hplaced⟩ :
      let h := (new lanes).run ops
      h.broker.Shaped ∧ h.LanesInOrder .wraps ∧ h.Placed := by
    refine run_keeps (P := fun h => h.broker.Shaped ∧ h.LanesInOrder .wraps ∧ h.Placed) ?_
      ⟨Broker.shaped_new lanes, lanesInOrder_new .wraps lanes,
        fun _ _ hd => absurd hd List.not_mem_nil⟩ ops
    rintro h h' hmove ⟨hs, ho, hp⟩
    exact ⟨hmove.shaped hs, ho.move hs hmove, hp.move hs hmove⟩
  generalize (new lanes).run ops = h at *
  refine ⟨hlanes.exists_stays hlt, fun name i => (hlanes name i).alternate, fun name key => ?_⟩
  obtain ⟨stays, gone, hturns, hgone, hexact, -⟩ :=
    hlanes.exists_stays hlt name (laneOf key h.broker.lanes).toNat
  have hfirsts :
      ((stays.flatMap Stay.deliveries).filter (·.count = 1)).map Delivery.letter = gone :=
    Stay.filter_flatMap_deliveries hexact
  rw [hplaced.firstDeliveries_eq, arrivalsOn_key_eq, hturns, Stay.deliveries_flatMap_turns]
  have hprefix := hgone.filter (fun x : Letter => decide (x.key = key))
  rw [← hfirsts, List.filter_map] at hprefix
  exact hprefix

/-- One message is put back and goes out once more before another of its key. -/
theorem run_ordered_requeue :
    let d : Delivery := ⟨1, "transactions", "7", 0, ⟨#[]⟩, 1, default⟩
    let ops : List Operation := [.publish default "transactions" "7" ⟨#[1]⟩,
      .publish default "transactions" "7" ⟨#[2]⟩, .receive "transactions", .settle d .requeue,
      .receive "transactions", .settle d .acknowledge, .receive "transactions"]
    (∀ name x, (((new 1).run ops).deliveriesOn name).countP (fun d => d.letter = x) < 2 ^ 32) ∧
      ((new 1).run ops).Ordered := by
  intro d ops
  have hlt (name : String) (x : Letter) :
      (((new 1).run ops).deliveriesOn name).countP (fun d => d.letter = x) < 2 ^ 32 := by
    have hcount := ((new 1).run ops).length_deliveriesOn_le name
    have hpast := (new 1).length_past_run_le ops
    have hnone : (new 1).past.length + ops.length = 7 := rfl
    exact Nat.lt_of_le_of_lt List.countP_le_length (by omega)
  exact ⟨hlt, run_ordered 1 ops hlt⟩

end History

end SpendingLedger
