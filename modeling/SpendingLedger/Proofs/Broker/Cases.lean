import SpendingLedger.Proofs.Broker.Service

/-!
What is handled at a lane falls into cases, one for each stay: the trials of a message, one for each
time that it went out. All of them but the last sent it back, and what became of it in the end is
what the last demands.
-/

namespace SpendingLedger

/-! ### Settlements of a stay -/

def Turn.settlements : Turn → List Settlement
  | .out _ => []
  | .back how => [how]

namespace Stay

variable {s : Stay} {x : Letter}

def settlements (s : Stay) : List Settlement :=
  s.again.map (fun _ => .requeue) ++ s.settlement.toList

/-- The letter, if the message was given up in the end. -/
def setAside (s : Stay) : List Letter :=
  s.settlement.toList.flatMap (·.setAsideOf s.first.letter)

theorem settlements_turns (s : Stay) : s.turns.flatMap Turn.settlements = s.settlements := by
  have hagain (ds : List Delivery) :
      (ds.flatMap (fun d => [Turn.back .requeue, .out d])).flatMap Turn.settlements =
        ds.map (fun _ => .requeue) := by
    induction ds with
    | nil => rfl
    | cons d rest ih => simpa [List.flatMap_append, Turn.settlements] using ih
  rw [turns, List.flatMap_append, List.flatMap_cons, hagain, settlements]
  cases s.settlement <;> simp [Turn.settlements]

theorem length_turns (s : Stay) :
    s.turns.length = s.deliveries.length + s.settlements.length := by
  have hagain (ds : List Delivery) :
      (ds.flatMap (fun d => [Turn.back .requeue, .out d])).length = ds.length + ds.length := by
    induction ds with
    | nil => rfl
    | cons d rest ih =>
      rw [List.flatMap_cons, List.length_append, ih]
      simp only [List.length_cons, List.length_nil]
      omega
  simp only [turns, deliveries, settlements, List.length_append, List.length_cons, List.length_map,
    hagain]
  omega

theorem length_settlements (s : Stay) :
    s.settlements.length = s.again.length + s.settlement.toList.length := by
  rw [settlements, List.length_append, List.length_map]

end Stay

/-! ### Rounds -/

namespace Trial

variable {p : RetryPolicy}

theorem deliveries_rounds (ts : List Trial) :
    (ts.flatMap (·.round p)).flatMap Turn.deliveries = ts.map (·.delivery) := by
  induction ts with
  | nil => rfl
  | cons t rest ih =>
    rw [List.flatMap_cons, List.flatMap_append, ih]
    rfl

theorem settlements_rounds (ts : List Trial) :
    (ts.flatMap (·.round p)).flatMap Turn.settlements = ts.map (·.settlement p) := by
  induction ts with
  | nil => rfl
  | cons t rest ih =>
    rw [List.flatMap_cons, List.flatMap_append, ih]
    rfl

theorem length_rounds (ts : List Trial) :
    (ts.flatMap (·.round p)).length = ts.length + ts.length := by
  induction ts with
  | nil => rfl
  | cons t rest ih =>
    rw [List.flatMap_cons, List.length_append, ih]
    simp only [round, List.length_cons, List.length_nil]
    omega

/-- Rounds with at most one turn after them split where the number of turns is even. -/
theorem rounds_split {ts : List Trial} {tail first rest : List Turn} {k : Nat}
    (h : first ++ rest = ts.flatMap (·.round p) ++ tail) (hfirst : first.length = k + k)
    (htail : tail.length ≤ 1) :
    ∃ mine others, ts = mine ++ others ∧ first = mine.flatMap (·.round p) ∧
      rest = others.flatMap (·.round p) ++ tail := by
  have hlength := congrArg List.length h
  rw [List.length_append, List.length_append, length_rounds] at hlength
  have hk : k ≤ ts.length := by omega
  rw [← List.take_append_drop k ts, List.flatMap_append, List.append_assoc] at h
  have hinj := List.append_inj h (by rw [length_rounds, List.length_take_of_le hk, hfirst])
  exact ⟨ts.take k, ts.drop k, (List.take_append_drop ..).symm, hinj.1, hinj.2⟩

end Trial

/-! ### Cases -/

/-- The stay of a message, and the trials it was put to. -/
structure Case where
  stay : Stay
  trials : List Trial

/-- The deliveries are handled one after the other, and settled as the policy demands. -/
structure Case.Under (p : RetryPolicy) (c : Case) (x : Letter) : Prop where
  of : c.stay.Of x
  deliveries : c.trials.map (·.delivery) <+: c.stay.deliveries
  settlements : c.stay.settlements <+: c.trials.map (·.settlement p)

/-- What is given up in trials is given up in the end. -/
theorem Stay.setAside_eq {p : RetryPolicy} {s : Stay} {x : Letter} (hs : s.Of x)
    {ts : List Trial} (hdeliveries : ts.map (·.delivery) <+: s.deliveries)
    (hsettlements : s.settlements = ts.map (·.settlement p)) :
    ts.flatMap (·.setAside p) = s.setAside := by
  have hletter : ∀ t ∈ ts, t.delivery.letter = x := fun t ht =>
    hs.letter_eq _ (hdeliveries.subset (List.mem_map_of_mem ht))
  calc ts.flatMap (·.setAside p)
    _ = ts.flatMap (fun t => (t.settlement p).setAsideOf x) :=
      List.flatMap_congr fun t ht => by rw [Trial.setAside, hletter t ht]
    _ = (ts.map (·.settlement p)).flatMap (·.setAsideOf x) := by rw [List.flatMap_map]
    _ = s.settlements.flatMap (·.setAsideOf x) := by rw [hsettlements]
    _ = s.setAside := by
      have hnil : s.again.flatMap (fun _ => Settlement.setAsideOf x .requeue) = [] :=
        List.flatMap_eq_nil_iff.2 fun _ _ => rfl
      rw [settlements, List.flatMap_append, setAside, hs.letter_eq s.first List.mem_cons_self,
        List.flatMap_map, hnil, List.nil_append]

namespace Lane.Attended

variable {p : RetryPolicy} {turns : List Turn} {setAside : List Letter}
  {trials judged : List Trial} {held : List Delivery} {s : Stay} {x : Letter}

/-- After all rounds comes at most one turn more, and other rounds could stand before it. -/
theorem exists_settled (h : Attended p turns setAside trials judged held) :
    ∃ settled tail, turns = settled.flatMap (·.round p) ++ tail ∧ tail.length ≤ 1 ∧
      setAside = settled.flatMap (·.setAside p) ∧ trials = settled ++ judged ∧
      ∀ others : List Trial, Attended p (others.flatMap (·.round p) ++ tail)
        (others.flatMap (·.setAside p)) (others ++ judged) judged held := by
  cases h with
  | idle =>
    refine ⟨trials, [], (List.append_nil _).symm, Nat.zero_le _, rfl, (List.append_nil _).symm,
      fun others => ?_⟩
    rw [List.append_nil, List.append_nil]
    exact .idle others
  | held _ d =>
    refine ⟨trials, [.out d], rfl, Nat.le_refl _, rfl, (List.append_nil _).symm, fun others => ?_⟩
    rw [List.append_nil]
    exact .held others d
  | judged settled t => exact ⟨settled, [.out t.delivery], rfl, Nat.le_refl _, rfl, rfl,
      fun others => .judged others t⟩

/-- A stay whose last delivery is settled takes its trials from the front. -/
theorem split {more : List Turn} (h : Attended p (s.turns ++ more) setAside trials judged held)
    (hs : s.Of x) (hsettled : s.settlement ≠ none) :
    ∃ mine trials' setAside', trials = mine ++ trials' ∧ setAside = s.setAside ++ setAside' ∧
      Case.Under p ⟨s, mine⟩ x ∧ Attended p more setAside' trials' judged held := by
  have hlength : s.turns.length = s.deliveries.length + s.deliveries.length := by
    obtain ⟨how, hhow⟩ := Option.ne_none_iff_exists'.1 hsettled
    rw [s.length_turns, s.length_settlements, hhow, Stay.deliveries]
    rfl
  obtain ⟨settled, tail, hturns, htail, rfl, rfl, hothers⟩ := h.exists_settled
  obtain ⟨mine, others, rfl, hmine, rfl⟩ := Trial.rounds_split hturns hlength htail
  have hdeliveries : s.deliveries = mine.map (·.delivery) := by
    rw [← s.deliveries_turns, hmine, Trial.deliveries_rounds]
  have hsettlements : s.settlements = mine.map (·.settlement p) := by
    rw [← s.settlements_turns, hmine, Trial.settlements_rounds]
  have hprefix : mine.map (·.delivery) <+: s.deliveries := hdeliveries ▸ List.prefix_rfl
  refine ⟨mine, others ++ judged, others.flatMap (·.setAside p), List.append_assoc .., ?_,
    ⟨hs, hprefix, hsettlements ▸ List.prefix_rfl⟩, hothers others⟩
  rw [List.flatMap_append, Stay.setAside_eq hs hprefix hsettlements]

/-- A stay whose last delivery is not settled comes last. -/
theorem last (h : Attended p s.turns setAside trials judged held) (hs : s.Of x)
    (hopen : s.settlement = none) :
    Case.Under p ⟨s, trials⟩ x ∧ setAside = s.setAside ∧
      ∃ d ∈ s.deliveries, d ∈ held ∨ ∃ v, ⟨d, v⟩ ∈ judged := by
  -- all that was settled, and the delivery that went out last
  have hrounds {ts : List Trial} {d : Delivery}
      (hts : s.turns = ts.flatMap (·.round p) ++ [.out d]) :
      s.deliveries = ts.map (·.delivery) ++ [d] ∧ s.settlements = ts.map (·.settlement p) ∧
        ts.flatMap (·.setAside p) = s.setAside := by
    have hdeliveries : s.deliveries = ts.map (·.delivery) ++ [d] := by
      rw [← s.deliveries_turns, hts, List.flatMap_append, Trial.deliveries_rounds]
      rfl
    have hsettlements : s.settlements = ts.map (·.settlement p) := by
      rw [← s.settlements_turns, hts, List.flatMap_append, Trial.settlements_rounds]
      exact List.append_nil _
    exact ⟨hdeliveries, hsettlements,
      Stay.setAside_eq hs (hdeliveries ▸ List.prefix_append ..) hsettlements⟩
  generalize hturns : s.turns = turns at h
  cases h with
  | idle =>
    have hlength := congrArg List.length hturns
    rw [s.length_turns, s.length_settlements, hopen, Stay.deliveries, List.length_cons,
      Trial.length_rounds, Option.toList_none, List.length_nil] at hlength
    omega
  | held _ d =>
    obtain ⟨hdeliveries, hsettlements, hsetAside⟩ := hrounds hturns
    refine ⟨⟨hs, hdeliveries ▸ List.prefix_append .., hsettlements ▸ List.prefix_rfl⟩, hsetAside, d,
      ?_, .inl List.mem_cons_self⟩
    rw [hdeliveries]
    exact List.mem_concat_self
  | judged settled t =>
    obtain ⟨hdeliveries, hsettlements, hsetAside⟩ := hrounds hturns
    have hall : (settled ++ [t]).map (·.delivery) = s.deliveries := by
      rw [List.map_append, List.map_singleton, hdeliveries]
    refine ⟨⟨hs, hall ▸ List.prefix_rfl, ?_⟩, hsetAside, t.delivery, ?_,
      .inr ⟨t.verdict, List.mem_cons_self⟩⟩
    · rw [List.map_append, ← hsettlements]
      exact List.prefix_append ..
    · rw [hdeliveries]
      exact List.mem_concat_self

/-- What is handled at a lane falls into cases, one for each stay. -/
theorem exists_cases {stays : List Stay} {gone : List Letter}
    (h : Attended p (stays.flatMap Stay.turns) setAside trials judged held)
    (hof : List.Forall₂ Stay.Of stays gone) (hover : ∀ s ∈ stays.dropLast, s.IsOver) :
    ∃ cases : List Case, cases.map (·.stay) = stays ∧ List.Forall₂ (Case.Under p) cases gone ∧
      trials = cases.flatMap (·.trials) ∧ setAside = cases.flatMap (·.stay.setAside) ∧
      ∀ c ∈ cases, c.stay.settlement = none →
        ∃ d ∈ c.stay.deliveries, d ∈ held ∨ ∃ v, ⟨d, v⟩ ∈ judged := by
  induction hof generalizing setAside trials with
  | nil =>
    obtain ⟨rfl, rfl⟩ : trials = [] ∧ setAside = [] := by
      generalize hturns : [].flatMap Stay.turns = turns at h
      cases h with
      | idle =>
        have hlength := congrArg List.length hturns
        rw [Trial.length_rounds] at hlength
        obtain rfl := List.eq_nil_of_length_eq_zero (l := trials) (by simp at hlength; omega)
        exact ⟨rfl, rfl⟩
      | held | judged => simp at hturns
    exact ⟨[], rfl, .nil, rfl, rfl, fun _ hc => absurd hc List.not_mem_nil⟩
  | @cons s x stays gone hs hrest ih =>
    by_cases hopen : s.settlement = none
    · -- nothing follows a stay that is not over
      cases hrest with
      | cons =>
        obtain ⟨how, hhow, -⟩ := hover s List.mem_cons_self
        rw [hopen] at hhow
        cases hhow
      | nil =>
        rw [List.flatMap_singleton] at h
        obtain ⟨hunder, hsetAside, hheld⟩ := h.last hs hopen
        refine ⟨[⟨s, trials⟩], rfl, .cons hunder .nil, ?_, ?_, ?_⟩
        · rw [List.flatMap_singleton]
        · rw [List.flatMap_singleton, hsetAside]
        · intro c hc _
          obtain rfl := List.mem_singleton.1 hc
          exact hheld
    · rw [List.flatMap_cons] at h
      obtain ⟨mine, trials, setAside, rfl, rfl, hunder, h⟩ := h.split hs hopen
      have hover' : ∀ s ∈ stays.dropLast, s.IsOver := by
        cases hrest with
        | nil => exact fun _ hs => absurd hs List.not_mem_nil
        | cons => exact fun s' hs' => hover s' (List.mem_cons_of_mem _ hs')
      obtain ⟨cases, rfl, hunders, rfl, rfl, hheld⟩ := ih h hover'
      refine ⟨⟨s, mine⟩ :: cases, rfl, .cons hunder hunders, rfl, rfl, ?_⟩
      intro c hc hnone
      rcases List.mem_cons.1 hc with rfl | hc
      · exact absurd hnone hopen
      · exact hheld c hc hnone

end Lane.Attended

end SpendingLedger
