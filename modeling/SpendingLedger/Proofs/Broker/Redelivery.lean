import SpendingLedger.Proofs.Broker.Cases

/-!
How often a message is handled, and what becomes of it. A case goes on as long as handling fails for
the time being and the policy allows another delivery; it ends with the first success, the first
failure for good, or the last failure that is allowed. What is given up goes to a channel of its
own, where its deliveries are counted afresh.
-/

namespace SpendingLedger

/-! ### Verdicts and settlements -/

@[simp]
def Verdict.IsTransient (v : Verdict) : Prop := ∃ reason, v = .transient reason

@[simp]
def Verdict.IsPermanent (v : Verdict) : Prop := ∃ reason, v = .permanent reason

@[simp]
def Settlement.IsSetAside (how : Settlement) : Prop := ∃ reason, how = .setAside reason

/-- How a message is settled whose `k`th handling came to the verdict, if no more than `limit` are
allowed. -/
structure Verdict.Settles (limit : Option Nat) (k : Nat) (v : Verdict) (how : Settlement) :
    Prop where
  acknowledge_iff : how = .acknowledge ↔ v = .done
  setAside_iff : how.IsSetAside ↔ v.IsPermanent ∨ v.IsTransient ∧ limit = some k
  requeue_iff : how = .requeue ↔ v.IsTransient ∧ limit ≠ some k

namespace RetryPolicy

variable {p : RetryPolicy}

theorem settles_settlement {limit : Option Nat} {k : Nat} {count : UInt32}
    (h : p.IsExhausted count ↔ limit = some k) (v : Verdict) :
    v.Settles limit k (p.settlement count v) := by
  cases v with
  | done | permanent => constructor <;> simp [settlement]
  | transient reason =>
    by_cases hexhausted : p.IsExhausted count
    · constructor <;> simp [settlement, hexhausted, h.1 hexhausted]
    · constructor <;> simp [settlement, hexhausted, mt h.2 hexhausted]

/-- Only a transient failure sends a message back, and only before the limit. -/
theorem of_settlement_eq_requeue {count : UInt32} {v : Verdict}
    (h : p.settlement count v = .requeue) : v.IsTransient ∧ ¬ p.IsExhausted count := by
  cases v with
  | done | permanent => cases h
  | transient reason =>
    refine ⟨⟨reason, rfl⟩, fun hexhausted => ?_⟩
    rw [settlement, if_pos hexhausted] at h
    cases h

end RetryPolicy

/-! ### One case -/

/-- What becomes of a message of which no more than `limit` deliveries are handled. -/
structure Case.Within (limit : Option Nat) (c : Case) (x : Letter) : Prop where
  of : c.stay.Of x
  /-- With a limit, the count of a delivery never comes round. -/
  exactly : limit ≠ none → c.stay.Exactly x
  /-- Deliveries are handled one after the other, each of them once. -/
  deliveries : c.trials.map (·.delivery) <+: c.stay.deliveries
  length_le : ∀ n, limit = some n → c.trials.length ≤ n
  /-- The message has gone out again after transient failures only. -/
  again : c.stay.again.length ≤ c.trials.length ∧
    ∀ t ∈ c.trials.take c.stay.again.length, t.verdict.IsTransient
  /-- The last delivery is settled as its handling demands. -/
  settled : ∀ how, c.stay.settlement = some how → ∃ t, c.trials.getLast? = some t ∧
    c.trials.length = c.stay.deliveries.length ∧ t.verdict.Settles limit c.trials.length how

namespace Case.Under

variable {p : RetryPolicy} {c : Case} {x : Letter}

theorem length_le (h : c.Under p x) : c.trials.length ≤ c.stay.deliveries.length := by
  have := h.deliveries.length_le
  rwa [List.length_map] at this

theorem count_eq (h : c.Under p x) {k : Nat} {t : Trial} (ht : c.trials[k]? = some t) :
    t.delivery.count = UInt32.ofNat (k + 1) := by
  obtain ⟨hk, rfl⟩ := List.getElem?_eq_some_iff.1 ht
  have hd := List.prefix_iff_getElem?.1 h.deliveries k (by rwa [List.length_map])
  have hcount := congrArg (·[k]?) h.of.count_eq
  simp only [List.getElem?_map, hd, Option.map_some, List.getElem_map] at hcount
  rw [List.getElem?_range' (Nat.lt_of_lt_of_le hk h.length_le)] at hcount
  rw [Option.some.inj hcount, Nat.one_mul, Nat.add_comm]

/-- The trial behind a settlement. -/
theorem exists_trial (h : c.Under p x) {k : Nat} {how : Settlement}
    (hk : c.stay.settlements[k]? = some how) : ∃ t, c.trials[k]? = some t ∧
      p.settlement (UInt32.ofNat (k + 1)) t.verdict = how := by
  obtain ⟨hlt, rfl⟩ := List.getElem?_eq_some_iff.1 hk
  have hmap := List.prefix_iff_getElem?.1 h.settlements k hlt
  rw [List.getElem?_map, Option.map_eq_some_iff] at hmap
  obtain ⟨t, ht, hsettlement⟩ := hmap
  exact ⟨t, ht, by rw [← hsettlement, Trial.settlement, h.count_eq ht]⟩

/-- A message that goes out again failed for the time being, before the limit. -/
theorem exists_transient (h : c.Under p x) {k : Nat} (hk : k < c.stay.again.length) :
    ∃ t, c.trials[k]? = some t ∧ t.verdict.IsTransient ∧
      ¬ p.IsExhausted (UInt32.ofNat (k + 1)) := by
  have hrequeue : c.stay.settlements[k]? = some .requeue := by
    rw [Stay.settlements, List.getElem?_append_left (by rwa [List.length_map]),
      List.getElem?_map, List.getElem?_eq_getElem hk, Option.map_some]
  obtain ⟨t, ht, hsettlement⟩ := h.exists_trial hrequeue
  exact ⟨t, ht, RetryPolicy.of_settlement_eq_requeue hsettlement⟩

/-- A bound that is at least one is one on the deliveries. -/
theorem length_again_lt (h : c.Under p x) {n : UInt32} (hn : p.limit = some n)
    (hpos : 0 < n.toNat) : c.stay.again.length < n.toNat := by
  by_contra hlt
  obtain ⟨t, -, -, hexhausted⟩ := h.exists_transient (k := n.toNat - 1) (by omega)
  rw [Nat.sub_add_cancel hpos, UInt32.ofNat_toNat, RetryPolicy.IsExhausted, hn] at hexhausted
  exact hexhausted (UInt32.le_refl n)

theorem length_again_le (h : c.Under p x) : c.stay.again.length ≤ c.trials.length := by
  have hle := h.settlements.length_le
  rw [List.length_map, Stay.length_settlements] at hle
  omega

theorem transient (h : c.Under p x) :
    ∀ t ∈ c.trials.take c.stay.again.length, t.verdict.IsTransient := by
  intro t ht
  obtain ⟨k, hk, hget⟩ := List.mem_take_iff_getElem.1 ht
  obtain ⟨t', ht', htransient, -⟩ := h.exists_transient (k := k) (by omega)
  rw [List.getElem?_eq_getElem (by omega), hget] at ht'
  obtain rfl := Option.some.inj ht'
  exact htransient

/-- When the last delivery is settled, all were handled. -/
theorem exists_last (h : c.Under p x) {how : Settlement} (hhow : c.stay.settlement = some how) :
    ∃ t, c.trials.getLast? = some t ∧ c.trials.length = c.stay.deliveries.length ∧
      p.settlement (UInt32.ofNat c.trials.length) t.verdict = how := by
  have hlast : c.stay.settlements[c.stay.again.length]? = some how := by
    rw [Stay.settlements, hhow, List.getElem?_append_right (by simp)]
    simp
  obtain ⟨t, ht, hsettlement⟩ := h.exists_trial hlast
  have hlength : c.trials.length = c.stay.again.length + 1 := by
    have hle := h.length_le
    have hlt := (List.getElem?_eq_some_iff.1 ht).1
    rw [Stay.deliveries, List.length_cons] at hle
    omega
  refine ⟨t, ?_, hlength, by rw [hlength, hsettlement]⟩
  rw [List.getLast?_eq_getElem?, hlength, Nat.add_sub_cancel, ht]

theorem within_unbounded (h : c.Under .unbounded x) : c.Within none x where
  of := h.of
  exactly hne := absurd rfl hne
  deliveries := h.deliveries
  length_le := nofun
  again := ⟨h.length_again_le, h.transient⟩
  settled how hhow := by
    obtain ⟨t, hlast, hlength, rfl⟩ := h.exists_last hhow
    have hnever : RetryPolicy.unbounded.IsExhausted (UInt32.ofNat c.trials.length) ↔
        none = some c.trials.length := ⟨False.elim, fun heq => by cases heq⟩
    exact ⟨t, hlast, hlength, RetryPolicy.settles_settlement hnever t.verdict⟩

theorem within_bounded {n : UInt32} (h : c.Under (.bounded n) x) :
    c.Within (some (max n.toNat 1)) x := by
  have hmax : (max n 1).toNat = max n.toNat 1 := Broker.toNat_max_one n
  have hagain := h.length_again_lt rfl (by rw [hmax]; omega)
  have hdeliveries : c.stay.deliveries.length ≤ (max n 1).toNat := hagain
  have htrials := h.length_le
  have hlt : c.stay.deliveries.length < 2 ^ 32 :=
    Nat.lt_of_le_of_lt hdeliveries (max n 1).toNat_lt
  rw [← hmax]
  exact {
    of := h.of
    exactly _ := h.of.exactly hlt
    deliveries := h.deliveries
    length_le := by
      rintro _ ⟨⟩
      omega
    again := ⟨h.length_again_le, h.transient⟩
    settled how hhow := by
      obtain ⟨t, hlast, hlength, rfl⟩ := h.exists_last hhow
      refine ⟨t, hlast, hlength, RetryPolicy.settles_settlement ?_ t.verdict⟩
      have hcount : (UInt32.ofNat c.trials.length).toNat = c.trials.length :=
        UInt32.toNat_ofNat_of_lt' (Nat.lt_of_le_of_lt htrials hlt)
      show max n 1 ≤ UInt32.ofNat c.trials.length ↔ _
      rw [UInt32.le_iff_toNat_le, hcount, Option.some.injEq]
      omega }

end Case.Under

/-! ### All cases of a lane -/

theorem Stay.setAside_sublist {s : Stay} {x : Letter} (hs : s.Of x) : s.setAside.Sublist [x] := by
  rw [setAside, hs.letter_eq s.first List.mem_cons_self]
  rcases s.settlement with _ | how
  · exact List.nil_sublist _
  · cases how with
    | acknowledge | requeue => exact List.nil_sublist _
    | setAside reason => exact .refl _

theorem Stay.Of.count_first {s : Stay} {x : Letter} (hs : s.Of x) : s.first.count = 1 := by
  have hcount := hs.count_eq
  rw [deliveries, List.map_cons, List.length_cons, List.range'_succ, List.map_cons] at hcount
  exact (List.cons.inj hcount).1

theorem Stay.count_first {stays : List Stay} {gone : List Letter}
    (h : List.Forall₂ Stay.Of stays gone) : ∀ s ∈ stays, s.first.count = 1 := by
  induction h with
  | nil => exact fun _ hs => absurd hs List.not_mem_nil
  | cons hs _ ih =>
    intro s' hs'
    rcases List.mem_cons.1 hs' with rfl | hs'
    · exact hs.count_first
    · exact ih s' hs'

/-- What consumers did at lane `i`, case by case. -/
structure Service.Record (s : Service) (limit : Option Nat) (i : Nat) (cases : List Case)
    (gone : List Letter) : Prop where
  turns_eq : s.history.turnsAt s.channel i = cases.flatMap (·.stay.turns)
  /-- There is one case for each message, in the order in which they came and none left out. -/
  gone_prefix : gone <+: s.history.arrivalsAt s.channel i
  within : List.Forall₂ (Case.Within limit) cases gone
  trials_eq : s.trialsAt i = cases.flatMap (·.trials)
  setAside_eq : s.history.setAsideAt s.channel i = cases.flatMap (·.stay.setAside)
  isOver : ∀ c ∈ cases.dropLast, c.stay.IsOver
  /-- What is not settled is in the hands of a consumer. -/
  underway : ∀ c ∈ cases, c.stay.settlement = none →
    ∃ d ∈ c.stay.deliveries, d ∈ s.held ∨ ∃ v, ⟨d, v⟩ ∈ s.judged

/-- What becomes of the messages of a channel of which no more than `limit` deliveries are
handled. -/
structure Service.Limited (s : Service) (limit : Option Nat) : Prop where
  lanes : ∀ i, ∃ cases gone, s.Record limit i cases gone
  /-- What is given up comes to the other channel as it is, in the order in which it came here. -/
  setAside : ∀ i, (s.history.setAsideAt s.channel i).Sublist (s.history.arrivalsAt s.channel i) ∧
    (s.history.setAsideAt s.channel i).Sublist
      (s.history.arrivalsAt (setAsideChannel s.channel) i)
  /-- If nothing is given up to this channel, that is the order in which it was published. -/
  publishOrder : (∀ name, setAsideChannel name ≠ s.channel) →
    ∀ i, (s.history.setAsideAt s.channel i).Sublist (s.history.publishedOn s.channel)
  /-- The deliveries of the other channel are counted from one. -/
  afresh : ∀ i, ∃ stays gone,
    s.history.turnsAt (setAsideChannel s.channel) i = stays.flatMap Stay.turns ∧
      gone <+: s.history.arrivalsAt (setAsideChannel s.channel) i ∧
      List.Forall₂ Stay.Of stays gone ∧ ∀ stay ∈ stays, stay.first.count = 1
  /-- No message is handled more often than the limit allows. -/
  countP_trials_le : s.history.numbers < 2 ^ 63 → ∀ n, limit = some n →
    ∀ x, s.trials.countP (·.delivery.letter = x) ≤ n

namespace Service

variable {s : Service} {limit : Option Nat} {i : Nat} {cases : List Case} {gone : List Letter}

theorem Attended.exists_record (hs : s.Attended)
    (hwithin : ∀ c x, Case.Under s.policy c x → c.Within limit x) (i : Nat) :
    ∃ cases gone, s.Record limit i cases gone := by
  obtain ⟨stays, gone, hturns, hgone, hof, hover⟩ :=
    (hs.sound.inOrder s.channel i).follows.exists_stays
  have hlane := hs.lanes i
  rw [hturns] at hlane
  obtain ⟨cases, rfl, hunder, htrials, hsetAside, hheld⟩ := hlane.exists_cases hof hover
  refine ⟨cases, gone, ?_, hgone, hunder.imp hwithin, htrials, hsetAside, ?_, ?_⟩
  · rw [hturns, List.flatMap_map]
  · intro c hc
    refine hover c.stay ?_
    rw [← List.map_dropLast]
    exact List.mem_map_of_mem hc
  · intro c hc hopen
    obtain ⟨d, hd, hheld | ⟨v, hjudged⟩⟩ := hheld c hc hopen
    · exact ⟨d, hd, .inl (List.mem_of_mem_filter hheld)⟩
    · exact ⟨d, hd, .inr ⟨v, List.mem_of_mem_filter hjudged⟩⟩

theorem setAside_sublist (h : List.Forall₂ (Case.Within limit) cases gone) :
    (cases.flatMap (·.stay.setAside)).Sublist gone := by
  induction h with
  | nil => exact .refl _
  | cons hc _ ih =>
    rw [List.flatMap_cons]
    exact (Stay.setAside_sublist hc.of).append ih

theorem Record.setAside_sublist (h : s.Record limit i cases gone) :
    (s.history.setAsideAt s.channel i).Sublist (s.history.arrivalsAt s.channel i) := by
  rw [h.setAside_eq]
  exact (Service.setAside_sublist h.within).trans h.gone_prefix.sublist

end Service

/-- What is given up on a lane comes to the same lane of the other channel. -/
theorem History.setAsideAt_sublist {h : History} {name : String} {i : Nat}
    (hlane : ∀ x ∈ h.setAsideAt name i,
      (laneOf x.key h.broker.lanes).toNat = i) :
    (h.setAsideAt name i).Sublist (h.arrivalsAt (setAsideChannel name) i) := by
  refine .flatMap_right _ fun o ho => ?_
  cases o with
  | publish | handOut => exact List.nil_sublist _
  | settle d x how =>
    rw [Occurrence.setAsideAt]
    split
    · next hat =>
      cases how with
      | acknowledge | requeue => exact List.nil_sublist _
      | setAside reason =>
        have hx : x ∈ h.setAsideAt name i :=
          List.mem_flatMap.2 ⟨_, ho, by simp [Occurrence.setAsideAt, hat, Settlement.setAsideOf]⟩
        rw [Occurrence.arrivalsAt, if_pos ⟨congrArg setAsideChannel hat.1, hlane x hx⟩]
        exact .refl _
    · exact List.nil_sublist _

namespace Service

variable {s : Service} {limit : Option Nat} {i : Nat} {cases : List Case} {gone : List Letter}

theorem countP_trials_le_mul {n : Nat} (h : List.Forall₂ (Case.Within (some n)) cases gone)
    (x : Letter) :
    (cases.flatMap (·.trials)).countP (·.delivery.letter = x) ≤ n * gone.count x := by
  induction h with
  | nil => exact Nat.zero_le _
  | @cons c y cases gone hc _ ih =>
    rw [List.flatMap_cons, List.countP_append, List.count_cons]
    have hletter : ∀ t ∈ c.trials, t.delivery.letter = y := fun t ht =>
      hc.of.letter_eq _ (hc.deliveries.subset (List.mem_map_of_mem ht))
    by_cases hxy : y = x
    · have hle : c.trials.countP (·.delivery.letter = x) ≤ n :=
        Nat.le_trans List.countP_le_length (hc.length_le n rfl)
      simp only [hxy, beq_self_eq_true, ↓reduceIte, Nat.mul_add, Nat.mul_one]
      omega
    · have hzero : c.trials.countP (·.delivery.letter = x) = 0 :=
        List.countP_eq_zero.2 fun t ht => by simp [hletter t ht, hxy]
      rw [hzero, Nat.zero_add]
      exact Nat.le_trans ih (Nat.mul_le_mul_left n (Nat.le_add_right ..))

theorem deliveries_sublist (h : List.Forall₂ (Case.Within limit) cases gone) :
    ((cases.flatMap (·.trials)).map (·.delivery)).Sublist
      ((cases.flatMap (·.stay.turns)).flatMap Turn.deliveries) := by
  induction h with
  | nil => exact .refl _
  | @cons c _ _ _ hc _ ih =>
    simp only [List.flatMap_cons, List.map_append, List.flatMap_append, c.stay.deliveries_turns]
    exact hc.deliveries.sublist.append ih

/-- What is handled at a lane was handed out from there. -/
theorem Record.mem_deliveriesOn (h : s.Record limit i cases gone) {t : Trial}
    (ht : t ∈ s.trialsAt i) : t.delivery ∈ s.history.deliveriesOn s.channel := by
  rw [h.trials_eq] at ht
  have hmem := (deliveries_sublist h.within).subset (List.mem_map_of_mem ht)
  rw [← h.turns_eq, History.deliveries_turnsAt] at hmem
  exact List.mem_of_mem_filter hmem

/-- Every message is handled at the lane of its key. -/
theorem countP_trials (hrecord : ∀ i, ∃ cases gone, s.Record limit i cases gone)
    (hplaced : s.history.Placed) (x : Letter) :
    s.trials.countP (·.delivery.letter = x) =
      (s.trialsAt (laneOf x.key s.history.broker.lanes).toNat).countP (·.delivery.letter = x) := by
  rw [trialsAt, List.countP_filter]
  refine List.countP_congr fun t ht => ?_
  obtain ⟨cases, gone, h⟩ := hrecord t.delivery.lane.toNat
  have hlane := hplaced s.channel t.delivery
    (h.mem_deliveriesOn (List.mem_filter.2 ⟨ht, by simp⟩))
  by_cases hx : t.delivery.letter = x
  · have hkey : t.delivery.key = x.key := congrArg Letter.key hx
    rw [hkey] at hlane
    simp [hx, hlane]
  · simp [hx]

/-! ### Runs -/

theorem step_fixed (s : Service) (a : Action) :
    (s.step a).channel = s.channel ∧ (s.step a).policy = s.policy := by
  cases a <;> rw [step] <;> split <;> exact ⟨rfl, rfl⟩

theorem run_fixed (s : Service) (actions : List Action) :
    (s.run actions).channel = s.channel ∧ (s.run actions).policy = s.policy := by
  induction actions generalizing s with
  | nil => exact ⟨rfl, rfl⟩
  | cons a rest ih =>
    obtain ⟨hchannel, hpolicy⟩ := ih (s.step a)
    exact ⟨hchannel.trans (s.step_fixed a).1, hpolicy.trans (s.step_fixed a).2⟩

theorem Attended.limited (hs : s.Attended)
    (hwithin : ∀ c x, Case.Under s.policy c x → c.Within limit x) : s.Limited limit := by
  have hrecord := hs.exists_record hwithin
  have hsublist : ∀ i,
      (s.history.setAsideAt s.channel i).Sublist (s.history.arrivalsAt s.channel i) := by
    intro i
    obtain ⟨cases, gone, h⟩ := hrecord i
    exact h.setAside_sublist
  refine ⟨hrecord, fun i => ⟨hsublist i, History.setAsideAt_sublist fun x hx => ?_⟩,
    fun hname i => ?_, fun i => ?_, fun hlt n hn x => ?_⟩
  · exact History.laneOf_of_mem_arrivalsAt ((hsublist i).subset hx)
  · rw [← s.history.arrivalsOn_eq_publishedOn hname]
    exact (hsublist i).trans (s.history.arrivalsAt_sublist ..)
  · obtain ⟨stays, gone, hturns, hgone, hof, -⟩ :=
      (hs.sound.inOrder (setAsideChannel s.channel) i).follows.exists_stays
    exact ⟨stays, gone, hturns, hgone, hof, Stay.count_first hof⟩
  · subst hn
    obtain ⟨cases, gone, h⟩ := hrecord (laneOf x.key s.history.broker.lanes).toNat
    have hone : gone.count x ≤ 1 :=
      calc gone.count x
        _ ≤ (s.history.arrivalsOn s.channel).count x :=
          (h.gone_prefix.sublist.trans (s.history.arrivalsAt_sublist ..)).count_le x
        _ ≤ 1 := hs.sound.count_arrivalsOn_le_one hlt s.channel x
    calc s.trials.countP (·.delivery.letter = x)
      _ = (cases.flatMap (·.trials)).countP (·.delivery.letter = x) := by
        rw [countP_trials hrecord hs.sound.placed, h.trials_eq]
      _ ≤ n * gone.count x := countP_trials_le_mul h.within x
      _ ≤ n * 1 := Nat.mul_le_mul_left n hone
      _ = n := Nat.mul_one n

theorem limited_run (lanes : UInt32) (channel : String) {policy : RetryPolicy}
    (hwithin : ∀ c x, Case.Under policy c x → c.Within limit x) (actions : List Action) :
    ((start lanes channel policy).run actions).Limited limit := by
  refine ((attended_start lanes channel policy).run actions).limited ?_
  rw [((start lanes channel policy).run_fixed actions).2]
  exact hwithin

/-- With a bound, a message is handled no more often than it says, a bound of zero counting as one.
Without a bound, a message is given up for no reason but a failure for good. -/
theorem run_limited (lanes : UInt32) (channel : String) (actions : List Action) :
    (∀ n, ((start lanes channel (.bounded n)).run actions).Limited (some (max n.toNat 1))) ∧
      ((start lanes channel .unbounded).run actions).Limited none :=
  ⟨fun _ => limited_run lanes channel (fun _ _ hc => hc.within_bounded) actions,
    limited_run lanes channel (fun _ _ hc => hc.within_unbounded) actions⟩

end Service

end SpendingLedger
