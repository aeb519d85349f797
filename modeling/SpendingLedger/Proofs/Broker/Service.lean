import SpendingLedger.RetryPolicy
import SpendingLedger.Proofs.Broker.Soundness

/-!
Consumers at work on a channel of a broker: any number of them, and in any order they receive, hand
what they received to a handler, and settle as its verdict and the policy on retries demand. Others
may publish on the channel, and do on all other channels as they please. A lane of the channel then
sees one round after the other: a delivery goes out, is handled, and comes back as its verdict says.
-/

namespace SpendingLedger

/-- Whether an operation receives from a channel or settles on it. -/
def Operation.serves (name : String) : Operation → Bool
  | .receive name' | .take name' => name' = name
  | .settle d _ => d.channel = name
  | _ => false

/-- Whether it is about a delivery of a channel. -/
def Occurrence.isOn (name : String) : Occurrence → Bool
  | .publish .. => false
  | .handOut d | .settle d _ _ => d.channel = name

/-- A delivery that was handed to the handler, and what came of it. -/
structure Trial where
  delivery : Delivery
  verdict : Verdict
deriving DecidableEq

/-- The letter, if it is given up. -/
def Settlement.setAsideOf (x : Letter) : Settlement → List Letter
  | .setAside _ => [x]
  | _ => []

namespace Trial

def settlement (p : RetryPolicy) (t : Trial) : Settlement :=
  p.settlement t.delivery.count t.verdict

/-- What a trial comes to at its lane. -/
def round (p : RetryPolicy) (t : Trial) : List Turn :=
  [.out t.delivery, .back (t.settlement p)]

def setAside (p : RetryPolicy) (t : Trial) : List Letter :=
  (t.settlement p).setAsideOf t.delivery.letter

end Trial

/-- The letter that is given up from lane `i` of a channel. -/
def Occurrence.setAsideAt (name : String) (i : Nat) : Occurrence → List Letter
  | .settle d x s => if d.channel = name ∧ d.lane.toNat = i then s.setAsideOf x else []
  | _ => []

def History.setAsideAt (h : History) (name : String) (i : Nat) : List Letter :=
  h.past.flatMap (·.setAsideAt name i)

/-- A channel whose messages are settled by consumers with one policy. -/
structure Service where
  history : History
  channel : String
  policy : RetryPolicy
  /-- What has been received and is not handled yet. -/
  held : List Delivery := []
  /-- What has been handled and is not settled yet. -/
  judged : List Trial := []
  /-- All that was ever handled, oldest first. -/
  trials : List Trial := []

namespace Service

inductive Action where
  /-- What others do. They neither receive from the channel nor settle on it. -/
  | other (op : Operation)
  | receive
  /-- The second half of receiving. -/
  | take
  /-- The consumer that holds a delivery has it handled. -/
  | handle (t : Trial)
  /-- The consumer that had it handled settles. -/
  | settle (t : Trial)

def step (s : Service) : Action → Service
  | .other op => if op.serves s.channel then s else { s with history := s.history.perform op }
  | .receive =>
    match s.history.broker.receive s.channel with
    | (.ok (some d), _) =>
      { s with history := s.history.perform (.receive s.channel), held := s.held ++ [d] }
    | _ => s
  | .take =>
    match s.history.broker.take s.channel with
    | (some d, _) =>
      { s with history := s.history.perform (.take s.channel), held := s.held ++ [d] }
    | (none, _) => s
  | .handle t =>
    if t.delivery ∈ s.held then
      { s with
        held := s.held.erase t.delivery
        judged := s.judged ++ [t]
        trials := s.trials ++ [t] }
    else s
  | .settle t =>
    if t ∈ s.judged then
      { s with
        history := s.history.perform (.settle t.delivery (t.settlement s.policy))
        judged := s.judged.erase t }
    else s

def run (s : Service) (actions : List Action) : Service := actions.foldl step s

def start (lanes : UInt32) (channel : String) (policy : RetryPolicy) : Service :=
  ⟨.new lanes, channel, policy, [], [], []⟩

def heldAt (s : Service) (i : Nat) : List Delivery := s.held.filter (·.lane.toNat = i)

def judgedAt (s : Service) (i : Nat) : List Trial := s.judged.filter (·.delivery.lane.toNat = i)

def trialsAt (s : Service) (i : Nat) : List Trial := s.trials.filter (·.delivery.lane.toNat = i)

theorem step_receive (s : Service) : s.step .receive = s ∨ s.step .receive = s.step .take := by
  simp only [step, Broker.receive, History.perform]
  cases s.history.broker.closed with
  | true => exact .inl rfl
  | false =>
    rcases s.history.broker.take s.channel with ⟨_ | d, b⟩ <;> exact .inr rfl

end Service

/-! ### Lanes -/

/-- What a lane has seen when its messages are settled by verdict: what happened, what was given up,
what was handled, what is handled and not settled yet, and what is held and not handled yet. -/
inductive Lane.Attended (p : RetryPolicy) :
    List Turn → List Letter → List Trial → List Trial → List Delivery → Prop
  | idle (settled : List Trial) :
    Attended p (settled.flatMap (·.round p)) (settled.flatMap (·.setAside p)) settled [] []
  | held (settled : List Trial) (d : Delivery) :
    Attended p (settled.flatMap (·.round p) ++ [.out d]) (settled.flatMap (·.setAside p)) settled
      [] [d]
  | judged (settled : List Trial) (t : Trial) :
    Attended p (settled.flatMap (·.round p) ++ [.out t.delivery])
      (settled.flatMap (·.setAside p)) (settled ++ [t]) [t] []

namespace Lane.Attended

variable {p : RetryPolicy} {turns : List Turn} {setAside : List Letter}
  {trials judged : List Trial} {held : List Delivery}

/-- What is handled and not settled yet went out last. -/
theorem getLast?_of_judged (h : Attended p turns setAside trials judged held) {t : Trial}
    (ht : t ∈ judged) : turns.getLast? = some (.out t.delivery) := by
  cases h with
  | idle | held => exact absurd ht List.not_mem_nil
  | judged settled t' =>
    obtain rfl := List.mem_singleton.1 ht
    rw [List.getLast?_concat]

theorem handOut (h : Attended p turns setAside trials judged held)
    (hin : ∀ d, turns.getLast? ≠ some (.out d)) (d : Delivery) :
    Attended p (turns ++ [.out d]) setAside trials judged (held ++ [d]) := by
  cases h with
  | idle => exact .held trials d
  | held | judged => exact absurd (List.getLast?_concat ..) (hin _)

theorem handle (h : Attended p turns setAside trials judged held) {t : Trial}
    (ht : t.delivery ∈ held) :
    Attended p turns setAside (trials ++ [t]) (judged ++ [t]) (held.erase t.delivery) := by
  cases h with
  | idle | judged => exact absurd ht List.not_mem_nil
  | held settled d =>
    obtain rfl := List.mem_singleton.1 ht
    rw [List.erase_cons_head]
    exact .judged trials t

theorem settle (h : Attended p turns setAside trials judged held) {t : Trial} (ht : t ∈ judged) :
    Attended p (turns ++ [.back (t.settlement p)]) (setAside ++ t.setAside p) trials
      (judged.erase t) held := by
  cases h with
  | idle | held => exact absurd ht List.not_mem_nil
  | judged settled t' =>
    obtain rfl := List.mem_singleton.1 ht
    have := idle (p := p) (settled ++ [t])
    rw [List.flatMap_append, List.flatMap_append, List.flatMap_singleton, List.flatMap_singleton,
      Trial.round, List.append_cons] at this
    rwa [List.erase_cons_head]

end Lane.Attended

namespace Service

/-- The broker is in order, and so is what the consumers of the channel do, lane by lane. -/
structure Attended (s : Service) : Prop where
  sound : s.history.Sound
  channel_held : ∀ d ∈ s.held, d.channel = s.channel
  channel_judged : ∀ t ∈ s.judged, t.delivery.channel = s.channel
  lanes : ∀ i, Lane.Attended s.policy (s.history.turnsAt s.channel i)
    (s.history.setAsideAt s.channel i) (s.trialsAt i) (s.judgedAt i) (s.heldAt i)

theorem attended_start (lanes : UInt32) (channel : String) (policy : RetryPolicy) :
    (start lanes channel policy).Attended where
  sound := History.sound_new lanes
  channel_held _ hd := absurd hd List.not_mem_nil
  channel_judged _ ht := absurd ht List.not_mem_nil
  lanes _ := .idle []

end Service

namespace History

variable {h h' : History}

/-- What does not happen at a lane leaves no trace there. -/
theorem lane_snoc {o : Occurrence} (hpast : h'.past = h.past ++ [o]) (name : String) (i : Nat)
    (hturns : o.turnsAt name i = []) (hsetAside : o.setAsideAt name i = []) :
    h'.turnsAt name i = h.turnsAt name i ∧ h'.setAsideAt name i = h.setAsideAt name i := by
  simp only [turnsAt, setAsideAt, hpast, List.flatMap_append, List.flatMap_singleton, hturns,
    hsetAside, List.append_nil, and_self]

theorem lane_handOut {d : Delivery} (hpast : h'.past = h.past ++ [.handOut d]) :
    h'.turnsAt d.channel d.lane.toNat = h.turnsAt d.channel d.lane.toNat ++ [.out d] ∧
      h'.setAsideAt d.channel d.lane.toNat = h.setAsideAt d.channel d.lane.toNat := by
  simp [turnsAt, setAsideAt, hpast, Occurrence.turnsAt, Occurrence.setAsideAt]

theorem lane_settle {d : Delivery} {x : Letter} {how : Settlement}
    (hpast : h'.past = h.past ++ [.settle d x how]) :
    h'.turnsAt d.channel d.lane.toNat = h.turnsAt d.channel d.lane.toNat ++ [.back how] ∧
      h'.setAsideAt d.channel d.lane.toNat =
        h.setAsideAt d.channel d.lane.toNat ++ how.setAsideOf x := by
  simp [turnsAt, setAsideAt, hpast, Occurrence.turnsAt, Occurrence.setAsideAt]

/-- What is taken is of that channel, and comes from a lane with nothing out. -/
theorem of_take_eq_some {name : String} {d : Delivery} {b : Broker}
    (htake : h.broker.take name = (some d, b)) :
    d.channel = name ∧ (h.perform (.take name)).past = h.past ++ [.handOut d] ∧
      (h.broker.Shaped → (h.broker.laneAt name d.lane.toNat).inFlight = none) := by
  rw [perform, htake]
  rcases h.broker.take_cases name with heq | ⟨i, m, queue, cursor, hi, hlane, heq⟩ <;>
    rw [heq] at htake
  · cases htake
  · obtain ⟨rfl, rfl⟩ : _ = d ∧ _ = b := by simpa using htake
    refine ⟨rfl, rfl, fun hs => ?_⟩
    show (h.broker.laneAt name (UInt32.ofNat i).toNat).inFlight = none
    rw [hs.toNat_ofNat_lane hi, hlane]

/-- What others do happens elsewhere. -/
theorem exists_past_perform (h : History) {name : String} {op : Operation}
    (hop : op.serves name = false) :
    ∃ news, (h.perform op).past = h.past ++ news ∧ ∀ o ∈ news, o.isOn name = false := by
  have hnothing {h' : History} (hpast : h'.past = h.past) :
      ∃ news, h'.past = h.past ++ news ∧ ∀ o ∈ news, o.isOn name = false :=
    ⟨[], by rw [hpast, List.append_nil], fun _ ho => absurd ho List.not_mem_nil⟩
  have hone {h' : History} {o : Occurrence} (hpast : h'.past = h.past ++ [o])
      (ho : o.isOn name = false) :
      ∃ news, h'.past = h.past ++ news ∧ ∀ o ∈ news, o.isOn name = false :=
    ⟨[o], hpast, by simpa using ho⟩
  have htake {name' : String} (hname : name' ≠ name) :
      ∃ news, (h.perform (.take name')).past = h.past ++ news ∧ ∀ o ∈ news, o.isOn name = false := by
    rcases htake : h.broker.take name' with ⟨_ | d, b⟩
    · exact hnothing (by rw [perform, htake])
    · obtain ⟨rfl, hpast, -⟩ := of_take_eq_some htake
      exact hone hpast (decide_eq_false hname)
  cases op with
  | publish now name' key payload =>
    rw [perform]
    split
    · exact hnothing rfl
    · exact hone rfl rfl
  | reserve =>
    rw [perform]
    split <;> exact hnothing rfl
  | post k now name' key payload =>
    rw [perform]
    split
    · exact hnothing rfl
    · exact hone rfl rfl
  | receive name' =>
    rcases h.perform_receive name' with heq | heq <;> rw [heq]
    · exact hnothing rfl
    · exact htake (of_decide_eq_false hop)
  | take name' => exact htake (of_decide_eq_false hop)
  | settle d s =>
    rw [perform]
    split
    · exact hone rfl hop
    · exact hnothing rfl
  | setUnreachable | close => exact hnothing rfl

/-- What happens elsewhere leaves no trace at a lane. -/
theorem lane_perform (h : History) {name : String} {op : Operation}
    (hop : op.serves name = false) (i : Nat) :
    (h.perform op).turnsAt name i = h.turnsAt name i ∧
      (h.perform op).setAsideAt name i = h.setAsideAt name i := by
  obtain ⟨news, hpast, hnews⟩ := h.exists_past_perform hop
  have hturns : news.flatMap (·.turnsAt name i) = [] := List.flatMap_eq_nil_iff.2 fun o ho => by
    have hon := hnews o ho
    cases o <;> simp_all [Occurrence.isOn, Occurrence.turnsAt]
  have hsetAside : news.flatMap (·.setAsideAt name i) = [] :=
    List.flatMap_eq_nil_iff.2 fun o ho => by
      have hon := hnews o ho
      cases o <;> simp_all [Occurrence.isOn, Occurrence.setAsideAt]
  rw [turnsAt, setAsideAt, hpast, List.flatMap_append, List.flatMap_append, hturns, hsetAside,
    List.append_nil, List.append_nil]
  exact ⟨rfl, rfl⟩

/-- Settling what is out is one more occurrence. -/
theorem past_perform_settle {h : History} {d : Delivery} {m : Message}
    (hm : (h.broker.laneAt d.channel d.lane.toNat).inFlight = some m) (hid : m.id = d.id)
    (how : Settlement) :
    (h.perform (.settle d how)).past = h.past ++ [.settle d m.letter how] := by
  obtain ⟨c, cursor, hout, hsettle⟩ := Broker.settle_of_inFlight hm hid how
  rw [perform, hout, hsettle]

end History

namespace Service

variable {s : Service}

theorem Attended.other (hs : s.Attended) (op : Operation) : (s.step (.other op)).Attended := by
  rw [step]
  split
  · exact hs
  · next hop =>
    refine ⟨hs.sound.perform op, hs.channel_held, hs.channel_judged, fun i => ?_⟩
    obtain ⟨hturns, hsetAside⟩ := s.history.lane_perform (Bool.not_eq_true _ ▸ hop) i
    show Lane.Attended s.policy ((s.history.perform op).turnsAt s.channel i)
      ((s.history.perform op).setAsideAt s.channel i) _ _ _
    rw [hturns, hsetAside]
    exact hs.lanes i

/-- From a lane that has nothing out a message can go out. -/
theorem Attended.handOut (hs : s.Attended) {i : Nat}
    (hnone : (s.history.broker.laneAt s.channel i).inFlight = none) (d : Delivery) :
    Lane.Attended s.policy (s.history.turnsAt s.channel i ++ [.out d])
      (s.history.setAsideAt s.channel i) (s.trialsAt i) (s.judgedAt i) (s.heldAt i ++ [d]) := by
  refine (hs.lanes i).handOut (fun d' hlast => ?_) d
  obtain ⟨m, hm, -⟩ := ((hs.sound.inOrder s.channel i).inFlight_iff d'.letter).2 ⟨d', hlast, rfl⟩
  rw [hnone] at hm
  cases hm

theorem Attended.take (hs : s.Attended) : (s.step .take).Attended := by
  rw [step]
  split
  · next d b htake =>
    obtain ⟨hchannel, hpast, hnone⟩ := History.of_take_eq_some htake
    refine ⟨hs.sound.perform (.take s.channel), fun d' hd' => ?_, hs.channel_judged, fun i => ?_⟩
    · rcases List.mem_append.1 hd' with hd' | hd'
      · exact hs.channel_held d' hd'
      · rw [List.mem_singleton.1 hd']
        exact hchannel
    · show Lane.Attended s.policy ((s.history.perform (.take s.channel)).turnsAt s.channel i)
        ((s.history.perform (.take s.channel)).setAsideAt s.channel i) _ _
        ((s.held ++ [d]).filter _)
      rw [List.filter_append]
      by_cases hi : d.lane.toNat = i
      · subst hi
        obtain ⟨hturns, hsetAside⟩ := History.lane_handOut hpast
        rw [hchannel] at hturns hsetAside
        rw [hturns, hsetAside, List.filter_cons_of_pos (by simp), List.filter_nil]
        exact hs.handOut (hnone hs.sound.shaped) d
      · obtain ⟨hturns, hsetAside⟩ :=
          History.lane_snoc hpast s.channel i (by simp [Occurrence.turnsAt, hi]) rfl
        rw [hturns, hsetAside, List.filter_cons_of_neg (by simpa using hi), List.filter_nil,
          List.append_nil]
        exact hs.lanes i
  · exact hs

theorem Attended.handle (hs : s.Attended) (t : Trial) : (s.step (.handle t)).Attended := by
  rw [step]
  split
  · next hheld =>
    refine ⟨hs.sound, fun d hd => hs.channel_held d (List.mem_of_mem_erase hd), ?_,
      fun i => ?_⟩
    · intro t' ht'
      rcases List.mem_append.1 ht' with ht' | ht'
      · exact hs.channel_judged t' ht'
      · obtain rfl := List.mem_singleton.1 ht'
        exact hs.channel_held _ hheld
    · show Lane.Attended s.policy (s.history.turnsAt s.channel i) (s.history.setAsideAt s.channel i)
        ((s.trials ++ [t]).filter _) ((s.judged ++ [t]).filter _)
        ((s.held.erase t.delivery).filter _)
      rw [List.filter_append, List.filter_append, ← List.erase_filter]
      by_cases hi : t.delivery.lane.toNat = i
      · have hmem : t.delivery ∈ s.heldAt i := List.mem_filter.2 ⟨hheld, by simpa using hi⟩
        have := (hs.lanes i).handle hmem
        rwa [List.filter_cons_of_pos (by simpa using hi), List.filter_nil]
      · have hmem : t.delivery ∉ s.heldAt i := fun hmem => hi (by simpa using List.of_mem_filter hmem)
        have herase : (s.heldAt i).erase t.delivery = s.heldAt i := List.erase_of_not_mem hmem
        rw [heldAt] at herase
        rw [List.filter_cons_of_neg (by simpa using hi), List.filter_nil, List.append_nil,
          List.append_nil, herase]
        exact hs.lanes i
  · exact hs

/-- What a consumer had handled is out. -/
theorem Attended.exists_inFlight (hs : s.Attended) {t : Trial} (ht : t ∈ s.judged) :
    ∃ m, (s.history.broker.laneAt s.channel t.delivery.lane.toNat).inFlight = some m ∧
      m.letter = t.delivery.letter := by
  have hlast := (hs.lanes t.delivery.lane.toNat).getLast?_of_judged
    (List.mem_filter.2 ⟨ht, by simp⟩)
  exact ((hs.sound.inOrder s.channel t.delivery.lane.toNat).inFlight_iff _).2 ⟨_, hlast, rfl⟩

/-- So it can settle. -/
theorem Attended.past_settle (hs : s.Attended) {t : Trial} (ht : t ∈ s.judged) :
    (s.history.perform (.settle t.delivery (t.settlement s.policy))).past =
      s.history.past ++ [.settle t.delivery t.delivery.letter (t.settlement s.policy)] := by
  obtain ⟨m, hm, hletter⟩ := hs.exists_inFlight ht
  rw [← hs.channel_judged t ht] at hm
  rw [History.past_perform_settle hm (congrArg Letter.id hletter), hletter]

theorem Attended.settle (hs : s.Attended) (t : Trial) : (s.step (.settle t)).Attended := by
  rw [step]
  split
  · next hjudged =>
    have hpast := hs.past_settle hjudged
    have hsound := hs.sound.perform (.settle t.delivery (t.settlement s.policy))
    refine ⟨hsound, hs.channel_held,
      fun t' ht' => hs.channel_judged t' (List.mem_of_mem_erase ht'), fun i => ?_⟩
    generalize s.history.perform (.settle t.delivery (t.settlement s.policy)) = h at hpast
    show Lane.Attended s.policy (h.turnsAt s.channel i) (h.setAsideAt s.channel i) _
      ((s.judged.erase t).filter _) _
    rw [← List.erase_filter]
    by_cases hi : t.delivery.lane.toNat = i
    · subst hi
      obtain ⟨hturns, hsetAside⟩ := History.lane_settle hpast
      rw [hs.channel_judged t hjudged] at hturns hsetAside
      rw [hturns, hsetAside]
      exact (hs.lanes _).settle (List.mem_filter.2 ⟨hjudged, by simp⟩)
    · obtain ⟨hturns, hsetAside⟩ := History.lane_snoc hpast s.channel i
        (by simp [Occurrence.turnsAt, hi]) (by simp [Occurrence.setAsideAt, hi])
      have hmem : t ∉ s.judgedAt i := fun hmem => hi (by simpa using List.of_mem_filter hmem)
      have herase : (s.judgedAt i).erase t = s.judgedAt i := List.erase_of_not_mem hmem
      rw [judgedAt] at herase
      rw [hturns, hsetAside, herase]
      exact hs.lanes i
  · exact hs

theorem Attended.step (hs : s.Attended) (a : Action) : (s.step a).Attended := by
  cases a with
  | other op => exact hs.other op
  | receive =>
    rcases s.step_receive with heq | heq <;> rw [heq]
    · exact hs
    · exact hs.take
  | take => exact hs.take
  | handle t => exact hs.handle t
  | settle t => exact hs.settle t

theorem Attended.run (hs : s.Attended) (actions : List Action) : (s.run actions).Attended := by
  induction actions generalizing s with
  | nil => exact hs
  | cons a rest ih => exact ih (hs.step a)

end Service

end SpendingLedger
