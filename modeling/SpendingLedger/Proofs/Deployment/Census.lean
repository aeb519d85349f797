import SpendingLedger.Proofs.Broker.Resettlement
import SpendingLedger.Proofs.Deployment.Draining
import SpendingLedger.Proofs.Statistics.Order

/-!
Consumers of a channel that count what they receive in the same statistics. There may be any number
of them, and they take turns in any order, mixed with what others do to the broker. What they have
handled once the channel is drained is all that came to it, each message once; so in which order
they were served makes no difference to the statistics.
-/

namespace SpendingLedger

/-! ### Letters that are done with -/

/-- What happens elsewhere is not settled here. -/
theorem History.settled_perform (h : History) {name : String} {op : Operation}
    (hop : op.serves name = false) :
    (h.perform op).acknowledgedOn name = h.acknowledgedOn name ∧
      (h.perform op).setAsideFrom name = h.setAsideFrom name := by
  obtain ⟨news, hpast, hnews⟩ := h.exists_past_perform hop
  have hnil : ∀ o ∈ news, o.acknowledgedOn name = [] ∧ o.setAsideFrom name = [] := by
    intro o ho
    have hon := hnews o ho
    cases o with
    | publish | handOut => exact ⟨rfl, rfl⟩
    | settle d x how =>
      have hname : d.channel ≠ name := of_decide_eq_false hon
      cases how <;> simp [Occurrence.acknowledgedOn, Occurrence.setAsideFrom, hname]
  have hacknowledged : news.flatMap (·.acknowledgedOn name) = [] :=
    List.flatMap_eq_nil_iff.2 fun o ho => (hnil o ho).1
  have hsetAside : news.flatMap (·.setAsideFrom name) = [] :=
    List.flatMap_eq_nil_iff.2 fun o ho => (hnil o ho).2
  rw [acknowledgedOn, setAsideFrom, hpast, List.flatMap_append, List.flatMap_append, hacknowledged,
    hsetAside, List.append_nil, List.append_nil]
  exact ⟨rfl, rfl⟩

namespace Service

/-- How often a letter was handled, and has been settled for good. -/
def handled (s : Service) (x : Letter) : Nat := (s.trials.map (·.delivery.letter)).count x

def settled (s : Service) (x : Letter) : Nat :=
  (s.history.acknowledgedOn s.channel).count x + (s.history.setAsideFrom s.channel).count x

/-- Nothing is put back: what is handled is settled for good, or about to be. -/
structure Conclusive (s : Service) : Prop where
  final : ∀ t ∈ s.judged, t.settlement s.policy ≠ .requeue
  handled_eq : ∀ x, s.handled x = (s.judged.map (·.delivery.letter)).count x + s.settled x

theorem conclusive_start (lanes : UInt32) (channel : String) (policy : RetryPolicy) :
    (start lanes channel policy).Conclusive where
  final _ ht := absurd ht List.not_mem_nil
  handled_eq _ := rfl

variable {s : Service}

theorem Conclusive.other (h : s.Conclusive) (op : Operation) : (s.step (.other op)).Conclusive := by
  rw [step]
  split
  · exact h
  · next hop =>
    obtain ⟨hacknowledged, hsetAside⟩ := s.history.settled_perform (Bool.not_eq_true _ ▸ hop)
    refine ⟨h.final, fun x => ?_⟩
    rw [show settled _ x = s.settled x by rw [settled, settled, hacknowledged, hsetAside]]
    exact h.handled_eq x

theorem Conclusive.take (h : s.Conclusive) : (s.step .take).Conclusive := by
  rw [step]
  split
  · next d b htake =>
    obtain ⟨-, hpast, -⟩ := History.of_take_eq_some htake
    refine ⟨h.final, fun x => ?_⟩
    have hsettled : settled { s with
        history := s.history.perform (.take s.channel), held := s.held ++ [d] } x = s.settled x := by
      simp only [settled, History.acknowledgedOn, History.setAsideFrom, hpast, List.flatMap_append,
        List.flatMap_singleton, Occurrence.acknowledgedOn, Occurrence.setAsideFrom, List.append_nil]
    rw [hsettled]
    exact h.handled_eq x
  · exact h

theorem Conclusive.handle (h : s.Conclusive) {t : Trial} (ht : t.settlement s.policy ≠ .requeue) :
    (s.step (.handle t)).Conclusive := by
  rw [step]
  split
  · refine ⟨fun t' ht' => ?_, fun x => ?_⟩
    · rcases List.mem_append.1 ht' with ht' | ht'
      · exact h.final t' ht'
      · rw [List.mem_singleton.1 ht']
        exact ht
    · have hx := h.handled_eq x
      simp only [handled, settled, List.map_append, List.count_append] at hx ⊢
      omega
  · exact h

/-- What is settled for good counts once. -/
theorem settled_snoc {h h' : History} {name : String} {d : Delivery} {y : Letter} {how : Settlement}
    (hpast : h'.past = h.past ++ [.settle d y how]) (hname : d.channel = name)
    (hhow : how ≠ .requeue) (x : Letter) :
    (h'.acknowledgedOn name).count x + (h'.setAsideFrom name).count x =
      (h.acknowledgedOn name).count x + (h.setAsideFrom name).count x + [y].count x := by
  simp only [History.acknowledgedOn, History.setAsideFrom, hpast, List.flatMap_append,
    List.flatMap_singleton, List.count_append]
  cases how with
  | requeue => exact absurd rfl hhow
  | acknowledge =>
    simp only [Occurrence.acknowledgedOn, Occurrence.setAsideFrom, hname, ↓reduceIte,
      List.count_nil]
    omega
  | setAside reason =>
    simp only [Occurrence.acknowledgedOn, Occurrence.setAsideFrom, hname, ↓reduceIte,
      List.count_nil]
    omega

theorem Conclusive.settle (h : s.Conclusive) (hs : s.Attended) (t : Trial) :
    (s.step (.settle t)).Conclusive := by
  rw [step]
  split
  · next ht =>
    have hsettled := settled_snoc (hs.past_settle ht) (hs.channel_judged t ht) (h.final t ht)
    refine ⟨fun t' ht' => h.final t' (List.mem_of_mem_erase ht'), fun x => ?_⟩
    have hx := h.handled_eq x
    have hperm := ((List.perm_cons_erase ht).map (·.delivery.letter)).count_eq x
    rw [List.map_cons, List.count_cons] at hperm
    have hletter := hsettled x
    rw [List.count_singleton] at hletter
    simp only [handled, settled] at hx ⊢
    omega
  · exact h

/-- Only what is handled is tried. -/
theorem trials_step (s : Service) (a : Action) :
    (s.step a).trials = s.trials ++
      match a with
      | .handle t => if t.delivery ∈ s.held then [t] else []
      | _ => [] := by
  cases a with
  | handle t =>
    rw [step]
    by_cases ht : t.delivery ∈ s.held
    · simp only [ht, ↓reduceIte]
    · simp only [ht, ↓reduceIte, List.append_nil]
  | _ =>
    rw [step]
    split <;> exact (List.append_nil _).symm

theorem Conclusive.receive (h : s.Conclusive) : (s.step .receive).Conclusive := by
  rcases s.step_receive with heq | heq <;> rw [heq]
  · exact h
  · exact h.take

/-- What is handled and not settled yet is out, so nothing of that kind is left on a drained
channel. -/
theorem Attended.judged_eq_nil (hs : s.Attended) (hdrained : s.history.broker.pending s.channel = 0) :
    s.judged = [] := by
  refine List.eq_nil_iff_forall_not_mem.2 fun t ht => ?_
  obtain ⟨m, hm, -⟩ := hs.exists_inFlight ht
  have hmessages := Broker.pending_eq_zero_iff.1 hdrained t.delivery.lane.toNat
  rw [Lane.messages, hm] at hmessages
  simp at hmessages

/-- All that came to a drained channel has been handled, each message once. -/
theorem Conclusive.perm_arrivalsOn (h : s.Conclusive) (hs : s.Attended)
    (hdrained : s.history.broker.pending s.channel = 0) :
    (s.trials.map (·.delivery.letter)).Perm (s.history.arrivalsOn s.channel) := by
  refine List.perm_iff_count.2 fun x => ?_
  have hx := h.handled_eq x
  rw [hs.judged_eq_nil hdrained] at hx
  have htally := (hs.sound.tallied.lettersOn s.channel).count_eq x
  rw [← Broker.length_lettersOn, List.length_eq_zero_iff] at hdrained
  rw [hdrained, List.append_nil, List.count_append, List.count_append,
    ← History.count_arrivalsOn] at htally
  simp only [handled, settled, List.map_nil, List.count_nil] at hx
  omega

end Service

/-! ### Counting -/

/-- Consumers of a channel that count events in the same statistics. -/
structure Census where
  service : Service
  statistics : Statistics := {}

namespace Census

inductive Action where
  /-- What others do. They neither receive from the channel nor settle on it. -/
  | other (op : Operation)
  | receive
  /-- The second half of receiving. -/
  | take
  /-- The consumer that holds a delivery counts what is in it. -/
  | handle (d : Delivery)
  /-- The consumer that has counted settles. -/
  | settle (t : Trial)

/-- What comes of a delivery that is handled now. -/
def trial (s : Census) (d : Delivery) : Trial := ⟨d, (s.statistics.handle d).verdict⟩

def step (s : Census) : Action → Census
  | .other op => { s with service := s.service.step (.other op) }
  | .receive => { s with service := s.service.step .receive }
  | .take => { s with service := s.service.step .take }
  | .handle d =>
    if d ∈ s.service.held then
      ⟨s.service.step (.handle (s.trial d)), (s.statistics.handle d).statistics⟩
    else s
  | .settle t => { s with service := s.service.step (.settle t) }

def run (s : Census) (actions : List Action) : Census := actions.foldl step s

def start (lanes : UInt32) (channel : String) (policy : RetryPolicy) : Census :=
  ⟨.start lanes channel policy, {}⟩

/-- The events that were handled, in the order in which they were. -/
def events (s : Census) : List Event :=
  s.service.trials.filterMap fun t => Pipeline.eventOf? t.delivery.letter

/-- The events in all messages that came to the channel. -/
def arrived (s : Census) : List Event :=
  (s.service.history.arrivalsOn s.service.channel).filterMap Pipeline.eventOf?

/-- Whether no message is left on the channel. -/
def Drained (s : Census) : Prop := s.service.history.broker.pending s.service.channel = 0

/-- The statistics are those of the events handled, and what is handled is settled for good. -/
structure Counted (s : Census) : Prop where
  attended : s.service.Attended
  conclusive : s.service.Conclusive
  statistics_eq : s.statistics = s.events.foldl Statistics.absorb {}

theorem counted_start (lanes : UInt32) (channel : String) (policy : RetryPolicy) :
    (start lanes channel policy).Counted where
  attended := Service.attended_start lanes channel policy
  conclusive := Service.conclusive_start lanes channel policy
  statistics_eq := rfl

variable {s s' : Census}

/-- The statistics send nothing back. -/
theorem settlement_trial_ne_requeue (s : Census) (p : RetryPolicy) (d : Delivery) :
    (s.trial d).settlement p ≠ .requeue := by
  intro hrequeue
  have hjudged := (Deployment.Attempt.judged_handle s.statistics p d).1
  rw [show p.settlement d.count (s.statistics.handle d).verdict = .requeue from hrequeue] at hjudged
  cases hjudged

theorem Counted.handle (h : s.Counted) (d : Delivery) : (s.step (.handle d)).Counted := by
  rw [step]
  split
  · next hd =>
    have hattended := h.attended.step (.handle (s.trial d))
    refine ⟨hattended, h.conclusive.handle (s.settlement_trial_ne_requeue _ d), ?_⟩
    have hstatistics := (Deployment.Attempt.judged_handle s.statistics s.service.policy d).2
      (.ok .acknowledge)
    have htrials : (s.service.step (.handle (s.trial d))).trials = s.service.trials ++ [s.trial d] :=
      (s.service.trials_step _).trans (congrArg _ (if_pos hd))
    rw [hstatistics, h.statistics_eq, events, events, htrials, List.filterMap_append,
      List.foldl_append, List.filterMap_cons, List.filterMap_nil]
    simp only [Deployment.Attempt.event?, Deployment.Attempt.delivery?, Option.bind_some, trial]
    cases Pipeline.eventOf? d.letter <;> rfl
  · exact h

/-- What does not handle anything leaves the statistics as they are. -/
theorem Counted.withService (h : s.Counted) {service : Service} (hattended : service.Attended)
    (hconclusive : service.Conclusive) (htrials : service.trials = s.service.trials) :
    ({ s with service } : Census).Counted where
  attended := hattended
  conclusive := hconclusive
  statistics_eq := by
    rw [events, htrials]
    exact h.statistics_eq

theorem Counted.step (h : s.Counted) (a : Action) : (s.step a).Counted := by
  have hs := h.attended
  cases a with
  | other op =>
    exact h.withService (hs.step _) (h.conclusive.other op)
      ((s.service.trials_step _).trans (List.append_nil _))
  | receive =>
    exact h.withService (hs.step _) h.conclusive.receive
      ((s.service.trials_step _).trans (List.append_nil _))
  | take =>
    exact h.withService (hs.step _) h.conclusive.take
      ((s.service.trials_step _).trans (List.append_nil _))
  | handle d => exact h.handle d
  | settle t =>
    exact h.withService (hs.step _) (h.conclusive.settle hs t)
      ((s.service.trials_step _).trans (List.append_nil _))

theorem Counted.run (h : s.Counted) (actions : List Action) : (s.run actions).Counted := by
  induction actions generalizing s with
  | nil => exact h
  | cons a rest ih => exact ih (h.step a)

/-- A consumer that counts and then settles does what a worker does that processes the message. -/
theorem run_handle_settle (site : Deployment) {d : Delivery} (hd : d ∈ s.service.held)
    (hbroker : s.service.history.broker = site.broker) (hpolicy : s.service.policy = site.policy)
    (hstatistics : s.statistics = site.handler.statistics) (hverdicts : site.handler.verdicts = none)
    (hfaults : site.settleFaults = 0) :
    let s' := s.run [.handle d, .settle (s.trial d)]
    s'.service.history.broker = ((Deployment.process d).run site).2.broker ∧
      s'.statistics = ((Deployment.process d).run site).2.handler.statistics := by
  intro s'
  have hhandle : site.handler.handle d = site.handler.count d := by
    rw [Handler.handle, hverdicts]
  have htrial : s.trial d = ⟨d, (site.handler.handle d).1⟩ := by
    rw [trial, hstatistics, hhandle]
    rfl
  have hs' : s' = ⟨s.service.run [.handle (s.trial d), .settle (s.trial d)],
      (s.statistics.handle d).statistics⟩ := by
    simp only [s', run, List.foldl_cons, List.foldl_nil, step, if_pos hd]
    rfl
  rw [hs', Deployment.handler_process, htrial, hhandle, hstatistics]
  refine ⟨?_, rfl⟩
  have := s.service.broker_process site hd hbroker hpolicy hfaults
  rwa [hhandle] at this

/-- On a drained channel the events handled are those that came. -/
theorem Counted.perm_arrived (h : s.Counted) (hdrained : s.Drained) : s.events.Perm s.arrived := by
  have hperm := (h.conclusive.perm_arrivalsOn h.attended hdrained).filterMap Pipeline.eventOf?
  rwa [List.filterMap_map] at hperm

/-- Where the same events came to two channels that are drained, in whatever order and by whomever
they were handled: if all of them are accepted on one, then on the other, and the statistics tell
the same. -/
theorem Counted.sameTotals (h : s.Counted) (h' : s'.Counted) (hdrained : s.Drained)
    (hdrained' : s'.Drained) (hperm : s.arrived.Perm s'.arrived)
    (hworth : Entry.worth (Events.recorded s.arrived) < 2 ^ 96)
    (hall : Statistics.accepted {} s.events = s.events) :
    Statistics.accepted {} s'.events = s'.events ∧ s.statistics.SameTotals s'.statistics := by
  have hevents := h.perm_arrived hdrained
  rw [h.statistics_eq, h'.statistics_eq]
  refine Statistics.sameTotals_of_perm
    ((hevents.trans hperm).trans (h'.perm_arrived hdrained').symm) ?_ hall
  rwa [Events.worth_eq_of_perm (Events.perm_recorded hevents)]

/-- The statistics do not depend on the order of events, and so not on which consumer or lane of a
channel is served first. -/
theorem order_independent :
    (∀ a b : List Event, a.Perm b → Entry.worth (Events.recorded a) < 2 ^ 96 →
      Statistics.accepted {} a = a →
      Statistics.accepted {} b = b ∧
        (a.foldl Statistics.absorb {}).SameTotals (b.foldl Statistics.absorb {})) ∧
    ∀ (lanes lanes' : UInt32) (channel channel' : String) (policy policy' : RetryPolicy)
      (actions actions' : List Action),
      let s := (start lanes channel policy).run actions
      let s' := (start lanes' channel' policy').run actions'
      s.Drained → s'.Drained → s.arrived.Perm s'.arrived →
      Entry.worth (Events.recorded s.arrived) < 2 ^ 96 →
      Statistics.accepted {} s.events = s.events →
      Statistics.accepted {} s'.events = s'.events ∧ s.statistics.SameTotals s'.statistics := by
  refine ⟨fun a b => Statistics.sameTotals_of_perm, ?_⟩
  intro lanes lanes' channel channel' policy policy' actions actions' s s'
  exact ((counted_start lanes channel policy).run actions).sameTotals
    ((counted_start lanes' channel' policy').run actions')

/-- A message is published on a single lane, taken by a consumer that counts what is in it, and
acknowledged. -/
theorem run_publish_serve (key : String) (policy : RetryPolicy) {e : Event} {statistics : Statistics}
    {d : Delivery} (hd : d = ⟨1, "transactions", key, 0, e.encode, 1, default⟩)
    (hread : e.asRead = e) (happly : ({} : Statistics).apply e = .ok statistics) :
    let s := (start 1 "transactions" policy).run
      [.other (.publish default "transactions" key e.encode), .receive, .handle d,
        .settle ⟨d, .done⟩]
    s.Drained ∧ s.arrived = [e] ∧ s.events = [e] := by
  intro s
  have hdecode : Event.decode d.payload = .ok (.event e) := by
    rw [hd, e.decode_encode, hread]
  have hhandle := Statistics.handle_of_decode hdecode happly
  have heventOf : Pipeline.eventOf? ⟨1, key, e.encode, default⟩ = some e :=
    (Pipeline.eventOf?_eq rfl).trans (congrArg some hread)
  have hreceive : ((History.new 1).perform (.publish default "transactions" key e.encode)).broker.receive
      "transactions" = (.ok (some d), (((History.new 1).perform (.publish default "transactions" key
        e.encode)).perform (.receive "transactions")).broker) := by
    rw [hd, History.perform_publish_one]
    rfl
  have hsettlement : Trial.settlement policy ⟨d, .done⟩ = .acknowledge := rfl
  have hs : s = ⟨⟨(((History.new 1).perform (.publish default "transactions" key e.encode)).perform
      (.receive "transactions")).perform (.settle d .acknowledge), "transactions", policy, [], [],
      [⟨d, .done⟩]⟩, statistics⟩ := by
    simp only [s, run, List.foldl_cons, List.foldl_nil, start, Service.start, step, Service.step,
      Operation.serves, Bool.false_eq_true, hreceive, trial, hhandle, List.nil_append,
      List.mem_singleton, ↓reduceIte, List.erase_cons_head, hsettlement]
  rw [hs, History.perform_publish_one, hd]
  refine ⟨rfl, ?_, ?_⟩
  · exact (List.filterMap_cons_some heventOf).trans rfl
  · simp only [events, Delivery.letter, List.filterMap_cons, List.filterMap_nil, heventOf]

/-- Two events in either order, and one that two consumers receive under different keys and
policies. -/
theorem order_independent_swapped :
    let rent : Event := .created 1 ⟨7, by decide⟩ ⟨60000, by decide, by decide⟩ "rent" default
    let paid : Event := .paid ⟨8, by decide⟩ 3 default
    let d (key : String) : Delivery := ⟨1, "transactions", key, 0, rent.encode, 1, default⟩
    let served (key : String) (policy : RetryPolicy) : Census :=
      (start 1 "transactions" policy).run [.other (.publish default "transactions" key rent.encode),
        .receive, .handle (d key), .settle ⟨d key, .done⟩]
    let s := served "7" .standard
    let s' := served "8" .unbounded
    (Statistics.accepted {} [paid, rent] = [paid, rent] ∧
      ([rent, paid].foldl Statistics.absorb {}).SameTotals
        ([paid, rent].foldl Statistics.absorb {})) ∧
    s.Drained ∧ s'.Drained ∧ s.arrived.Perm s'.arrived ∧
      Entry.worth (Events.recorded s.arrived) < 2 ^ 96 ∧
      Statistics.accepted {} s.events = s.events ∧
      (Statistics.accepted {} s'.events = s'.events ∧ s.statistics.SameTotals s'.statistics) := by
  intro rent paid d served s s'
  have happly : ({} : Statistics).apply rent = .ok (Statistics.absorb {} rent) := rfl
  obtain ⟨hdrained, harrived, hevents⟩ := run_publish_serve "7" .standard rfl rfl happly
  obtain ⟨hdrained', harrived', hevents'⟩ := run_publish_serve "8" .unbounded rfl rfl happly
  have hperm : s.arrived.Perm s'.arrived := by
    rw [show s.arrived = [rent] from harrived, show s'.arrived = [rent] from harrived']
  have hworth : Entry.worth (Events.recorded s.arrived) < 2 ^ 96 := by
    rw [show s.arrived = [rent] from harrived]
    decide
  have hall : Statistics.accepted {} s.events = s.events := by
    rw [show s.events = [rent] from hevents]
    decide
  refine ⟨?_, hdrained, hdrained', hperm, hworth, hall, ?_⟩
  · exact order_independent.1 [rent, paid] [paid, rent] (.swap _ _ _) (by decide) (by decide)
  · exact order_independent.2 1 1 "transactions" "transactions" .standard .unbounded _ _
      hdrained hdrained' hperm hworth hall

end Census

end SpendingLedger
