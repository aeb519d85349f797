import SpendingLedger.Proofs.Deployment.Messages
import SpendingLedger.Proofs.Event.RoundTrip
import SpendingLedger.Proofs.Statistics.Fold

/-!
A site at work: the ledger announces to a channel, and what is received from the channel is counted.
Operations, receives and processing come in any order, while the broker goes out of reach and comes
back or is closed, and the store goes down and comes back. Nobody else uses the channel.
-/

namespace SpendingLedger

/-- A site, with what those who work at it hold and have seen. -/
structure Pipeline where
  site : Deployment
  /-- What has been received and is not processed yet. -/
  held : List Delivery := []
  /-- The events whose announcement failed. -/
  lost : List Event := []
  /-- What came of processing, oldest first. -/
  outcomes : List (Except BrokerError Settlement) := []

namespace Pipeline

inductive Step where
  /-- An operation on the ledger, and the announcement of what it did. -/
  | request (r : Request)
  | receive
  /-- The processing of one of the deliveries held. -/
  | process (k : Nat)
  | setUnreachable (unreachable : Bool)
  | close
  | setStore (down silent : Bool)
  | setClock (time : Timestamp)

/-- The events that could not be announced. -/
def unannounced (results : List (Event × Except AnnouncementError Unit)) : List Event :=
  results.filterMap fun
    | (e, .error _) => some e
    | (_, .ok ()) => none

def step (p : Pipeline) : Step → Pipeline
  | .request r =>
    let site := ((r.action p.site.cap).run p.site).2
    { p with
      site := (Deployment.flush.run site).2
      lost := p.lost ++ unannounced (Deployment.flush.run site).1 }
  | .receive =>
    match (Deployment.receive p.site.channel).run p.site with
    | (.ok (some d), site) => { p with site, held := p.held ++ [d] }
    | (_, site) => { p with site }
  | .process k =>
    match p.held[k]? with
    | none => p
    | some d =>
      { p with
        site := ((Deployment.process d).run p.site).2
        held := p.held.eraseIdx k
        outcomes := p.outcomes ++ [((Deployment.process d).run p.site).1] }
  | .setUnreachable unreachable =>
    { p with site := { p.site with broker := { p.site.broker with unreachable } } }
  | .close => { p with site := { p.site with broker := p.site.broker.close } }
  | .setStore down silent =>
    { p with site := { p.site with storeDown := down, storeSilent := silent } }
  | .setClock time => { p with site := { p.site with clock := time } }

def run (p : Pipeline) (steps : List Step) : Pipeline := steps.foldl step p

/-- A pipeline under the cap of production, before anything has happened. -/
def start (channel : String) (lanes : UInt32) (policy : RetryPolicy) (clock : Timestamp) :
    Pipeline where
  site := { Deployment.fresh channel lanes with policy, clock }

/-- The event in a message, if there is one. -/
def eventOf? (x : Letter) : Option Event :=
  match Event.decode x.payload with
  | .ok (.event e) => some e
  | _ => none

theorem eventOf?_eq {x : Letter} {e : Event} (h : x.payload = e.encode) :
    eventOf? x = some e.asRead := by
  rw [eventOf?, h, e.decode_encode]

/-- The time of an event makes no difference to the book. -/
theorem accountedBy_asRead {b : Book} {e : Event} {events : List Event}
    (h : b.AccountedBy (e :: events)) : b.AccountedBy (e.asRead :: events) := by
  have hentry : e.asRead.entry? = e.entry? := by cases e <;> rfl
  have hpaid : e.asRead.rowsPaid = e.rowsPaid := by cases e <;> rfl
  have hentries : Events.recorded (e.asRead :: events) = Events.recorded (e :: events) := by
    simp only [Events.recorded, List.filterMap_cons, hentry]
  have hrows : Events.rowsPaid (e.asRead :: events) = Events.rowsPaid (e :: events) := by
    simp only [Events.rowsPaid, List.map_cons, hpaid]
  refine ⟨hentries ▸ h.entries, hrows ▸ h.rowsPaid, fun e' he' hnone => ?_⟩
  rcases List.mem_cons.1 he' with rfl | he'
  · rw [hpaid]
    exact h.rowsPaid_pos e List.mem_cons_self (hentry ▸ hnone)
  · exact h.rowsPaid_pos e' (List.mem_cons_of_mem _ he') hnone

/-- The events on their way, queued or in flight. -/
def pending (p : Pipeline) : List Event :=
  (p.site.broker.lettersOn p.site.channel).filterMap eventOf?

/-! ### Alignment -/

/-- Where each event is: counted in this order, on its way, lost, or still waiting to be announced.
Together they account for the book. -/
structure Aligned (p : Pipeline) (counted waiting : List Event) : Prop where
  cap_eq : p.site.cap = defaultCap
  verdicts_eq : p.site.handler.verdicts = none
  settleFaults_eq : p.site.settleFaults = 0
  backlog_eq : p.site.backlog = []
  setAside_eq : p.site.setAside = []
  balanced : p.site.book.Balanced defaultCap
  shaped : p.site.broker.Shaped
  lent : p.site.broker.Lent p.site.channel p.held
  /-- Every message on the channel announces an event. -/
  exists_event : ∀ x ∈ p.site.broker.lettersOn p.site.channel, ∃ e : Event, x.payload = e.encode
  /-- There is nothing on any other channel. -/
  lettersOn_eq_nil : ∀ name, name ≠ p.site.channel → p.site.broker.lettersOn name = []
  outcomes_eq : ∀ outcome ∈ p.outcomes, outcome = .ok .acknowledge
  reflects : p.site.handler.statistics.Reflects counted
  accountedBy : p.site.book.AccountedBy (counted ++ p.pending ++ p.lost ++ waiting)

theorem aligned_start (channel : String) (lanes : UInt32) (policy : RetryPolicy)
    (clock : Timestamp) : (start channel lanes policy clock).Aligned [] [] := by
  have hempty : ∀ name, (start channel lanes policy clock).site.broker.lettersOn name = [] :=
    fun _ => Channel.letters_fresh _
  refine {
    cap_eq := rfl
    verdicts_eq := rfl
    settleFaults_eq := rfl
    backlog_eq := rfl
    setAside_eq := rfl
    balanced := Book.balanced_empty _
    shaped := Broker.shaped_new lanes
    lent := Broker.lent_nil ..
    exists_event := fun x hx => ?_
    lettersOn_eq_nil := fun name _ => hempty name
    outcomes_eq := fun _ h => absurd h List.not_mem_nil
    reflects := Statistics.reflects_empty
    accountedBy := ?_ }
  · rw [hempty] at hx
    exact absurd hx List.not_mem_nil
  · rw [pending, hempty]
    exact Book.accountedBy_empty

variable {p : Pipeline} {counted waiting : List Event}

/-! ### Operations -/

/-- What an operation does is still to be announced. -/
theorem Aligned.leaves (h : p.Aligned counted []) (hlength : p.site.book.rows.length < 2 ^ 64)
    {site : Deployment} (hleaves : p.site.Leaves site) :
    { p with site := { site with backlog := [] } }.Aligned counted site.backlog := by
  obtain ⟨book, announced, notices, hchange, rfl⟩ := hleaves
  rw [h.cap_eq] at hchange
  have haccounted := hchange.accountedBy h.accountedBy hlength
  rw [List.append_nil] at haccounted
  exact { h with
    backlog_eq := rfl
    balanced := hchange.balanced h.balanced Book.defaultCap_le_exactCap
    accountedBy := by
      simp only [h.backlog_eq, List.nil_append]
      exact haccounted }

theorem Aligned.lose {e : Event} (h : p.Aligned counted (e :: waiting)) (notices : List Notice) :
    { p with site := { p.site with notices }, lost := p.lost ++ [e] }.Aligned counted waiting where
  __ := h
  accountedBy := h.accountedBy.of_perm (.of_eq (by simp [pending]))

theorem Aligned.perm_pending_posted (h : p.Aligned counted waiting) (e : Event)
    (notices : List Notice) :
    let site := { p.site with broker := p.site.posted p.site.channel e, notices }
    { p with site }.pending.Perm (e.asRead :: p.pending) := by
  have hperm := Broker.perm_post h.shaped p.site.clock p.site.channel e.user.routingKey e.encode
    p.site.channel
  rw [if_pos rfl, List.singleton_append] at hperm
  refine (hperm.filterMap eventOf?).trans (.of_eq ?_)
  rw [List.filterMap_cons_some (eventOf?_eq rfl), pending]

theorem Aligned.post {e : Event} (h : p.Aligned counted (e :: waiting)) (notices : List Notice) :
    { p with site := { p.site with broker := p.site.posted p.site.channel e, notices } }.Aligned
      counted waiting where
  __ := h
  shaped := h.shaped.post ..
  lent := h.lent.post h.shaped ..
  exists_event x hx := by
    have hperm := Broker.perm_post h.shaped p.site.clock p.site.channel e.user.routingKey e.encode
      p.site.channel
    rw [if_pos rfl, List.singleton_append] at hperm
    rcases List.mem_cons.1 (hperm.mem_iff.1 hx) with rfl | hx
    · exact ⟨e, rfl⟩
    · exact h.exists_event x hx
  lettersOn_eq_nil name hname := by
    have hperm := Broker.perm_post h.shaped p.site.clock p.site.channel e.user.routingKey e.encode
      name
    rw [if_neg hname.symm, List.nil_append, h.lettersOn_eq_nil name hname] at hperm
    exact hperm.eq_nil
  accountedBy := by
    refine (accountedBy_asRead (h.accountedBy.of_perm List.perm_middle)).of_perm ?_
    have hpending := h.perm_pending_posted e notices
    rw [List.perm_iff_count] at hpending ⊢
    intro a
    have := hpending a
    simp only [List.count_append, List.count_cons] at this ⊢
    omega

/-- Announcing leaves nothing to be announced. -/
theorem Aligned.announces {channel : String} {s s' : Deployment}
    {results : List (Event × Except AnnouncementError Unit)}
    (hannounces : Deployment.Announces channel s waiting results s')
    (hchannel : s.channel = channel) {lost : List Event}
    (h : { p with site := s, lost }.Aligned counted waiting) :
    { p with site := s', lost := lost ++ unannounced results }.Aligned counted [] := by
  induction hannounces generalizing lost with
  | done s =>
    rw [unannounced, List.filterMap_nil, List.append_nil]
    exact h
  | lost e err notices _ ih =>
    rw [show unannounced ((e, .error err) :: _) = [e] ++ unannounced _ from rfl,
      ← List.append_assoc]
    exact ih hchannel (h.lose notices)
  | posted e notices _ ih =>
    subst hchannel
    exact ih rfl (h.post notices)

theorem Aligned.request (h : p.Aligned counted []) (hlength : p.site.book.rows.length < 2 ^ 64)
    (r : Request) : (p.step (.request r)).Aligned counted [] := by
  have hleaves := p.site.leaves_action r
  exact (h.leaves hlength hleaves).announces (Deployment.announces_flush _) rfl

/-! ### Receiving -/

/-- A broker that has the same letters on every channel will do as well. -/
theorem Aligned.withBroker (h : p.Aligned counted waiting) {b : Broker} {held : List Delivery}
    (hshaped : b.Shaped) (hlent : b.Lent p.site.channel held)
    (hperm : ∀ name, (b.lettersOn name).Perm (p.site.broker.lettersOn name)) :
    { p with site := { p.site with broker := b }, held }.Aligned counted waiting where
  __ := h
  shaped := hshaped
  lent := hlent
  exists_event x hx := h.exists_event x ((hperm _).mem_iff.1 hx)
  lettersOn_eq_nil name hname := by
    have := hperm name
    rw [h.lettersOn_eq_nil name hname] at this
    exact this.eq_nil
  accountedBy := by
    have hpending := (hperm p.site.channel).symm.filterMap eventOf?
    refine h.accountedBy.of_perm ?_
    exact ((hpending.append_left counted).append_right p.lost).append_right waiting

theorem Aligned.receive (h : p.Aligned counted waiting) :
    (p.step .receive).Aligned counted waiting := by
  have hrun : (Deployment.receive p.site.channel).run p.site =
      ((p.site.broker.receive p.site.channel).1,
        { p.site with broker := (p.site.broker.receive p.site.channel).2 }) := rfl
  simp only [step, hrun, Broker.receive]
  cases p.site.broker.closed with
  | true => exact h
  | false =>
    rcases p.site.broker.take_cases p.site.channel with
      htake | ⟨i, m, queue, cursor, hi, hlane, htake⟩ <;>
      simp only [htake, Bool.false_eq_true, ↓reduceIte]
    · exact h
    · refine h.withBroker (h.shaped.handOut hi hlane _ cursor)
        (h.lent.handOut h.shaped hi hlane _ cursor) ?_
      refine (Broker.perm_changeLane_of_letters_eq hi cursor ?_).2
      rw [hlane, Lane.letters_handOut]

/-! ### Processing -/

/-- An event that is counted is on its way no longer. -/
theorem perm_counted (counted lost : List Event) {e : Event} {rest events : List Event}
    (h : (e :: rest).Perm events) :
    (counted ++ [e] ++ (rest ++ lost)).Perm (counted ++ events ++ lost ++ []) := by
  rw [List.append_nil, List.append_assoc, List.append_assoc]
  exact (h.append_right lost).append_left counted

/-- Of what is held, the event is counted and the message acknowledged. -/
theorem Aligned.process (h : p.Aligned counted []) (hlength : p.site.book.rows.length < 2 ^ 63)
    (k : Nat) : ∃ counted', (p.step (.process k)).Aligned counted' [] := by
  rw [step]
  cases hk : p.held[k]? with
  | none => exact ⟨counted, h⟩
  | some d =>
    have hout := h.lent.isOut d (List.mem_of_getElem? hk)
    obtain ⟨cursor, hsettle, hshaped, hperm⟩ := hout.settle
    have hchannel := hperm p.site.channel
    rw [if_pos rfl, List.singleton_append] at hchannel
    obtain ⟨e, he⟩ := h.exists_event d.letter (hchannel.mem_iff.1 List.mem_cons_self)
    have hpending := hchannel.filterMap eventOf?
    rw [List.filterMap_cons_some (eventOf?_eq he)] at hpending
    have hmoved := perm_counted counted p.lost hpending
    have hfit := (h.accountedBy.fit h.balanced hlength).of_perm_append hmoved
    obtain ⟨statistics, happly, hreflects⟩ := h.reflects.apply e.asRead hfit
    have hdecode : Event.decode d.payload = .ok (.event e.asRead) := by
      rw [show d.payload = e.encode from he]
      exact e.decode_encode
    obtain ⟨notices, hrun⟩ :=
      Deployment.run_process h.verdicts_eq h.settleFaults_eq hdecode happly hsettle
    refine ⟨counted ++ [e.asRead], ?_⟩
    simp only [hrun]
    exact { h with
      shaped := hshaped h.shaped
      lent := h.lent.release hk cursor
      exists_event := fun x hx =>
        h.exists_event x (hchannel.mem_iff.1 (List.mem_cons_of_mem _ hx))
      lettersOn_eq_nil := fun name hname => by
        have := hperm name
        rw [if_neg hname.symm, List.nil_append, h.lettersOn_eq_nil name hname] at this
        exact this.eq_nil
      outcomes_eq := fun outcome houtcome => by
        rcases List.mem_append.1 houtcome with houtcome | houtcome
        · exact h.outcomes_eq outcome houtcome
        · exact List.mem_singleton.1 houtcome
      reflects := hreflects
      accountedBy := by
        rw [List.append_nil, List.append_assoc]
        exact h.accountedBy.of_perm hmoved.symm }

/-! ### All steps -/

theorem Aligned.step (h : p.Aligned counted []) (hlength : p.site.book.rows.length < 2 ^ 63)
    (s : Step) : ∃ counted', (p.step s).Aligned counted' [] := by
  cases s with
  | request r => exact ⟨counted, h.request (by omega) r⟩
  | receive => exact ⟨counted, h.receive⟩
  | process k => exact h.process hlength k
  | setUnreachable unreachable =>
    exact ⟨counted, h.withBroker (h.shaped.withState ..) (h.lent.withState ..) fun _ => .refl _⟩
  | close =>
    exact ⟨counted, h.withBroker (h.shaped.withState ..) (h.lent.withState ..) fun _ => .refl _⟩
  | setStore down silent => exact ⟨counted, { h with }⟩
  | setClock time => exact ⟨counted, { h with }⟩

end Pipeline

end SpendingLedger
