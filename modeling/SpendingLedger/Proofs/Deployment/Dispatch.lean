import SpendingLedger.Proofs.Accounting.Acts
import SpendingLedger.Proofs.Broker.LaneOrder
import SpendingLedger.Proofs.Broker.Progress
import SpendingLedger.Proofs.Deployment.Messages
import SpendingLedger.Proofs.Web.Identity

/-!
Operations on the ledger that take turns, and the tasks that announce what they did. A call acts on
the rows at one turn and sets off its task at a later one; the tasks that are under way publish in
any order, while consumers receive and settle. The broker is open and in reach, and nobody else uses
the channel. Each deed is told once, by the call whose deed it is. What a user's tasks publish is
handed out in the order in which they publish.
-/

namespace SpendingLedger

/-- What a call did to the rows on record. -/
structure Deed where
  call : Nat
  act : Act
deriving DecidableEq

/-- The event that a call set off a task to publish. -/
structure Telling where
  call : Nat
  event : Event
deriving DecidableEq

/-- A site whose events are announced by tasks of their own; those under way are in its backlog. -/
structure Dispatch where
  traffic : Traffic
  /-- What was done to the rows, oldest first. -/
  deeds : List Deed := []
  /-- What tasks were set off to publish, in the order in which they were set off. -/
  told : List Telling := []
  /-- The events that were published, oldest first. -/
  published : List Event := []
  /-- What has come about at the broker. -/
  past : List Occurrence := []

namespace Dispatch

inductive Step where
  /-- Something happens among the calls, or to the store or the clock. -/
  | traffic (s : Traffic.Step)
  /-- One of the tasks under way publishes its event. -/
  | announce (k : Nat)
  | receive
  /-- Somebody settles a message of the channel, with any delivery. -/
  | settle (d : Delivery) (how : Settlement)

/-- What a step among the calls does to the rows. -/
def deed? (t : Traffic) : Traffic.Step → Option Deed
  | .advance i => (t.calls[i]?.bind (·.program.act? t.site)).map (Deed.mk i)
  | _ => none

/-- What a task is set off to publish by a step among the calls. -/
def telling? (t : Traffic) : Traffic.Step → Option Telling
  | .advance i => (t.calls[i]?.bind (·.program.event?)).map (Telling.mk i)
  | _ => none

def site (d : Dispatch) : Deployment := d.traffic.site

def withSite (d : Dispatch) (site : Deployment) : Dispatch :=
  { d with traffic := { d.traffic with site } }

def history (d : Dispatch) : History := { broker := d.site.broker, past := d.past }

/-- Somebody asks something of the broker. -/
def perform (d : Dispatch) (op : Operation) : Dispatch :=
  let h := d.history.perform op
  { d.withSite { d.site with broker := h.broker } with past := h.past }

def step (d : Dispatch) : Step → Dispatch
  | .traffic s =>
    { d with
      traffic := d.traffic.step s
      deeds := d.deeds ++ (deed? d.traffic s).toList
      told := d.told ++ (telling? d.traffic s).toList }
  | .announce k =>
    match d.site.backlog[k]? with
    | none => d
    | some e =>
      let site := { d.site with backlog := d.site.backlog.eraseIdx k }
      match (Announcement.deliver site.channel e : Deployment.Action _).run site with
      | (.error _, site) => d.withSite site
      | (.ok (), site) =>
        { d.withSite site with
          published := d.published ++ [e]
          past := (d.history.perform
            (.publish d.site.clock d.site.channel e.user.routingKey e.encode)).past }
  | .receive => d.perform (.receive d.site.channel)
  | .settle x how => d.perform (.settle { x with channel := d.site.channel } how)

def run (d : Dispatch) (steps : List Step) : Dispatch := steps.foldl step d

/-- A site before anything has happened. -/
def start (channel : String) (lanes : UInt32) (cap : Decimal) (clock : Timestamp) : Dispatch where
  traffic := { site := { Deployment.fresh channel lanes with cap, clock } }

/-! ### The deeds and events of a user -/

/-- What was done to the rows of a user and is to be announced. -/
def deedsOf (d : Dispatch) (u : UserId) : List Deed :=
  d.deeds.filter (fun δ => δ.act.user = u ∧ δ.act.isTold)

/-- The deeds whose calls have yet to set off their tasks. -/
def untoldOf (d : Dispatch) (u : UserId) : List Deed :=
  (d.deedsOf u).filter (·.call ∉ d.told.map Telling.call)

def publishedOf (d : Dispatch) (u : UserId) : List Event := d.published.filter (·.user = u)

def waitingOf (d : Dispatch) (u : UserId) : List Event := d.site.backlog.filter (·.user = u)

/-- What has come to the lane of a user under the key of the user. -/
def queuedOf (d : Dispatch) (u : UserId) : List Letter :=
  (d.history.arrivalsAt d.site.channel (laneOf u.routingKey d.site.broker.lanes).toNat).filter
    (·.key = u.routingKey)

/-- What consumers have received under the key of a user. -/
def seenOf (d : Dispatch) (u : UserId) : List Delivery :=
  (d.history.deliveriesOn d.site.channel).filter (·.key = u.routingKey)

/-! ### Calls -/

/-- What a call has done that is to be announced. -/
def actsBy (d : Dispatch) (i : Nat) : List Act :=
  (d.deeds.filter (fun δ => δ.call = i ∧ δ.act.isTold)).map Deed.act

/-- What a call has set off tasks to publish. -/
def toldBy (d : Dispatch) (i : Nat) : List Event := (d.told.filter (·.call = i)).map Telling.event

/-- A turn of call `i` adds to what that call has done, and to nothing else. -/
theorem actsBy_turn (d : Dispatch) (traffic : Traffic) (told : List Telling) (i j : Nat)
    (a : Option Act) :
    actsBy { d with traffic, deeds := d.deeds ++ (a.map (Deed.mk i)).toList, told } j =
      d.actsBy j ++ if i = j then (a.filter Act.isTold).toList else [] := by
  cases a with
  | none => simp [actsBy]
  | some a => by_cases hij : i = j <;> cases ha : a.isTold <;>
    simp [actsBy, hij, ha, Option.filter]

theorem toldBy_turn (d : Dispatch) (traffic : Traffic) (deeds : List Deed) (i j : Nat)
    (e : Option Event) :
    toldBy { d with traffic, deeds, told := d.told ++ (e.map (Telling.mk i)).toList } j =
      d.toldBy j ++ if i = j then e.toList else [] := by
  cases e with
  | none => simp [toldBy]
  | some e => by_cases hij : i = j <;> simp [toldBy, hij]

/-! ### Payments of recorded rows -/

/-- Each payment is of rows of its user, which were recorded before. -/
def Founded (deeds : List Deed) : Prop :=
  ∀ before δ after, deeds = before ++ δ :: after →
    ∀ t ∈ δ.act.paid, t.user = δ.act.user ∧ ∃ σ ∈ before, σ.act = .record t

theorem founded_nil : Founded [] := by
  intro before δ after h
  simp at h

theorem Founded.snoc {deeds : List Deed} (h : Founded deeds) {δ : Deed}
    (hδ : ∀ t ∈ δ.act.paid, t.user = δ.act.user ∧ ∃ σ ∈ deeds, σ.act = .record t) :
    Founded (deeds ++ [δ]) := by
  intro before σ after heq
  rcases after.eq_nil_or_concat with rfl | ⟨after, last, rfl⟩
  · obtain ⟨rfl, hlast⟩ := List.append_inj' heq rfl
    obtain rfl : δ = σ := by simpa using hlast
    exact hδ
  · rw [List.concat_eq_append, ← List.cons_append, ← List.append_assoc] at heq
    exact h before σ after (List.append_inj' heq rfl).1

theorem Founded.take {deeds : List Deed} (h : Founded deeds) (n : Nat) :
    Founded (deeds.take n) := by
  intro before δ after heq
  refine h before δ (after ++ deeds.drop n) ?_
  rw [← List.cons_append, ← List.append_assoc, ← heq, List.take_append_drop]

/-- The rows that a user's payments are of were recorded by deeds of the user. -/
theorem Founded.ofUser {deeds : List Deed} (h : Founded deeds) (u : UserId) :
    Founded (deeds.filter (fun δ => δ.act.user = u ∧ δ.act.isTold)) := by
  intro before δ after heq t ht
  obtain ⟨before', rest, rfl, hbefore, hrest⟩ := List.filter_eq_append_iff.1 heq
  obtain ⟨between, after', rfl, hbetween, hδ, -⟩ := List.filter_eq_cons_iff.1 hrest
  obtain ⟨huser, σ, hσ, hrecord⟩ :=
    h (before' ++ between) δ after' (List.append_assoc ..).symm t ht
  have hσuser : decide (σ.act.user = u ∧ σ.act.isTold) = true := by
    rw [hrecord]
    exact decide_eq_true ⟨huser.trans (of_decide_eq_true hδ).1, rfl⟩
  refine ⟨huser, σ, ?_, hrecord⟩
  rcases List.mem_append.1 hσ with hσ | hσ
  · rw [← hbefore]
    exact List.mem_filter.2 ⟨hσ, hσuser⟩
  · exact absurd hσuser (hbetween σ hσ)

/-! ### What becomes of the events -/

/-- The message of a stay carries an event. -/
def Carries (s : Stay) (e : Event) : Prop := ∀ x ∈ s.deliveries, x.payload = e.encode

/-- What becomes of the deeds and events of a user, whatever calls and tasks do. -/
structure Delivered (d : Dispatch) (u : UserId) : Prop where
  /-- The deeds are all that was done to the rows. -/
  rows_eq : d.site.book.rows = (d.deeds.map Deed.act).foldl Act.apply []
  /-- No call has done more than one thing that is to be announced. -/
  length_actsBy_le : ∀ i, (d.actsBy i).length ≤ 1
  /-- Each such deed is told once, or its call is yet to tell of it. -/
  told_once : ∀ δ ∈ d.deeds, δ.act.isTold = true →
    (∃ e, d.toldBy δ.call = [e] ∧ δ.act.ToldBy e) ∨
    (d.toldBy δ.call = [] ∧ ∃ c : Call, d.traffic.calls[δ.call]? = some c ∧ c.program.Tells δ.act)
  /-- Nothing else is told. -/
  deed_of_told : ∀ τ ∈ d.told, ∃ δ ∈ d.deeds, δ.call = τ.call ∧ δ.act.ToldBy τ.event
  /-- Each event that is told is published or under way, once. -/
  perm_told : (d.published ++ d.site.backlog).Perm (d.told.map Telling.event)
  /-- They are queued on the lane of the user in the order in which they were published. -/
  queued_eq : (d.queuedOf u).map Letter.payload = (d.publishedOf u).map Event.encode
  /-- Consumers see them in that order, each for as long as it stays at the head of the lane. -/
  seen : ∃ stays gone, d.seenOf u = stays.flatMap Stay.deliveries ∧ gone <+: d.publishedOf u ∧
    List.Forall₂ Carries stays gone

/-! ### The invariant -/

structure Sound (d : Dispatch) : Prop where
  shaped : d.site.broker.Shaped
  closed_eq : d.site.broker.closed = false
  unreachable_eq : d.site.broker.unreachable = false
  lanesInOrder : d.history.LanesInOrder .wraps
  placed : d.history.Placed
  /-- What came to the channel is what was published. -/
  arrivals_eq : (d.history.arrivalsOn d.site.channel).map (fun x => (x.key, x.payload)) =
    d.published.map (fun e => (e.user.routingKey, e.encode))
  perm_told : (d.published ++ d.site.backlog).Perm (d.told.map Telling.event)
  rows_eq : d.site.book.rows = (d.deeds.map Deed.act).foldl Act.apply []
  founded : Founded d.deeds
  stage : ∀ i (c : Call), d.traffic.calls[i]? = some c → c.program.Stage (d.actsBy i) (d.toldBy i)
  /-- A call that is not begun has done nothing. -/
  stage_none : ∀ i, d.traffic.calls[i]? = none → d.actsBy i = [] ∧ d.toldBy i = []

theorem sound_start (channel : String) (lanes : UInt32) (cap : Decimal) (clock : Timestamp) :
    (start channel lanes cap clock).Sound where
  shaped := Broker.shaped_new lanes
  closed_eq := rfl
  unreachable_eq := rfl
  lanesInOrder := History.lanesInOrder_new .wraps lanes
  placed _ _ hd := absurd hd List.not_mem_nil
  arrivals_eq := rfl
  perm_told := .nil
  rows_eq := rfl
  founded := founded_nil
  stage _ _ hc := nomatch hc
  stage_none _ _ := ⟨rfl, rfl⟩

variable {d : Dispatch}

/-! ### Turns of the calls -/

/-- What a turn of a call leaves, if it is not over. -/
theorem exists_step_advance {i : Nat} {c : Call} (hc : d.traffic.calls[i]? = some c) {dm : Demand}
    {next : dm.Answer → Program Response} (hp : c.program = .ask dm next) :
    ∃ book notices postings, d.step (.traffic (.advance i)) = { d with
        traffic := {
          site := { d.site with book, backlog := d.site.backlog ++ dm.event?.toList, notices }
          calls := d.traffic.calls.set i
            { c with program := next (dm.perform.run d.site).1 }
          postings }
        deeds := d.deeds ++ ((dm.act? d.site).map (Deed.mk i)).toList
        told := d.told ++ (dm.event?.map (Telling.mk i)).toList } ∧
      book.rows = (dm.act? d.site).toList.foldl Act.apply d.site.book.rows := by
  obtain ⟨book, notices, hperform, hrows⟩ := dm.exists_perform d.site
  refine ⟨book, notices, d.traffic.postings ++ (Traffic.posting? d.site i (.ask dm next)).toList,
    ?_, hrows⟩
  rw [step, Traffic.step_advance_ask hc hp,
    show (dm.perform.run d.traffic.site).2 = _ from hperform]
  simp only [deed?, telling?, hc, Option.bind_some, hp, Program.act?, Program.event?]
  rfl

/-- The rows that a turn pays were recorded by deeds before it. -/
theorem Sound.founded_turn (h : d.Sound) (dm : Demand) (i : Nat) :
    Founded (d.deeds ++ ((dm.act? d.site).map (Deed.mk i)).toList) := by
  cases hact : dm.act? d.site with
  | none =>
    rw [Option.map_none, Option.toList_none, List.append_nil]
    exact h.founded
  | some a =>
    refine h.founded.snoc fun t ht => ?_
    obtain ⟨hrow, huser, hunpaid⟩ := Demand.paid_of_act? hact t ht
    rw [h.rows_eq] at hrow
    exact ⟨huser, List.mem_map.1 (Act.record_mem hrow hunpaid)⟩

theorem Sound.advance (h : d.Sound) {i : Nat} {c : Call} (hc : d.traffic.calls[i]? = some c)
    {dm : Demand} {next : dm.Answer → Program Response} (hp : c.program = .ask dm next) :
    (d.step (.traffic (.advance i))).Sound := by
  obtain ⟨book, notices, postings, hstep, hrows⟩ := exists_step_advance hc hp
  have hi : i < d.traffic.calls.length := (List.getElem?_eq_some_iff.1 hc).1
  have hstage := (hp ▸ h.stage i c hc : Program.Stage (.ask dm next) _ _)
  rw [hstep]
  refine { h with
    perm_told := ?_
    rows_eq := ?_
    founded := h.founded_turn dm i
    stage := fun j c' hc' => ?_
    stage_none := fun j hj => ?_ }
  · show (d.published ++ (d.site.backlog ++ dm.event?.toList)).Perm _
    rw [List.map_append, ← List.append_assoc]
    refine h.perm_told.append (.of_eq ?_)
    cases dm.event? <;> rfl
  · show book.rows = _
    rw [hrows, h.rows_eq, List.map_append, List.foldl_append]
    cases dm.act? d.site <;> rfl
  · rw [actsBy_turn, toldBy_turn]
    by_cases hij : i = j
    · obtain rfl := hij
      rw [List.getElem?_set_self hi] at hc'
      cases hc'
      rw [if_pos rfl, if_pos rfl]
      exact hstage.ask d.site
    · rw [List.getElem?_set_ne hij] at hc'
      rw [if_neg hij, if_neg hij, List.append_nil, List.append_nil]
      exact h.stage j c' hc'
  · have hij : i ≠ j := by
      rintro rfl
      simp [hi] at hj
    rw [List.getElem?_set_ne hij] at hj
    rw [actsBy_turn, toldBy_turn, if_neg hij, if_neg hij, List.append_nil, List.append_nil]
    exact h.stage_none j hj

/-- A turn of a call comes to nothing, or meets a demand. -/
theorem advance_cases (d : Dispatch) (i : Nat) :
    (deed? d.traffic (.advance i) = none ∧ telling? d.traffic (.advance i) = none ∧
      d.traffic.step (.advance i) = d.traffic) ∨
    ∃ (c : Call) (dm : Demand) (next : dm.Answer → Program Response),
      d.traffic.calls[i]? = some c ∧ c.program = .ask dm next := by
  cases hc : d.traffic.calls[i]? with
  | none => exact .inl ⟨by rw [deed?, hc]; rfl, by rw [telling?, hc]; rfl, by rw [Traffic.step, hc]⟩
  | some c =>
    cases hp : c.program with
    | done r =>
      refine .inl ⟨?_, ?_, Traffic.step_advance_done hc hp⟩
      · simp only [deed?, hc, Option.bind_some, hp, Program.act?, Option.map_none]
      · simp only [telling?, hc, Option.bind_some, hp, Program.event?, Option.map_none]
    | ask dm next => exact .inr ⟨c, dm, next, rfl, hp⟩

theorem step_traffic_of_none {s : Traffic.Step} (hdeed : deed? d.traffic s = none)
    (htold : telling? d.traffic s = none) :
    d.step (.traffic s) = { d with traffic := d.traffic.step s } := by
  rw [step, hdeed, htold, Option.toList_none, Option.toList_none, List.append_nil, List.append_nil]

/-- A call that is begun has done nothing yet. -/
theorem Sound.begin (h : d.Sound) (r : Request) : (d.step (.traffic (.begin r))).Sound := by
  let call : Call := ⟨r, r.program d.site.cap⟩
  have hstep : d.step (.traffic (.begin r)) =
      { d with traffic := { d.traffic with calls := d.traffic.calls ++ [call] } } :=
    step_traffic_of_none rfl rfl
  rw [hstep]
  refine { h with stage := fun j c hc => ?_, stage_none := fun j hj => ?_ }
  · rcases Nat.lt_trichotomy j d.traffic.calls.length with hlt | rfl | hlt
    · rw [List.getElem?_append_left hlt] at hc
      exact h.stage j c hc
    · obtain rfl : call = c := by simpa using hc
      obtain ⟨hacts, htold⟩ := h.stage_none _ (List.getElem?_eq_none (Nat.le_refl _))
      show call.program.Stage (d.actsBy _) (d.toldBy _)
      rw [hacts, htold]
      exact .opening (r.opens_program d.site.cap)
    · rw [List.getElem?_eq_none (by simp; omega)] at hc
      contradiction
  · refine h.stage_none j (List.getElem?_eq_none ?_)
    have hle := List.getElem?_eq_none_iff.1 hj
    rw [List.length_append] at hle
    omega

theorem Sound.traffic (h : d.Sound) (s : Traffic.Step) : (d.step (.traffic s)).Sound := by
  cases s with
  | begin r => exact h.begin r
  | setStore down silent =>
    rw [step_traffic_of_none rfl rfl]
    exact { h with }
  | setClock time =>
    rw [step_traffic_of_none rfl rfl]
    exact { h with }
  | advance i =>
    rcases d.advance_cases i with ⟨hdeed, htold, hsame⟩ | ⟨c, dm, next, hc, hp⟩
    · rw [step_traffic_of_none hdeed htold, hsame]
      exact h
    · exact h.advance hc hp

/-! ### Publishing -/

theorem Sound.publish_eq (h : d.Sound) (key : String) (payload : ByteArray) :
    d.site.broker.publish d.site.clock d.site.channel key payload =
      (.ok (d.site.broker.lastId + 1),
        d.site.broker.post d.site.clock d.site.channel key payload) := by
  rw [Broker.publish, if_neg (by simp [h.closed_eq]), if_neg (by simp [h.unreachable_eq])]
  rfl

theorem Sound.perform_publish (h : d.Sound) (key : String) (payload : ByteArray) :
    d.history.perform (.publish d.site.clock d.site.channel key payload) =
      { broker := d.site.broker.post d.site.clock d.site.channel key payload
        past := d.past ++ [.publish d.site.channel
          ⟨d.site.broker.lastId + 1, key, payload, d.site.clock⟩] } := by
  rw [History.perform]
  simp only [history, h.publish_eq]

/-- An announcement that the broker takes succeeds. -/
theorem run_deliver_of_publish {s : Deployment} {channel : String} {e : Event} {id : Int64}
    {b : Broker} (h : s.broker.publish s.clock channel e.user.routingKey e.encode = (.ok id, b)) :
    ∃ notices, (Announcement.deliver channel e : Deployment.Action _).run s =
      (.ok (), { s with broker := b, notices }) := by
  have hpublish : (Transport.publish channel e.user.routingKey e.encode :
      Deployment.Action _).run s = (.ok (), { s with
        broker := b
        notices := Deployment.published b channel e.user.routingKey id :: s.notices }) := by
    show (Deployment.publish channel e.user.routingKey e.encode).run s = _
    unfold Deployment.publish
    rw [Deployment.run_get_bind, h]
    rfl
  unfold Announcement.deliver Announcement.publish
  simp only [Deployment.run_bind, hpublish]
  exact ⟨_, rfl⟩

/-- A task that publishes succeeds. -/
theorem Sound.exists_step_announce (h : d.Sound) {k : Nat} {e : Event}
    (hk : d.site.backlog[k]? = some e) :
    ∃ notices, d.step (.announce k) = { d.withSite { d.site with
        broker := d.site.posted d.site.channel e
        backlog := d.site.backlog.eraseIdx k
        notices } with
      published := d.published ++ [e]
      past := d.past ++ [.publish d.site.channel
        ⟨d.site.broker.lastId + 1, e.user.routingKey, e.encode, d.site.clock⟩] } := by
  obtain ⟨notices, hdeliver⟩ := run_deliver_of_publish
    (s := { d.site with backlog := d.site.backlog.eraseIdx k })
    (h.publish_eq e.user.routingKey e.encode)
  refine ⟨notices, ?_⟩
  rw [step, hk]
  simp only [hdeliver, h.perform_publish]
  rfl

/-- Whatever is asked of the broker, it keeps its shape and the order of its lanes. -/
theorem Sound.keeps_order (h : d.Sound) (op : Operation) :
    (d.history.perform op).broker.Shaped ∧ (d.history.perform op).LanesInOrder .wraps ∧
      (d.history.perform op).Placed :=
  History.perform_keeps (P := fun h => h.broker.Shaped ∧ h.LanesInOrder .wraps ∧ h.Placed)
    (fun hmove ⟨hs, ho, hp⟩ => ⟨hmove.shaped hs, ho.move hs hmove, hp.move hs hmove⟩) op
    ⟨h.shaped, h.lanesInOrder, h.placed⟩

theorem Sound.announce (h : d.Sound) (k : Nat) : (d.step (.announce k)).Sound := by
  cases hk : d.site.backlog[k]? with
  | none =>
    rw [step, hk]
    exact h
  | some e =>
    obtain ⟨notices, hstep⟩ := h.exists_step_announce hk
    obtain ⟨hs, ho, hp⟩ :=
      h.keeps_order (.publish d.site.clock d.site.channel e.user.routingKey e.encode)
    rw [h.perform_publish] at hs ho hp
    rw [hstep]
    refine { h with
      shaped := hs
      lanesInOrder := ho
      placed := hp
      arrivals_eq := ?_
      perm_told := ?_ }
    · have hpublished : (Occurrence.publish d.site.channel ⟨d.site.broker.lastId + 1,
          e.user.routingKey, e.encode, d.site.clock⟩).arrivalsOn d.site.channel = [_] := if_pos rfl
      show ((d.past ++ [_]).flatMap (Occurrence.arrivalsOn d.site.channel)).map _ = _
      rw [List.flatMap_append, List.flatMap_singleton, hpublished, List.map_append, List.map_append]
      exact congrArg (· ++ [(e.user.routingKey, e.encode)]) h.arrivals_eq
    · obtain ⟨hlt, rfl⟩ := List.getElem?_eq_some_iff.1 hk
      refine List.Perm.trans ?_ h.perm_told
      rw [List.append_assoc]
      exact (List.getElem_cons_eraseIdx_perm hlt).append_left d.published

/-! ### Receiving and settling -/

/-- Nothing comes to a channel, and the broker is as open as before. -/
structure LeavesOpen (name : String) (h h' : History) : Prop where
  arrivals_eq : h'.arrivalsOn name = h.arrivalsOn name
  closed_eq : h'.broker.closed = h.broker.closed
  unreachable_eq : h'.broker.unreachable = h.broker.unreachable

theorem leavesOpen_refl (name : String) (h : History) : LeavesOpen name h h := ⟨rfl, rfl, rfl⟩

theorem arrivalsOn_snoc (h : History) {b : Broker} {reserved : List Int64} {name : String}
    {o : Occurrence} (ho : o.arrivalsOn name = []) :
    History.arrivalsOn ⟨b, reserved, h.past ++ [o]⟩ name = h.arrivalsOn name := by
  rw [History.arrivalsOn, List.flatMap_append, List.flatMap_singleton, ho, List.append_nil,
    History.arrivalsOn]

theorem leavesOpen_receive (h : History) (name : String) :
    LeavesOpen name h (h.perform (.receive name)) := by
  rcases h.perform_receive name with heq | heq <;> rw [heq]
  · exact leavesOpen_refl name h
  · rw [History.perform]
    rcases h.broker.take_cases name with htake | ⟨i, m, queue, cursor, -, -, htake⟩ <;> rw [htake]
    · exact leavesOpen_refl name h
    · exact ⟨arrivalsOn_snoc h rfl, rfl, rfl⟩

/-- What is set aside goes to another channel. -/
theorem leavesOpen_settle (h : History) (x : Delivery) (how : Settlement) :
    LeavesOpen x.channel h (h.perform (.settle x how)) := by
  rw [History.perform]
  rcases h.broker.settle_cases x how with ⟨hnone, hsettle⟩ |
    ⟨c, m, queue, cursor, hsome, -, -, -, hsettle⟩ <;> rw [hsettle]
  · rw [hnone]
    exact leavesOpen_refl _ h
  · rw [hsome]
    cases how with
    | acknowledge | requeue => exact ⟨arrivalsOn_snoc h rfl, rfl, rfl⟩
    | setAside reason =>
      exact ⟨arrivalsOn_snoc h (if_neg (setAsideChannel_ne x.channel)), rfl, rfl⟩

theorem Sound.perform (h : d.Sound) {op : Operation}
    (hopen : LeavesOpen d.site.channel d.history (d.history.perform op)) :
    (d.perform op).Sound := by
  obtain ⟨hs, ho, hp⟩ := h.keeps_order op
  exact { h with
    shaped := hs
    closed_eq := hopen.closed_eq.trans h.closed_eq
    unreachable_eq := hopen.unreachable_eq.trans h.unreachable_eq
    lanesInOrder := ho
    placed := hp
    arrivals_eq := (congrArg _ hopen.arrivals_eq).trans h.arrivals_eq }

/-! ### All steps -/

theorem Sound.step (h : d.Sound) (s : Step) : (d.step s).Sound := by
  cases s with
  | traffic s => exact h.traffic s
  | announce k => exact h.announce k
  | receive => exact h.perform (leavesOpen_receive d.history d.site.channel)
  | settle x how => exact h.perform (leavesOpen_settle d.history { x with channel := _ } how)

theorem Sound.run (h : d.Sound) (steps : List Step) : (d.run steps).Sound := by
  induction steps generalizing d with
  | nil => exact h
  | cons s rest ih => exact ih (h.step s)

/-! ### The order of publishing -/

theorem queuedOf_eq (d : Dispatch) (u : UserId) :
    d.queuedOf u = (d.history.arrivalsOn d.site.channel).filter (·.key = u.routingKey) :=
  (d.history.arrivalsOn_key_eq d.site.channel u.routingKey).symm

/-- What is queued under the key of a user is what was published of the user. -/
theorem Sound.queued_eq (h : d.Sound) (u : UserId) :
    (d.queuedOf u).map Letter.payload = (d.publishedOf u).map Event.encode := by
  have hkey (e : Event) : e.user.routingKey = u.routingKey ↔ e.user = u :=
    ⟨UserId.routingKey_inj, congrArg UserId.routingKey⟩
  have harrivals := congrArg (fun l : List (String × ByteArray) =>
    (l.filter (·.1 = u.routingKey)).map (·.2)) h.arrivals_eq
  simp only [List.filter_map, List.map_map, Function.comp_def, hkey] at harrivals
  rw [queuedOf_eq]
  exact harrivals

/-- Of the stays at a lane, those of the messages under one key. -/
theorem exists_stays_ofKey {stays : List Stay} {gone : List Letter}
    (h : List.Forall₂ Stay.Of stays gone) (key : String) :
    ∃ stays', (stays.flatMap Stay.deliveries).filter (·.key = key) =
      stays'.flatMap Stay.deliveries ∧
      List.Forall₂ Stay.Of stays' (gone.filter (·.key = key)) := by
  induction h with
  | nil => exact ⟨[], rfl, .nil⟩
  | @cons s x stays gone hs _ ih =>
    obtain ⟨stays', heq, hstays'⟩ := ih
    have hkey : ∀ y ∈ s.deliveries, y.key = x.key := fun y hy =>
      congrArg Letter.key (hs.letter_eq y hy)
    rw [List.flatMap_cons, List.filter_append, heq]
    by_cases hx : x.key = key
    · refine ⟨s :: stays', ?_, ?_⟩
      · rw [List.flatMap_cons, List.filter_eq_self.2 fun y hy => by simp [hkey y hy, hx]]
      · rw [List.filter_cons_of_pos (by simp [hx])]
        exact .cons hs hstays'
    · refine ⟨stays', ?_, ?_⟩
      · rw [List.filter_eq_nil_iff.2 fun y hy => by simp [hkey y hy, hx], List.nil_append]
      · rw [List.filter_cons_of_neg (by simp [hx])]
        exact hstays'

/-- The stays of a user's messages, in the order in which these were queued. -/
theorem Sound.exists_stays (h : d.Sound) (u : UserId) :
    ∃ stays letters, d.seenOf u = stays.flatMap Stay.deliveries ∧ letters <+: d.queuedOf u ∧
      List.Forall₂ Stay.Of stays letters := by
  obtain ⟨stays, gone, hturns, hgone, hof, -⟩ := (h.lanesInOrder d.site.channel
    (laneOf u.routingKey d.site.broker.lanes).toNat).follows.exists_stays
  obtain ⟨stays', heq, hof'⟩ := exists_stays_ofKey hof u.routingKey
  refine ⟨stays', _, ?_, hgone.filter _, hof'⟩
  rw [← heq, ← Stay.deliveries_flatMap_turns, ← hturns, History.deliveries_turnsAt,
    List.filter_filter, seenOf]
  refine List.filter_congr fun x hx => ?_
  have hlane : (laneOf x.key d.site.broker.lanes).toNat = x.lane.toNat :=
    h.placed d.site.channel x hx
  by_cases hkey : x.key = u.routingKey
  · simp [hkey, ← hlane]
  · simp [hkey]

/-- The message of each stay carries what was queued. -/
theorem forall₂_carries {stays : List Stay} {letters : List Letter} {events : List Event}
    (h : List.Forall₂ Stay.Of stays letters)
    (hevents : letters.map Letter.payload = events.map Event.encode) :
    List.Forall₂ Carries stays events := by
  induction h generalizing events with
  | nil =>
    obtain rfl : events = [] := by simpa using hevents.symm
    exact .nil
  | @cons s x stays letters hs _ ih =>
    cases events with
    | nil => simp at hevents
    | cons e rest =>
      obtain ⟨hpayload, hrest⟩ := List.cons.inj hevents
      refine .cons (fun y hy => ?_) (ih hrest)
      exact (congrArg Letter.payload (hs.letter_eq y hy)).trans hpayload

theorem Sound.exists_stage (h : d.Sound) {i : Nat} (hi : d.actsBy i ≠ [] ∨ d.toldBy i ≠ []) :
    ∃ c : Call, d.traffic.calls[i]? = some c ∧ c.program.Stage (d.actsBy i) (d.toldBy i) := by
  cases hc : d.traffic.calls[i]? with
  | none =>
    obtain ⟨hacts, htold⟩ := h.stage_none i hc
    exact (hi.elim (· hacts) (· htold)).elim
  | some c => exact ⟨c, rfl, h.stage i c hc⟩

theorem mem_actsBy {δ : Deed} (hδ : δ ∈ d.deeds) (htold : δ.act.isTold = true) :
    δ.act ∈ d.actsBy δ.call :=
  List.mem_map_of_mem (List.mem_filter.2 ⟨hδ, decide_eq_true ⟨rfl, htold⟩⟩)

theorem exists_deed_of_mem_actsBy {i : Nat} {a : Act} (ha : a ∈ d.actsBy i) :
    ∃ δ ∈ d.deeds, δ.call = i ∧ δ.act = a ∧ a.isTold = true := by
  obtain ⟨δ, hδ, rfl⟩ := List.mem_map.1 ha
  obtain ⟨hdeed, h⟩ := List.mem_filter.1 hδ
  obtain ⟨hcall, htold⟩ := of_decide_eq_true h
  exact ⟨δ, hdeed, hcall, rfl, htold⟩

theorem mem_toldBy {τ : Telling} (hτ : τ ∈ d.told) : τ.event ∈ d.toldBy τ.call :=
  List.mem_map_of_mem (List.mem_filter.2 ⟨hτ, decide_eq_true rfl⟩)

theorem Sound.told_once (h : d.Sound) {δ : Deed} (hδ : δ ∈ d.deeds)
    (htold : δ.act.isTold = true) :
    (∃ e, d.toldBy δ.call = [e] ∧ δ.act.ToldBy e) ∨ (d.toldBy δ.call = [] ∧
      ∃ c : Call, d.traffic.calls[δ.call]? = some c ∧ c.program.Tells δ.act) := by
  have hmem := mem_actsBy hδ htold
  obtain ⟨c, hc, hstage⟩ := h.exists_stage (.inl (List.ne_nil_of_mem hmem))
  generalize d.actsBy δ.call = acts at hmem hstage
  generalize d.toldBy δ.call = events at hstage ⊢
  cases hstage with
  | opening => contradiction
  | telling htells =>
    obtain rfl := List.mem_singleton.1 hmem
    exact .inr ⟨rfl, c, hc, htells⟩
  | finished hidle he =>
    obtain rfl := List.mem_singleton.1 hmem
    exact .inl ⟨_, rfl, he⟩

theorem Sound.deed_of_told (h : d.Sound) {τ : Telling} (hτ : τ ∈ d.told) :
    ∃ δ ∈ d.deeds, δ.call = τ.call ∧ δ.act.ToldBy τ.event := by
  have hmem := mem_toldBy hτ
  obtain ⟨c, -, hstage⟩ := h.exists_stage (.inr (List.ne_nil_of_mem hmem))
  have hacts (a : Act) : a ∈ d.actsBy τ.call → a.ToldBy τ.event →
      ∃ δ ∈ d.deeds, δ.call = τ.call ∧ δ.act.ToldBy τ.event := by
    intro ha he
    obtain ⟨δ, hδ, hcall, rfl, -⟩ := exists_deed_of_mem_actsBy ha
    exact ⟨δ, hδ, hcall, he⟩
  generalize d.actsBy τ.call = acts at hacts hstage
  generalize d.toldBy τ.call = events at hmem hstage
  cases hstage with
  | opening | telling => contradiction
  | finished hidle he =>
    obtain rfl := List.mem_singleton.1 hmem
    exact hacts _ List.mem_cons_self he

theorem Sound.length_actsBy_le (h : d.Sound) (i : Nat) : (d.actsBy i).length ≤ 1 := by
  cases hc : d.traffic.calls[i]? with
  | none =>
    rw [(h.stage_none i hc).1]
    exact Nat.zero_le 1
  | some c =>
    have hstage := h.stage i c hc
    generalize d.actsBy i = acts at hstage ⊢
    generalize d.toldBy i = events at hstage
    cases hstage with
    | opening => exact Nat.zero_le 1
    | telling | finished => exact Nat.le_refl 1

theorem Sound.delivered (h : d.Sound) (u : UserId) : d.Delivered u where
  rows_eq := h.rows_eq
  length_actsBy_le := h.length_actsBy_le
  told_once _ := h.told_once
  deed_of_told _ := h.deed_of_told
  perm_told := h.perm_told
  queued_eq := h.queued_eq u
  seen := by
    obtain ⟨stays, letters, hseen, hletters, hof⟩ := h.exists_stays u
    refine ⟨stays, (d.publishedOf u).take letters.length, hseen, List.take_prefix .., ?_⟩
    refine forall₂_carries hof ?_
    rw [List.map_take, ← h.queued_eq, ← List.map_take, ← List.prefix_iff_eq_take.1 hletters]

end Dispatch

end SpendingLedger
