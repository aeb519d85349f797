import SpendingLedger.Proofs.Accounting.Traffic
import SpendingLedger.Proofs.Book.Announced

/-!
What a request does to the rows on record, and what it announces. It acts on the rows once at most,
and at a later turn announces what tells of that. Between the two turns anything may happen, so the
order of acting need not be the order of announcing.
-/

namespace SpendingLedger

/-- Something done to the rows on record. -/
inductive Act where
  | record (t : Transaction)
  /-- All unpaid rows of a user turn to paid; these rows as they were before. -/
  | pay (u : UserId) (rows : List Transaction)
deriving DecidableEq

namespace Act

def user : Act → UserId
  | record t => t.user
  | pay u _ => u

/-- The rows that turn to paid, as they were before. -/
def paid : Act → List Transaction
  | record _ => []
  | pay _ rows => rows

/-- The rows afterwards, newest first. -/
def apply (rows : List Transaction) : Act → List Transaction
  | record t => t :: rows
  | pay u _ => (Book.markPaid { rows } u).2.rows

/-- Whether an act is announced. A payment of nothing is not. -/
def isTold : Act → Bool
  | record _ => true
  | pay _ rows => 0 < UInt64.ofNat rows.length

/-- The event tells of the act. -/
def ToldBy (e : Event) : Act → Prop
  | record t => ∃ now, e = .ofTransaction t now
  | pay u rows => ∃ now, e = .paid u (UInt64.ofNat rows.length) now

/-- A row that is unpaid was recorded as it is. -/
theorem record_mem {acts : List Act} {t : Transaction} (ht : t ∈ acts.foldl apply [])
    (hunpaid : t.isPaid = false) : record t ∈ acts := by
  induction acts using List.reverseRecOn with
  | nil => contradiction
  | append_singleton acts a ih =>
    rw [List.foldl_append] at ht
    cases a with
    | record t' =>
      rcases List.mem_cons.1 ht with rfl | ht
      · exact List.mem_append_right _ List.mem_cons_self
      · exact List.mem_append_left _ (ih ht)
    | pay u rows =>
      obtain ⟨t', ht', hturn⟩ := List.mem_map.1 ht
      split at hturn
      · rw [← hturn] at hunpaid
        contradiction
      · exact List.mem_append_left _ (ih (hturn ▸ ht'))

theorem ToldBy.user_eq {a : Act} {e : Event} (h : a.ToldBy e) : e.user = a.user := by
  cases a <;> obtain ⟨now, rfl⟩ := h <;> rfl

end Act

/-! ### Demands -/

namespace Demand

/-- What meeting a demand does to the rows. -/
def act? (s : Deployment) : Demand → Option Act
  | insert e cap =>
    if s.storeUp then
      match (s.book.insert s.clock e cap).1 with
      | .recorded t _ => some (.record t)
      | .capExceeded _ => none
    else none
  | markPaid u =>
    if s.storeUp then some (.pay u (s.book.rows.filter (fun t => Book.IsUnpaidOf u t))) else none
  | _ => none

/-- The event that meeting a demand announces. -/
def event? : Demand → Option Event
  | announce e => some e
  | _ => none

/-- Whether meeting a demand does nothing to the rows and announces nothing. -/
def IsIdle (d : Demand) : Prop := d.event? = none ∧ ∀ s, d.act? s = none

/-- The rows that are paid are on record and unpaid, and belong to the user. -/
theorem paid_of_act? {d : Demand} {s : Deployment} {a : Act} (ha : d.act? s = some a) :
    ∀ t ∈ a.paid, t ∈ s.book.rows ∧ t.user = a.user ∧ t.isPaid = false := by
  intro t ht
  cases d with
  | insert e cap =>
    rw [act?] at ha
    split at ha
    · split at ha
      · cases ha
        contradiction
      · contradiction
    · contradiction
  | markPaid u =>
    rw [act?] at ha
    split at ha
    · cases ha
      obtain ⟨hrow, hunpaid⟩ := List.mem_filter.1 ht
      exact ⟨hrow, of_decide_eq_true hunpaid⟩
    · contradiction
  | _ => contradiction

/-- Meeting a demand changes the rows by what it does to them, and announces its event; all else in
a deployment stays, but for the totals in the book and the notices. -/
theorem exists_perform (d : Demand) (s : Deployment) :
    ∃ book notices, (d.perform.run s).2 =
        { s with book, backlog := s.backlog ++ d.event?.toList, notices } ∧
      book.rows = (d.act? s).toList.foldl Act.apply s.book.rows := by
  have hsame : s = { s with book := s.book, backlog := s.backlog ++ [], notices := s.notices } := by
    rw [List.append_nil]
  cases d with
  | now => exact ⟨s.book, s.notices, hsame, rfl⟩
  | announce e => exact ⟨s.book, s.notices, rfl, rfl⟩
  | report n =>
    exact ⟨s.book, n :: s.notices, congrArg (fun s => { s with notices := n :: s.notices }) hsame,
      rfl⟩
  | rowsOf u => exact ⟨s.book, s.notices, (s.run_rowsOf_snd u).trans hsame, rfl⟩
  | total u => exact ⟨s.book, s.notices, (s.run_total_snd u).trans hsame, rfl⟩
  | insert e cap =>
    rcases s.run_insert e cap with ⟨hup, h⟩ | ⟨hup, h⟩
    · refine ⟨(s.book.insert s.clock e cap).2, s.notices, ?_, ?_⟩
      · rw [show (insert e cap).perform.run s = _ from h]
        exact congrArg (fun s' => { s' with book := (s.book.insert s.clock e cap).2 }) hsame
      · rw [act?, if_pos hup]
        rcases s.book.insert_cases s.clock e cap with ⟨newTotal, -, hins⟩ | hins <;> rw [hins]
        · rfl
        · rfl
    · refine ⟨s.book, s.notices, ?_, by rw [act?, hup]; rfl⟩
      rcases h with h | h <;> rw [show (insert e cap).perform.run s = _ from h]
      · exact hsame
      · exact hsame
  | markPaid u =>
    rcases s.run_markPaid u with ⟨hup, h⟩ | ⟨hup, h⟩
    · refine ⟨(s.book.markPaid u).2, s.notices, ?_, by rw [act?, if_pos hup]; rfl⟩
      rw [show (markPaid u).perform.run s = _ from h]
      exact congrArg (fun s' => { s' with book := (s.book.markPaid u).2 }) hsame
    · refine ⟨s.book, s.notices, ?_, by rw [act?, hup]; rfl⟩
      rcases h with h | h <;> rw [show (markPaid u).perform.run s = _ from h]
      · exact hsame
      · exact hsame

end Demand

/-! ### Programs -/

namespace Program

variable {α β : Type}

/-- What the next turn of a program does to the rows. -/
def act? (s : Deployment) : Program α → Option Act
  | done _ => none
  | ask d _ => d.act? s

/-- The event that the next turn of a program announces. -/
def event? : Program α → Option Event
  | done _ => none
  | ask d _ => d.event?

/-- A program neither acts nor announces any more. -/
inductive Idle : Program α → Prop
  | done (a : α) : Idle (done a)
  | ask {d : Demand} {next : d.Answer → Program α} (hd : d.IsIdle) (h : ∀ r, Idle (next r)) :
    Idle (ask d next)

/-- A program is yet to announce, once, what tells of an act, and does not act any more. -/
inductive Tells (a : Act) : Program α → Prop
  | later {d : Demand} {next : d.Answer → Program α} (hd : d.IsIdle) (h : ∀ r, Tells a (next r)) :
    Tells a (ask d next)
  | now {e : Event} {next : (Demand.announce e).Answer → Program α} (he : a.ToldBy e)
      (h : ∀ r, Idle (next r)) : Tells a (ask (.announce e) next)

/-- What a program does after a turn in which it may have acted: it announces the act, if this is
one to announce. -/
def Follows : Option Act → Program α → Prop
  | some a, p => p.Tells a
  | none, p => p.Idle

/-- A program acts once at most, and then announces the act. -/
inductive Opens : Program α → Prop
  | idle {p : Program α} (h : p.Idle) : Opens p
  | ask {d : Demand} {next : d.Answer → Program α} (hd : d.event? = none)
      (h : ∀ s, Follows ((d.act? s).filter Act.isTold) (next (d.perform.run s).1)) :
    Opens (ask d next)

theorem Idle.map {p : Program α} (h : p.Idle) (f : α → β) : (f <$> p).Idle := by
  induction h with
  | done a => exact .done (f a)
  | ask hd _ ih => exact .ask hd ih

theorem Tells.map {a : Act} {p : Program α} (h : p.Tells a) (f : α → β) : (f <$> p).Tells a := by
  induction h with
  | later hd _ ih => exact .later hd ih
  | now he h => exact .now he fun r => (h r).map f

theorem Follows.map {a : Option Act} {p : Program α} (h : Follows a p) (f : α → β) :
    Follows a (f <$> p) := by
  cases a with
  | none => exact Idle.map h f
  | some a => exact Tells.map h f

theorem Opens.map {p : Program α} (h : p.Opens) (f : α → β) : (f <$> p).Opens := by
  cases h with
  | idle h => exact .idle (h.map f)
  | ask hd h => exact .ask hd fun s => (h s).map f

/-- Where a program stands that has done these acts and announced these events. -/
inductive Stage (p : Program α) : List Act → List Event → Prop
  | opening (h : p.Opens) : Stage p [] []
  | telling {a : Act} (h : p.Tells a) : Stage p [a] []
  | finished {a : Act} {e : Event} (h : p.Idle) (he : a.ToldBy e) : Stage p [a] [e]

end Program

/-! ### Requests -/

namespace Accounting

open Program

theorem isIdle_report (n : Notice) : (Demand.report n).IsIdle := ⟨rfl, fun _ => rfl⟩

theorem isIdle_now : Demand.now.IsIdle := ⟨rfl, fun _ => rfl⟩

theorem exists_within_silent (γ : Type) (context : Context) :
    ∃ e, within context (.silent : StoreReply γ) = .error e := by
  rw [within]
  cases context.budget <;> exact ⟨_, rfl⟩

theorem opens_create (cap : Decimal) (context : Context) (c : Command) :
    (create (m := Program) cap context c).Opens := by
  unfold create
  cases entryOf context c with
  | error e => exact .idle (.done _)
  | ok entry =>
    refine .ask (d := .insert entry cap) rfl fun s => ?_
    rcases s.run_insert entry cap with ⟨hup, h⟩ | ⟨hup, h⟩
    · rw [show (Demand.insert entry cap).perform.run s = _ from h, Demand.act?, if_pos hup]
      rcases s.book.insert_cases s.clock entry cap with ⟨newTotal, -, hins⟩ | hins <;> rw [hins]
      · exact Tells.later (isIdle_report _) fun _ => .later isIdle_now fun now =>
          .now ⟨now, rfl⟩ fun _ => .done _
      · exact Idle.ask (isIdle_report _) fun _ => .done _
    · rw [Demand.act?, hup]
      rcases h with h | h <;> rw [show (Demand.insert entry cap).perform.run s = _ from h]
      · obtain ⟨e, he⟩ := exists_within_silent Insertion context
        simp only [Program.bind, he]
        exact Idle.done _
      · exact Idle.done _

theorem opens_pay (context : Context) (user : Int64) :
    (pay (m := Program) context user).Opens := by
  unfold pay
  cases subject context user with
  | error e => exact .idle (.done _)
  | ok u =>
    refine .ask (d := .markPaid u) rfl fun s => ?_
    rcases s.run_markPaid u with ⟨hup, h⟩ | ⟨hup, h⟩
    · rw [show (Demand.markPaid u).perform.run s = _ from h, Demand.act?, if_pos hup]
      simp only [Program.bind, within, Option.filter_some, Act.isTold, Book.markPaid,
        List.countP_eq_length_filter, decide_eq_true_eq]
      by_cases hpos : 0 < UInt64.ofNat (s.book.rows.filter fun t => Book.IsUnpaidOf u t).length
      · rw [if_pos hpos, if_pos hpos]
        exact Tells.later (isIdle_report _) fun _ => .later isIdle_now fun now =>
          .now ⟨now, rfl⟩ fun _ => .done _
      · rw [if_neg hpos, if_neg hpos]
        exact Idle.ask (isIdle_report _) fun _ => .done _
    · rw [Demand.act?, hup]
      rcases h with h | h <;> rw [show (Demand.markPaid u).perform.run s = _ from h]
      · obtain ⟨e, he⟩ := exists_within_silent UInt64 context
        simp only [Program.bind, he]
        exact Idle.done _
      · exact Idle.done _

theorem opens_list (context : Context) (user : Int64) :
    (list (m := Program) context user).Opens := by
  unfold list
  cases subject context user with
  | error e => exact .idle (.done _)
  | ok u => exact .idle (.ask ⟨rfl, fun _ => rfl⟩ fun _ => .done _)

theorem opens_total (context : Context) (user : Int64) :
    (total (m := Program) context user).Opens := by
  unfold total
  cases subject context user with
  | error e => exact .idle (.done _)
  | ok u => exact .idle (.ask ⟨rfl, fun _ => rfl⟩ fun _ => .done _)

end Accounting

theorem Request.opens_program (cap : Decimal) (r : Request) : (r.program cap).Opens := by
  cases r with
  | create context c => exact (Accounting.opens_create cap context c).map _
  | list context user => exact (Accounting.opens_list context user).map _
  | pay context user => exact (Accounting.opens_pay context user).map _
  | total context user => exact (Accounting.opens_total context user).map _

namespace Program.Stage

variable {α : Type} {acts : List Act} {events : List Event}

/-- A turn is idle, or the one in which a program may act, or the one in which it announces. -/
theorem ask_cases {d : Demand} {next : d.Answer → Program α} (h : Stage (.ask d next) acts events) :
    (d.IsIdle ∧ ∀ r, Stage (next r) acts events) ∨
    (acts = [] ∧ events = [] ∧ d.event? = none ∧
      ∀ s, Follows ((d.act? s).filter Act.isTold) (next (d.perform.run s).1)) ∨
    ∃ a e, acts = [a] ∧ events = [] ∧ d = .announce e ∧ a.ToldBy e ∧ ∀ r, (next r).Idle := by
  cases h with
  | opening h =>
    cases h with
    | idle h =>
      cases h with
      | ask hd h => exact .inl ⟨hd, fun r => .opening (.idle (h r))⟩
    | ask hd h => exact .inr (.inl ⟨rfl, rfl, hd, h⟩)
  | telling h =>
    cases h with
    | later hd h => exact .inl ⟨hd, fun r => .telling (h r)⟩
    | now he h => exact .inr (.inr ⟨_, _, rfl, rfl, rfl, he, h⟩)
  | finished h he =>
    cases h with
    | ask hd h => exact .inl ⟨hd, fun r => .finished (h r) he⟩

/-- A turn adds what it does and announces to what the program has done and announced. -/
theorem ask {d : Demand} {next : d.Answer → Program α} (h : Stage (.ask d next) acts events)
    (s : Deployment) : Stage (next (d.perform.run s).1)
      (acts ++ ((d.act? s).filter Act.isTold).toList) (events ++ d.event?.toList) := by
  rcases h.ask_cases with ⟨hd, hnext⟩ | ⟨rfl, rfl, hevent, hnext⟩ | ⟨a, e, rfl, rfl, rfl, he, hnext⟩
  · rw [hd.1, hd.2 s, Option.filter_none, Option.toList_none, Option.toList_none, List.append_nil,
      List.append_nil]
    exact hnext _
  · have hfollows := hnext s
    rw [hevent]
    cases hact : (d.act? s).filter Act.isTold with
    | none =>
      rw [hact] at hfollows
      exact .opening (.idle hfollows)
    | some a =>
      rw [hact] at hfollows
      exact .telling hfollows
  · exact .finished (hnext _) he

/-- A program whose next turn acts has not acted before, and announces nothing with that turn. -/
theorem of_act?_eq_some {d : Demand} {next : d.Answer → Program α}
    (h : Stage (.ask d next) acts events) {s : Deployment} {a : Act} (ha : d.act? s = some a) :
    acts = [] ∧ events = [] ∧ d.event? = none := by
  rcases h.ask_cases with ⟨hd, -⟩ | ⟨hacts, hevents, hevent, -⟩ | ⟨b, e, -, -, rfl, -⟩
  · rw [hd.2 s] at ha
    contradiction
  · exact ⟨hacts, hevents, hevent⟩
  · contradiction

/-- A program whose next turn announces an event has acted once and announced nothing before, and
the event tells of the act. -/
theorem of_event?_eq_some {d : Demand} {next : d.Answer → Program α}
    (h : Stage (.ask d next) acts events) {e : Event} (he : d.event? = some e) :
    ∃ a, acts = [a] ∧ events = [] ∧ a.ToldBy e := by
  rcases h.ask_cases with ⟨hd, -⟩ | ⟨-, -, hevent, -⟩ | ⟨a, e, hacts, hevents, rfl, htold, -⟩
  · rw [hd.1] at he
    contradiction
  · rw [hevent] at he
    contradiction
  · cases he
    exact ⟨a, hacts, hevents, htold⟩

end Program.Stage

end SpendingLedger
