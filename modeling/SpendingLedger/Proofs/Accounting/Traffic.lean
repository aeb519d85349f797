import SpendingLedger.Proofs.Accounting.Program
import SpendingLedger.Proofs.Deployment.Store

/-!
Operations under way at one site. Any number of them may be begun at any time and take turns in any
order, one demand at a turn, while the store goes down and comes back. Each time the store is asked
to insert an entry, a posting keeps the call that asked, the entry, whether the store was up, and
its reply.
-/

namespace SpendingLedger

inductive Request where
  | create (context : Context) (c : Command)
  | list (context : Context) (user : Int64)
  | pay (context : Context) (user : Int64)
  | total (context : Context) (user : Int64)

inductive Response where
  | created (r : Except LedgerError Transaction)
  | listed (r : Except LedgerError (List Transaction))
  | paid (r : Except LedgerError Payment)
  | totalled (r : Except LedgerError Decimal)

def Request.program (cap : Decimal) : Request → Program Response
  | create context c => .created <$> Accounting.create cap context c
  | list context user => .listed <$> Accounting.list context user
  | pay context user => .paid <$> Accounting.pay context user
  | total context user => .totalled <$> Accounting.total context user

/-- A request is over at once, or is one to record and asks the store to insert the entry, or asks
for something else. Having asked, it leaves the store alone and is over after three more turns. -/
theorem Request.program_cases (cap : Decimal) (r : Request) :
    ((∃ response, r.program cap = .done response) ∧
      ∀ context c entry, r = .create context c → Accounting.entryOf context c ≠ .ok entry) ∨
    (∃ context c entry next, r = .create context c ∧ Accounting.entryOf context c = .ok entry ∧
      r.program cap = .ask (.insert entry cap) next ∧ ∀ reply,
        (next reply).Yields (.created (Accounting.createdFrom cap context entry reply)) ∧
        (next reply).EndsWithin 3) ∨
    ((∀ context c, r ≠ .create context c) ∧ ∃ d next, r.program cap = .ask d next ∧
      (∀ e cap, d ≠ .insert e cap) ∧
      ∀ reply, ∃ response, (next reply).Yields response ∧ (next reply).EndsWithin 3) := by
  cases r with
  | create context c =>
    rcases Accounting.create_program cap context c with ⟨e, he, h⟩ | ⟨entry, next, he, h, hnext⟩
    · refine .inl ⟨⟨.created (.error e), by rw [program, h]; rfl⟩, ?_⟩
      rintro _ _ entry ⟨⟩ he'
      rw [he] at he'
      contradiction
    · exact .inr (.inl ⟨context, c, entry, fun reply => .created <$> next reply, rfl, he,
        by rw [program, h]; rfl, fun reply => ⟨(hnext reply).1.map _, (hnext reply).2.map _⟩⟩)
  | list context user =>
    rcases Accounting.list_program context user with ⟨e, h⟩ | ⟨u, next, h, hnext⟩
    · exact .inl ⟨⟨.listed (.error e), by rw [program, h]; rfl⟩, by rintro _ _ _ ⟨⟩⟩
    · refine .inr (.inr ⟨by rintro _ _ ⟨⟩, _, fun reply => .listed <$> next reply,
        by rw [program, h]; rfl, by rintro _ _ ⟨⟩, fun reply => ?_⟩)
      obtain ⟨response, hy, hn⟩ := hnext reply
      exact ⟨_, hy.map _, hn.map _⟩
  | pay context user =>
    rcases Accounting.pay_program context user with ⟨e, h⟩ | ⟨u, next, h, hnext⟩
    · exact .inl ⟨⟨.paid (.error e), by rw [program, h]; rfl⟩, by rintro _ _ _ ⟨⟩⟩
    · refine .inr (.inr ⟨by rintro _ _ ⟨⟩, _, fun reply => .paid <$> next reply,
        by rw [program, h]; rfl, by rintro _ _ ⟨⟩, fun reply => ?_⟩)
      obtain ⟨response, hy, hn⟩ := hnext reply
      exact ⟨_, hy.map _, hn.map _⟩
  | total context user =>
    rcases Accounting.total_program context user with ⟨e, h⟩ | ⟨u, next, h, hnext⟩
    · exact .inl ⟨⟨.totalled (.error e), by rw [program, h]; rfl⟩, by rintro _ _ _ ⟨⟩⟩
    · refine .inr (.inr ⟨by rintro _ _ ⟨⟩, _, fun reply => .totalled <$> next reply,
        by rw [program, h]; rfl, by rintro _ _ ⟨⟩, fun reply => ?_⟩)
      obtain ⟨response, hy, hn⟩ := hnext reply
      exact ⟨_, hy.map _, hn.map _⟩

/-! ### Demands on the store -/

namespace Demand

theorem IsAside.ne_insert {d : Demand} (h : d.IsAside) : ∀ e cap, d ≠ insert e cap := by
  rintro e cap rfl
  exact h

/-- Every other demand leaves the book as it is, or pays in it. -/
theorem perform_of_ne_insert {d : Demand} (hd : ∀ e cap, d ≠ insert e cap) (s : Deployment) :
    (d.perform.run s).2.cap = s.cap ∧ ((d.perform.run s).2.book = s.book ∨
      ∃ u, (d.perform.run s).2.book = (s.book.markPaid u).2) := by
  cases d with
  | insert e cap => exact absurd rfl (hd e cap)
  | now | announce _ | report _ => exact ⟨rfl, .inl rfl⟩
  | rowsOf u =>
    have h := s.run_rowsOf_snd u
    exact ⟨congrArg Deployment.cap h, .inl (congrArg Deployment.book h)⟩
  | total u =>
    have h := s.run_total_snd u
    exact ⟨congrArg Deployment.cap h, .inl (congrArg Deployment.book h)⟩
  | markPaid u =>
    rcases s.run_markPaid u with ⟨-, h⟩ | ⟨-, h | h⟩ <;>
      rw [show (markPaid u).perform.run s = _ from h]
    · exact ⟨rfl, .inr ⟨u, rfl⟩⟩
    · exact ⟨rfl, .inl rfl⟩
    · exact ⟨rfl, .inl rfl⟩

end Demand

/-! ### Steps -/

structure Call where
  request : Request
  program : Program Response

/-- What came of asking the store to insert an entry. -/
structure Posting where
  call : Nat
  entry : Entry
  available : Bool
  reply : StoreReply Insertion

/-- A site with the calls under way, in the order in which they were begun, and its postings, oldest
first. -/
structure Traffic where
  site : Deployment
  calls : List Call := []
  postings : List Posting := []

namespace Traffic

inductive Step where
  | begin (r : Request)
  /-- Meets the next demand of a call. -/
  | advance (i : Nat)
  | setStore (down silent : Bool)
  | setClock (t : Timestamp)

/-- The posting that the next turn of call `i` leaves behind, if it asks for an insertion. -/
def posting? (s : Deployment) (i : Nat) : Program Response → Option Posting
  | .ask (.insert e cap) _ =>
    some ⟨i, e, s.storeUp, ((Demand.insert e cap).perform.run s).1⟩
  | _ => none

def step (t : Traffic) : Step → Traffic
  | .begin r => { t with calls := t.calls ++ [⟨r, r.program t.site.cap⟩] }
  | .advance i =>
    match t.calls[i]? with
    | none => t
    | some c =>
      { site := (c.program.step.run t.site).2
        calls := t.calls.set i { c with program := (c.program.step.run t.site).1 }
        postings := t.postings ++ (posting? t.site i c.program).toList }
  | .setStore down silent =>
    { t with site := { t.site with storeDown := down, storeSilent := silent } }
  | .setClock time => { t with site := { t.site with clock := time } }

def run (t : Traffic) (steps : List Step) : Traffic := steps.foldl step t

theorem step_advance_done {t : Traffic} {i : Nat} {c : Call} (hc : t.calls[i]? = some c)
    {r : Response} (hp : c.program = .done r) : t.step (.advance i) = t := by
  obtain ⟨hi, hget⟩ := List.getElem?_eq_some_iff.1 hc
  obtain ⟨request, program⟩ := c
  obtain rfl : program = .done r := hp
  simp only [step, hc, Program.run_step_done, posting?, Option.toList_none, List.append_nil]
  rw [← hget, List.set_getElem_self]

theorem step_advance_ask {t : Traffic} {i : Nat} {c : Call} (hc : t.calls[i]? = some c)
    {d : Demand} {next : d.Answer → Program Response} (hp : c.program = .ask d next) :
    t.step (.advance i) =
      { site := (d.perform.run t.site).2
        calls := t.calls.set i { c with program := next (d.perform.run t.site).1 }
        postings := t.postings ++ (posting? t.site i (.ask d next)).toList } := by
  simp only [step, hc, hp, Program.run_step_ask]

theorem posting?_eq_none {d : Demand} (hd : ∀ e cap, d ≠ .insert e cap) (s : Deployment) (i : Nat)
    (next : d.Answer → Program Response) : posting? s i (.ask d next) = none := by
  cases d with
  | insert e cap => exact absurd rfl (hd e cap)
  | _ => rfl

theorem run_induction {P : Traffic → Prop} {t : Traffic} (h₀ : P t)
    (hstep : ∀ t s, P t → P (t.step s)) (steps : List Step) : P (t.run steps) := by
  induction steps generalizing t with
  | nil => exact h₀
  | cons s rest ih => exact ih (hstep t s h₀)

end Traffic

end SpendingLedger
