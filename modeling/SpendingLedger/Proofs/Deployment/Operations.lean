import SpendingLedger.Proofs.Accounting.Traffic
import SpendingLedger.Proofs.Book.Announced
import SpendingLedger.Proofs.Broker.Holding

/-!
What operations on the ledger leave behind in a deployment: a book that has changed at most once,
and in the backlog what announces the change. Nothing else is touched but the notices.
-/

namespace SpendingLedger

def Request.action (cap : Decimal) : Request → Deployment.Action Response
  | create context c => .created <$> Accounting.create cap context c
  | list context user => .listed <$> Accounting.list context user
  | pay context user => .paid <$> Accounting.pay context user
  | total context user => .totalled <$> Accounting.total context user

/-- The error that a request ended with, if it did. -/
def Response.error? : Response → Option LedgerError
  | created (.error e) | listed (.error e) | paid (.error e) | totalled (.error e) => some e
  | created (.ok _) | listed (.ok _) | paid (.ok _) | totalled (.ok _) => none

/-- Without a halt, the program of a request is its action. -/
theorem Request.run_program (cap : Decimal) (r : Request) : (r.program cap).run = r.action cap := by
  cases r with
  | create context c => rw [program, Accounting.run_map, Accounting.run_create, action]
  | list context user => rw [program, Accounting.run_map, Accounting.run_list, action]
  | pay context user => rw [program, Accounting.run_map, Accounting.run_pay, action]
  | total context user => rw [program, Accounting.run_map, Accounting.run_total, action]

namespace Deployment

/-- Nothing has changed but the notices. -/
def Untouched (s s' : Deployment) : Prop := ∃ notices, s' = { s with notices }

/-- What an operation may leave of a deployment. -/
def Leaves (s s' : Deployment) : Prop :=
  ∃ book announced notices, s.book.Change s.cap s.clock book announced ∧
    s' = { s with book, backlog := s.backlog ++ announced, notices }

theorem untouched_refl (s : Deployment) : s.Untouched s := ⟨s.notices, rfl⟩

variable {s s' : Deployment}

theorem Untouched.leaves (h : s.Untouched s') : s.Leaves s' := by
  obtain ⟨notices, rfl⟩ := h
  exact ⟨s.book, [], notices, .none, by rw [List.append_nil]⟩

/-- What an operation may come to: an error, and nothing is touched, or a result, and what it may
leave. -/
def AllOrNothing {α : Type} (s : Deployment) : Except LedgerError α × Deployment → Prop
  | (.error _, s') => s.Untouched s'
  | (.ok _, s') => s.Leaves s'

theorem allOrNothing_refl {α : Type} (s : Deployment) (r : Except LedgerError α) :
    s.AllOrNothing (r, s) := by
  cases r with
  | error e => exact s.untouched_refl
  | ok a => exact s.untouched_refl.leaves

theorem allOrNothing_create (s : Deployment) (context : Context) (c : Command) :
    s.AllOrNothing ((Accounting.create (m := Action) s.cap context c).run s) := by
  unfold Accounting.create
  cases Accounting.entryOf context c with
  | error e => exact s.untouched_refl
  | ok entry =>
    simp only [run_bind]
    rcases s.run_insert entry s.cap with ⟨-, h⟩ | ⟨-, h | h⟩ <;> rw [h]
    · rcases s.book.insert_cases s.clock entry s.cap with ⟨newTotal, hadd, hins⟩ | hins <;>
        rw [hins]
      · exact ⟨_, _, _, .record entry newTotal hadd, rfl⟩
      · exact ⟨_, rfl⟩
    · simp only [Accounting.within]
      cases context.budget <;> exact s.untouched_refl
    · exact s.untouched_refl

theorem allOrNothing_list (s : Deployment) (context : Context) (user : Int64) :
    s.AllOrNothing ((Accounting.list (m := Action) context user).run s) := by
  unfold Accounting.list
  cases Accounting.subject context user with
  | error e => exact s.untouched_refl
  | ok u =>
    simp only [run_bind, run_rowsOf_snd]
    exact s.allOrNothing_refl _

theorem allOrNothing_total (s : Deployment) (context : Context) (user : Int64) :
    s.AllOrNothing ((Accounting.total (m := Action) context user).run s) := by
  unfold Accounting.total
  cases Accounting.subject context user with
  | error e => exact s.untouched_refl
  | ok u =>
    simp only [run_bind, run_total_snd]
    exact s.allOrNothing_refl _

theorem allOrNothing_pay (s : Deployment) (context : Context) (user : Int64) :
    s.AllOrNothing ((Accounting.pay (m := Action) context user).run s) := by
  unfold Accounting.pay
  cases Accounting.subject context user with
  | error e => exact s.untouched_refl
  | ok u =>
    simp only [run_bind]
    rcases s.run_markPaid u with ⟨-, h⟩ | ⟨-, h | h⟩ <;> rw [h]
    · have hchange : Book.Change s.cap s.clock s.book _ _ := .pay u
      simp only [Accounting.within]
      by_cases hpos : 0 < (s.book.markPaid u).1
      · simp only [hpos, ↓reduceIte] at hchange ⊢
        exact ⟨_, _, _, hchange, rfl⟩
      · simp only [hpos, ↓reduceIte] at hchange ⊢
        exact ⟨_, _, _, hchange, by rw [List.append_nil]⟩
    · simp only [Accounting.within]
      cases context.budget <;> exact s.untouched_refl
    · exact s.untouched_refl

/-- The same for the response that is made of the result. -/
theorem AllOrNothing.respond {α : Type} {x : Except LedgerError α × Deployment}
    (h : s.AllOrNothing x) {f : Except LedgerError α → Response}
    (herror : ∀ e, (f (.error e)).error? = some e) (hok : ∀ a, (f (.ok a)).error? = none) :
    (∃ e, (f x.1).error? = some e ∧ s.Untouched x.2) ∨
      ((f x.1).error? = none ∧ s.Leaves x.2) := by
  obtain ⟨e | a, s'⟩ := x
  · exact .inl ⟨e, herror e, h⟩
  · exact .inr ⟨hok a, h⟩

/-- A request fails and touches nothing, or comes to at most one change, which is announced. -/
theorem action_cases (s : Deployment) (r : Request) :
    (∃ e, ((r.action s.cap).run s).1.error? = some e ∧ s.Untouched ((r.action s.cap).run s).2) ∨
      (((r.action s.cap).run s).1.error? = none ∧ s.Leaves ((r.action s.cap).run s).2) := by
  cases r with
  | create context c =>
    exact (s.allOrNothing_create context c).respond (f := .created) (fun _ => rfl) fun _ => rfl
  | list context user =>
    exact (s.allOrNothing_list context user).respond (f := .listed) (fun _ => rfl) fun _ => rfl
  | pay context user =>
    exact (s.allOrNothing_pay context user).respond (f := .paid) (fun _ => rfl) fun _ => rfl
  | total context user =>
    exact (s.allOrNothing_total context user).respond (f := .totalled) (fun _ => rfl) fun _ => rfl

/-- Whatever is asked for, at most one change comes of it, and is announced. -/
theorem leaves_action (s : Deployment) (r : Request) :
    s.Leaves ((r.action s.cap).run s).2 := by
  rcases s.action_cases r with ⟨e, -, h⟩ | ⟨-, h⟩
  · exact h.leaves
  · exact h

end Deployment

end SpendingLedger
