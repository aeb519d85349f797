import SpendingLedger.Proofs.Deployment.Messages

/-!
Requests that fail, and announcements that do. A request that ends with an error leaves nothing
behind but notices. What a request comes to, and what it does to the book, is settled before it is
announced: the broker has no part in it, so it makes no difference whether the announcement
succeeds.
-/

namespace SpendingLedger

namespace Deployment

/-! ### The part of the broker -/

/-- The action does the same with any broker, and leaves the broker as it is. -/
def IgnoresBroker {α : Type} (x : Action α) : Prop :=
  ∀ (s : Deployment) (b : Broker),
    x.run { s with broker := b } = ((x.run s).1, { (x.run s).2 with broker := b })

variable {α β : Type} {x : Action α}

theorem IgnoresBroker.bind {f : α → Action β} (hx : IgnoresBroker x)
    (hf : ∀ a, IgnoresBroker (f a)) : IgnoresBroker (x >>= f) := by
  intro s b
  rw [run_bind, run_bind, hx s b]
  exact hf _ _ b

/-- The store looks at the book and the clock. -/
theorem ignoresBroker_reply_consult {call : Deployment → α × Deployment}
    (hcall : ∀ (s : Deployment) (b : Broker),
      call { s with broker := b } = ((call s).1, { (call s).2 with broker := b })) :
    IgnoresBroker (reply (consult call)) := by
  intro s b
  simp only [run_reply, run_consult]
  rw [hcall]
  split
  · rfl
  · split <;> rfl

end Deployment

open Deployment

theorem Demand.ignoresBroker_perform (d : Demand) : IgnoresBroker d.perform := by
  cases d with
  | insert | rowsOf | total | markPaid => exact ignoresBroker_reply_consult fun _ _ => rfl
  | now | announce | report => exact fun _ _ => rfl

theorem Program.ignoresBroker_run {α : Type} (p : Program α) : IgnoresBroker p.run := by
  induction p with
  | done a => exact fun _ _ => rfl
  | ask d next ih => exact d.ignoresBroker_perform.bind ih

namespace Deployment

theorem ignoresBroker_action (cap : Decimal) (r : Request) : IgnoresBroker (r.action cap) := by
  rw [← r.run_program]
  exact Program.ignoresBroker_run _

/-- The announcement of what is in the backlog leaves the book alone, whether it succeeds or not. -/
theorem keepsBook_flush : KeepsBook flush := fun s => (announces_flush s).book_eq

/-- A request that fails changes nothing, and sets off no announcement. What any request comes to,
and the book once the request is announced, are the same with any other broker, be it the one at the
time of the request or the one that is given the announcement. -/
theorem action_all_or_nothing (s : Deployment) (r : Request) :
    (∀ e, ((r.action s.cap).run s).1.error? = some e →
      ∃ notices, ((r.action s.cap).run s).2 = { s with notices }) ∧
    ∀ b : Broker,
      ((r.action s.cap).run { s with broker := b }).1 = ((r.action s.cap).run s).1 ∧
      ∀ b' : Broker, (flush.run { ((r.action s.cap).run { s with broker := b }).2 with
        broker := b' }).2.book = ((r.action s.cap).run s).2.book := by
  refine ⟨fun e he => ?_, fun b => ?_⟩
  · rcases s.action_cases r with ⟨-, -, huntouched⟩ | ⟨hok, -⟩
    · exact huntouched
    · rw [hok] at he
      contradiction
  · rw [ignoresBroker_action s.cap r s b]
    exact ⟨rfl, fun b' => keepsBook_flush _⟩

/-- A transaction over the cap is refused, and nothing is left of it. -/
theorem action_all_or_nothing_over_cap :
    let s := fresh "transactions" 8
    let r : Request := .create {} ⟨1, ⟨false, 100001, 2, by decide, by decide⟩, "rent"⟩
    ((r.action s.cap).run s).1.error? =
        some (.capExceeded .zero ⟨false, 100001, 2, by decide, by decide⟩ defaultCap) ∧
      ∃ notices, ((r.action s.cap).run s).2 = { s with notices } := by
  intro s r
  have hfails : ((r.action s.cap).run s).1.error? =
      some (.capExceeded .zero ⟨false, 100001, 2, by decide, by decide⟩ defaultCap) := by
    decide +kernel
  exact ⟨hfails, (action_all_or_nothing s r).1 _ hfails⟩

end Deployment

end SpendingLedger
