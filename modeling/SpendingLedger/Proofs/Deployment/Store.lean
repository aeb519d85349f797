import SpendingLedger.Deployment.Basic

/-!
A fresh deployment, and what the calls of the ledger to the store do to a deployment. A store that
is silent or down changes nothing; one that is up gives the answer of the book.
-/

namespace SpendingLedger.Deployment

/-- A deployment under the cap of production, before anything has happened. -/
def fresh (channel : String) (lanes : UInt32) : Deployment where
  channel
  cap := defaultCap
  policy := .standard
  budget := .ofMillis 5000
  clock := default
  broker := .new lanes

theorem run_bind {α β : Type} (x : Action α) (f : α → Action β) (s : Deployment) :
    (x >>= f).run s = (f (x.run s).1).run (x.run s).2 := rfl

theorem run_get_bind {β : Type} (f : Deployment → Action β) (s : Deployment) :
    (get >>= f).run s = (f s).run s := rfl

/-- Whether the store takes calls and answers them. -/
def storeUp (s : Deployment) : Bool := !s.storeDown && !s.storeSilent

theorem run_consult {α : Type} (call : Deployment → α × Deployment) (s : Deployment) :
    (consult call).run s =
      if s.storeDown then (.error .unavailable, s) else (.ok (call s).1, (call s).2) := by
  simp only [consult, run_get_bind]
  cases s.storeDown <;> rfl

theorem run_reply {α : Type} (call : Action (Except StoreFault α)) (s : Deployment) :
    (reply call).run s =
      if s.storeSilent then (.silent, s) else (.answered (call.run s).1, (call.run s).2) := by
  simp only [reply, run_get_bind]
  cases s.storeSilent <;> rfl

/-- A store that is up gives the answer of the book; one that is not gives no answer or refuses, and
nothing changes. -/
theorem run_reply_consult {α : Type} (call : Deployment → α × Deployment) (s : Deployment) :
    (s.storeUp = true ∧
      (reply (consult call)).run s = (.answered (.ok (call s).1), (call s).2)) ∨
    (s.storeUp = false ∧ ((reply (consult call)).run s = (.silent, s) ∨
      (reply (consult call)).run s = (.answered (.error .unavailable), s))) := by
  rw [run_reply, run_consult, storeUp]
  cases s.storeSilent with
  | true => exact .inr ⟨Bool.and_false _, .inl rfl⟩
  | false =>
    cases s.storeDown with
    | true => exact .inr ⟨rfl, .inr rfl⟩
    | false => exact .inl ⟨rfl, rfl⟩

theorem run_reply_consult_snd {α : Type} {call : Deployment → α × Deployment}
    (hcall : ∀ s, (call s).2 = s) (s : Deployment) :
    ((reply (consult call)).run s).2 = s := by
  rcases run_reply_consult call s with ⟨-, h⟩ | ⟨-, h | h⟩ <;> rw [h]
  exact hcall s

/-! ### Calls of the ledger -/

/-- An insertion is answered by the book if the store is up, and changes nothing otherwise. -/
theorem run_insert (s : Deployment) (e : Entry) (cap : Decimal) :
    (s.storeUp = true ∧ (Bookkeeping.insert e cap : Action _).run s =
      (.answered (.ok (s.book.insert s.clock e cap).1),
        { s with book := (s.book.insert s.clock e cap).2 })) ∨
    (s.storeUp = false ∧ ((Bookkeeping.insert e cap : Action _).run s = (.silent, s) ∨
      (Bookkeeping.insert e cap : Action _).run s = (.answered (.error .unavailable), s))) :=
  run_reply_consult _ s

/-- A payment is made in the book if the store is up, and changes nothing otherwise. -/
theorem run_markPaid (s : Deployment) (u : UserId) :
    (s.storeUp = true ∧ (Bookkeeping.markPaid u : Action _).run s =
      (.answered (.ok (s.book.markPaid u).1), { s with book := (s.book.markPaid u).2 })) ∨
    (s.storeUp = false ∧ ((Bookkeeping.markPaid u : Action _).run s = (.silent, s) ∨
      (Bookkeeping.markPaid u : Action _).run s = (.answered (.error .unavailable), s))) :=
  run_reply_consult _ s

theorem run_rowsOf_snd (s : Deployment) (u : UserId) :
    ((Bookkeeping.rowsOf u : Action _).run s).2 = s :=
  run_reply_consult_snd (fun _ => rfl) s

theorem run_total_snd (s : Deployment) (u : UserId) :
    ((Bookkeeping.total u : Action _).run s).2 = s :=
  run_reply_consult_snd (fun _ => rfl) s

end SpendingLedger.Deployment
