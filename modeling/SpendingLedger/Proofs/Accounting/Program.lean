import SpendingLedger.Deployment.Basic

/-!
Operations of the ledger as programs: what an operation asks of its surroundings, one thing at a
time, and how it goes on with the answer. A program can be halted between any two demands, so
several can take turns. Run without a halt, the program of an operation is the operation.
-/

namespace SpendingLedger

inductive Demand where
  | insert (e : Entry) (cap : Decimal)
  | rowsOf (u : UserId)
  | total (u : UserId)
  | markPaid (u : UserId)
  | now
  | announce (e : Event)
  | report (n : Notice)

namespace Demand

def Answer : Demand → Type
  | insert .. => StoreReply Insertion
  | rowsOf _ => StoreReply (List Transaction)
  | total _ => StoreReply Decimal
  | markPaid _ => StoreReply UInt64
  | now => Timestamp
  | announce _ | report _ => Unit

/-- How a deployment meets a demand. -/
def perform : (d : Demand) → Deployment.Action d.Answer
  | insert e cap => Bookkeeping.insert e cap
  | rowsOf u => Bookkeeping.rowsOf u
  | total u => Bookkeeping.total u
  | markPaid u => Bookkeeping.markPaid u
  | now => Announcing.now
  | announce e => Announcing.announce e
  | report n => Reporting.report n

/-- Whether a demand leaves the store alone. -/
def IsAside : Demand → Prop
  | now | announce _ | report _ => True
  | _ => False

end Demand

/-- A program that ends with an `α`. -/
inductive Program (α : Type) where
  | done (a : α)
  | ask (d : Demand) (next : d.Answer → Program α)

namespace Program

variable {α β : Type}

def bind : Program α → (α → Program β) → Program β
  | done a, f => f a
  | ask d next, f => ask d (fun r => (next r).bind f)

instance : Monad Program where
  pure := done
  bind := bind

instance : Bookkeeping Program where
  insert e cap := ask (.insert e cap) done
  rowsOf u := ask (.rowsOf u) done
  total u := ask (.total u) done
  markPaid u := ask (.markPaid u) done

instance : Announcing Program where
  now := ask .now done
  announce e := ask (.announce e) done

instance : Reporting Program where
  report n := ask (.report n) done

/-- The program after its next demand has been met. -/
def step : Program α → Deployment.Action (Program α)
  | done a => return done a
  | ask d next => return next (← d.perform)

@[simp] theorem run_step_done (a : α) (s : Deployment) :
    (done a).step.run s = (done a, s) := rfl

@[simp] theorem run_step_ask (d : Demand) (next : d.Answer → Program α) (s : Deployment) :
    (ask d next).step.run s = (next (d.perform.run s).1, (d.perform.run s).2) := rfl

/-- The program from here to its end. -/
def run : Program α → Deployment.Action α
  | done a => return a
  | ask d next => do (next (← d.perform)).run

@[simp] theorem pure_eq (a : α) : (pure a : Program α) = done a := rfl

/-- A program leaves the store alone from here on and ends with `a`. -/
inductive Yields : Program α → α → Prop where
  | done (a : α) : Yields (done a) a
  | ask {d : Demand} {next : d.Answer → Program α} {a : α} (hd : d.IsAside)
      (h : ∀ r, Yields (next r) a) : Yields (ask d next) a

theorem Yields.eq_of_done {a b : α} (h : Yields (Program.done a) b) : a = b := by
  cases h
  rfl

theorem Yields.of_ask {d : Demand} {next : d.Answer → Program α} {a : α}
    (h : Yields (Program.ask d next) a) : d.IsAside ∧ ∀ r, Yields (next r) a := by
  cases h with
  | ask hd hnext => exact ⟨hd, hnext⟩

theorem Yields.map {p : Program α} {a : α} (h : Yields p a) (f : α → β) :
    Yields (f <$> p) (f a) := by
  induction h with
  | done a => exact .done (f a)
  | ask hd _ ih => exact .ask hd ih

/-- A program is over once so many demands have been met. -/
def EndsWithin : Nat → Program α → Prop
  | _, done _ => True
  | 0, ask _ _ => False
  | n + 1, ask _ next => ∀ r, EndsWithin n (next r)

theorem EndsWithin.map {n : Nat} {p : Program α} (h : EndsWithin n p) (f : α → β) :
    EndsWithin n (f <$> p) := by
  induction p generalizing n with
  | done a => cases n <;> trivial
  | ask d next ih =>
    cases n with
    | zero => exact h
    | succ n => exact fun r => ih r (h r)

theorem EndsWithin.mono {n m : Nat} (hnm : n ≤ m) {p : Program α} (h : EndsWithin n p) :
    EndsWithin m p := by
  induction p generalizing n m with
  | done a => cases m <;> trivial
  | ask d next ih =>
    cases n with
    | zero => exact h.elim
    | succ n =>
      cases m with
      | zero => omega
      | succ m => exact fun r => ih r (by omega) (h r)

end Program

/-! ### The operations -/

namespace Accounting

open Program

def createdFrom (cap : Decimal) (context : Context) (entry : Entry)
    (reply : StoreReply Insertion) : Except LedgerError Transaction :=
  match within context reply with
  | .error e => .error e
  | .ok (.capExceeded total) => .error (.capExceeded total entry.amount.toDecimal cap)
  | .ok (.recorded t _) => .ok t

/-- Recording is refused at once, or asks the store once and then leaves it alone. -/
theorem create_program (cap : Decimal) (context : Context) (c : Command) :
    (∃ e, entryOf context c = .error e ∧
      create (m := Program) cap context c = .done (.error e)) ∨
    (∃ entry next, entryOf context c = .ok entry ∧
      create (m := Program) cap context c = .ask (.insert entry cap) next ∧
      ∀ reply, Yields (next reply) (createdFrom cap context entry reply) ∧
        EndsWithin 3 (next reply)) := by
  cases h : entryOf context c with
  | error e =>
    refine .inl ⟨e, rfl, ?_⟩
    simp only [create, h, pure_eq]
  | ok entry =>
    refine .inr ⟨entry, _, rfl, by rw [create, h]; exact rfl, fun reply => ?_⟩
    simp only [Program.bind, createdFrom]
    cases within context reply with
    | error e => exact ⟨.done _, trivial⟩
    | ok outcome =>
      cases outcome with
      | capExceeded total => exact ⟨.ask (by trivial) fun _ => .done _, fun _ => trivial⟩
      | recorded t newTotal =>
        exact ⟨.ask (by trivial) fun _ => .ask (by trivial) fun _ =>
          .ask (by trivial) fun _ => .done _, fun _ _ _ => trivial⟩

theorem list_program (context : Context) (user : Int64) :
    (∃ e, list (m := Program) context user = .done (.error e)) ∨
    (∃ u next, list (m := Program) context user = .ask (.rowsOf u) next ∧
      ∀ reply, ∃ r, Yields (next reply) r ∧ EndsWithin 3 (next reply)) := by
  cases h : subject context user with
  | error e =>
    refine .inl ⟨e, ?_⟩
    simp only [list, h, pure_eq]
  | ok u => exact .inr ⟨u, _, by rw [list, h]; exact rfl, fun reply => ⟨_, .done _, trivial⟩⟩

theorem total_program (context : Context) (user : Int64) :
    (∃ e, total (m := Program) context user = .done (.error e)) ∨
    (∃ u next, total (m := Program) context user = .ask (.total u) next ∧
      ∀ reply, ∃ r, Yields (next reply) r ∧ EndsWithin 3 (next reply)) := by
  cases h : subject context user with
  | error e =>
    refine .inl ⟨e, ?_⟩
    simp only [total, h, pure_eq]
  | ok u => exact .inr ⟨u, _, by rw [total, h]; exact rfl, fun reply => ⟨_, .done _, trivial⟩⟩

theorem pay_program (context : Context) (user : Int64) :
    (∃ e, pay (m := Program) context user = .done (.error e)) ∨
    (∃ u next, pay (m := Program) context user = .ask (.markPaid u) next ∧
      ∀ reply, ∃ r, Yields (next reply) r ∧ EndsWithin 3 (next reply)) := by
  cases h : subject context user with
  | error e =>
    refine .inl ⟨e, ?_⟩
    simp only [pay, h, pure_eq]
  | ok u =>
    refine .inr ⟨u, _, by rw [pay, h]; exact rfl, fun reply => ?_⟩
    simp only [Program.bind]
    cases within context reply with
    | error e => exact ⟨_, .done _, trivial⟩
    | ok count =>
      refine ⟨.ok ⟨count⟩, ?_⟩
      by_cases hc : 0 < count
      · simp only [hc, ↓reduceIte]
        exact ⟨.ask (by trivial) fun _ => .ask (by trivial) fun _ =>
          .ask (by trivial) fun _ => .done _, fun _ _ _ => trivial⟩
      · simp only [hc, ↓reduceIte]
        exact ⟨.ask (by trivial) fun _ => .done _, fun _ => trivial⟩

/-! ### Without a halt -/

theorem run_map {α β : Type} (f : α → β) (p : Program α) : (f <$> p).run = f <$> p.run := by
  induction p with
  | done a => rfl
  | ask d next ih => exact bind_congr ih

theorem run_create (cap : Decimal) (context : Context) (c : Command) :
    (create (m := Program) cap context c).run = create (m := Deployment.Action) cap context c := by
  unfold create
  cases entryOf context c with
  | error e => rfl
  | ok entry =>
    refine bind_congr fun reply => ?_
    simp only [Program.bind]
    cases within context reply with
    | error e => rfl
    | ok outcome => cases outcome <;> rfl

theorem run_list (context : Context) (user : Int64) :
    (list (m := Program) context user).run = list (m := Deployment.Action) context user := by
  unfold list
  cases subject context user <;> rfl

theorem run_total (context : Context) (user : Int64) :
    (total (m := Program) context user).run = total (m := Deployment.Action) context user := by
  unfold total
  cases subject context user <;> rfl

theorem run_pay (context : Context) (user : Int64) :
    (pay (m := Program) context user).run = pay (m := Deployment.Action) context user := by
  unfold pay
  cases subject context user with
  | error e => rfl
  | ok u =>
    refine bind_congr fun reply => ?_
    simp only [Program.bind]
    cases within context reply with
    | error e => rfl
    | ok count => by_cases hc : 0 < count <;> simp only [hc, ↓reduceIte] <;> rfl

end Accounting

end SpendingLedger
