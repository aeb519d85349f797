import SpendingLedger.Database.Client

/-!
What may be said to a database and what may come of it. A program over a database is a tree: what it
sends, and how it goes on with every reply there might be. A path through the tree is a conversation
that some database has with the program. For transactions the paths are told apart by how the
transaction ends.
-/

namespace SpendingLedger.Database

/-- A program over a database that ends with an `α`. -/
inductive Dialogue (α : Type) where
  | done (a : α)
  | send (r : Request) (next : Reply → Dialogue α)

namespace Dialogue

variable {α β : Type}

def bind : Dialogue α → (α → Dialogue β) → Dialogue β
  | done a, f => f a
  | send r next, f => send r (fun reply => (next reply).bind f)

instance : Monad Dialogue where
  pure := done
  bind := bind

instance : Connection Dialogue where
  exchange r := send r done

/-- The database may reply so to what is sent in turn, and then the program ends with the value. -/
inductive Runs : Dialogue α → List Exchange → α → Prop
  | done (a : α) : Runs (done a) [] a
  | send {r : Request} {next : Reply → Dialogue α} {said : List Exchange} {a : α} (reply : Reply)
      (h : Runs (next reply) said a) : Runs (send r next) (⟨r, reply⟩ :: said) a

theorem runs_pure_iff {a b : α} {said : List Exchange} :
    Runs (pure a) said b ↔ said = [] ∧ b = a := by
  constructor
  · intro h
    cases h
    exact ⟨rfl, rfl⟩
  · rintro ⟨rfl, rfl⟩
    exact .done b

theorem runs_send_iff {r : Request} {next : Reply → Dialogue α} {said : List Exchange} {a : α} :
    Runs (send r next) said a ↔
      ∃ reply rest, said = ⟨r, reply⟩ :: rest ∧ Runs (next reply) rest a := by
  constructor
  · intro h
    cases h with
    | send reply h => exact ⟨reply, _, rfl, h⟩
  · rintro ⟨reply, rest, rfl, h⟩
    exact .send reply h

/-- What is said in two programs, one after the other. -/
theorem runs_bind_iff {x : Dialogue α} {f : α → Dialogue β} {said : List Exchange} {b : β} :
    Runs (x >>= f) said b ↔
      ∃ a first rest, said = first ++ rest ∧ Runs x first a ∧ Runs (f a) rest b := by
  induction x generalizing said with
  | done a =>
    constructor
    · exact fun h => ⟨a, [], said, rfl, .done a, h⟩
    · rintro ⟨a', first, rest, rfl, h, hrest⟩
      cases h
      exact hrest
  | send r next ih =>
    constructor
    · intro h
      obtain ⟨reply, others, rfl, hnext⟩ := runs_send_iff.1 h
      obtain ⟨a, first, rest, rfl, hx, hf⟩ := (ih reply).1 hnext
      exact ⟨a, _, rest, rfl, .send reply hx, hf⟩
    · rintro ⟨a, first, rest, rfl, hx, hf⟩
      obtain ⟨reply, others, rfl, hnext⟩ := runs_send_iff.1 hx
      exact .send reply ((ih reply).2 ⟨a, others, rest, rfl, hnext, hf⟩)

theorem runs_exchange_bind_iff {r : Request} {f : Reply → Dialogue α} {said : List Exchange}
    {a : α} : Runs (Connection.exchange r >>= f) said a ↔
      ∃ reply rest, said = ⟨r, reply⟩ :: rest ∧ Runs (f reply) rest a :=
  runs_send_iff

/-! ### With a client -/

/-- The program with the database of a client. -/
def run : Dialogue α → Client.Action α
  | done a => return a
  | send r next => do (next (← Connection.exchange r)).run

theorem run_bind (x : Dialogue α) (f : α → Dialogue β) :
    (x >>= f).run = x.run >>= fun a => (f a).run := by
  induction x with
  | done a => rfl
  | send r next ih => exact bind_congr ih

/-- What is said with a client is a conversation, and no more of the client changes. -/
theorem exists_runs (x : Dialogue α) (c : Client) : ∃ said replies,
    x.Runs said (x.run.run c).1 ∧ (x.run.run c).2 =
      { c with session := { c.session with replies, exchanges := c.session.exchanges ++ said } } := by
  induction x generalizing c with
  | done a => exact ⟨[], c.session.replies, .done a, by rw [List.append_nil]; rfl⟩
  | send r next ih =>
    have hrun : (send r next).run.run c = (next (c.session.answer r).1).run.run
        { c with session := { c.session with
          replies := (c.session.answer r).2
          exchanges := c.session.exchanges ++ [⟨r, (c.session.answer r).1⟩] } } := rfl
    obtain ⟨said, replies, hruns, hclient⟩ := ih (c.session.answer r).1
      { c with session := { c.session with
        replies := (c.session.answer r).2
        exchanges := c.session.exchanges ++ [⟨r, (c.session.answer r).1⟩] } }
    rw [hrun]
    refine ⟨_, replies, .send _ hruns, ?_⟩
    rw [hclient, List.append_assoc]
    rfl

end Dialogue

/-! ### Statements -/

namespace Dialogue

variable {α β : Type} {said : List Exchange} {b : β}

theorem runs_fetchFirst?_bind {read : Row → Option α} {s : Statement}
    {f : Except Fault (Option α) → Dialogue β} (h : Runs (fetchFirst? read s >>= f) said b) :
    ∃ reply rest, said = ⟨.statement s, reply⟩ :: rest ∧ Runs (f (reply.first? read)) rest b :=
  runs_send_iff.1 h

theorem runs_fetchFirst_bind {read : Row → Option α} {s : Statement}
    {f : Except Fault α → Dialogue β} (h : Runs (fetchFirst read s >>= f) said b) :
    ∃ reply rest, said = ⟨.statement s, reply⟩ :: rest ∧ Runs (f (reply.first read)) rest b :=
  runs_send_iff.1 h

theorem runs_command_bind {c : Command} {f : Except Fault Unit → Dialogue β}
    (h : Runs (command c >>= f) said b) : ∃ reply rest, said = ⟨.command c, reply⟩ :: rest ∧
      Runs (f (reply.count.map fun _ => ())) rest b :=
  runs_send_iff.1 h

end Dialogue

/-! ### Transactions -/

/-- The end of a transaction that is given up. -/
inductive GivenUp : List Exchange → Prop
  | lost : GivenUp []
  | refused (reply : Reply) : GivenUp [⟨.command .rollback, reply⟩]

/-- The end of a transaction that a command is to end. -/
inductive Concluded {α : Type} (c : Command) (v : α) : List Exchange → Except Fault α → Prop
  | done {reply : Reply} {n : UInt64} (h : reply.count = .ok n) :
    Concluded c v [⟨.command c, reply⟩] (.ok v)
  | failed {reply : Reply} {f : Fault} {rest : List Exchange} (h : reply.count = .error f)
      (hrest : GivenUp rest) : Concluded c v (⟨.command c, reply⟩ :: rest) (.error f)

/-- What may be said in a transaction and what may come of it, given the same of its body. -/
inductive Transacted {α : Type} (body : List Exchange → Except Fault (Ending α) → Prop) :
    List Exchange → Except Fault α → Prop
  | notBegun {reply : Reply} {f : Fault} {rest : List Exchange} (h : reply.count = .error f)
      (hrest : GivenUp rest) : Transacted body (⟨.command .begin, reply⟩ :: rest) (.error f)
  | failed {reply : Reply} {n : UInt64} {said rest : List Exchange} {f : Fault}
      (h : reply.count = .ok n) (hbody : body said (.error f)) (hrest : GivenUp rest) :
    Transacted body (⟨.command .begin, reply⟩ :: (said ++ rest)) (.error f)
  | commit {reply : Reply} {n : UInt64} {said rest : List Exchange} {v : α} {r : Except Fault α}
      (h : reply.count = .ok n) (hbody : body said (.ok (.commit v)))
      (hrest : Concluded .commit v rest r) :
    Transacted body (⟨.command .begin, reply⟩ :: (said ++ rest)) r
  | rollback {reply : Reply} {n : UInt64} {said rest : List Exchange} {v : α} {r : Except Fault α}
      (h : reply.count = .ok n) (hbody : body said (.ok (.rollback v)))
      (hrest : Concluded .rollback v rest r) :
    Transacted body (⟨.command .begin, reply⟩ :: (said ++ rest)) r
  | abandon {reply reply' : Reply} {n : UInt64} {said : List Exchange} {v : α}
      (h : reply.count = .ok n) (hbody : body said (.ok (.abandon v))) :
    Transacted body (⟨.command .begin, reply⟩ :: (said ++ [⟨.command .rollback, reply'⟩])) (.ok v)

theorem Transacted.mono {α : Type} {body body' : List Exchange → Except Fault (Ending α) → Prop}
    {said : List Exchange} {r : Except Fault α} (h : Transacted body said r)
    (hbody : ∀ first ending, body first ending → body' first ending) : Transacted body' said r := by
  cases h with
  | notBegun hcount hrest => exact .notBegun hcount hrest
  | failed hcount hfirst hrest => exact .failed hcount (hbody _ _ hfirst) hrest
  | commit hcount hfirst hrest => exact .commit hcount (hbody _ _ hfirst) hrest
  | rollback hcount hfirst hrest => exact .rollback hcount (hbody _ _ hfirst) hrest
  | abandon hcount hfirst => exact .abandon hcount (hbody _ _ hfirst)

namespace Dialogue

variable {α : Type} {said : List Exchange} {r : Except Fault α}

theorem givenUp_of_runs {f : Fault} (h : Runs (giveUp f) said r) : r = .error f ∧ GivenUp said := by
  cases f with
  | refused =>
    obtain ⟨reply, rest, rfl, hrest⟩ := runs_send_iff.1 h
    obtain ⟨rfl, rfl⟩ := runs_pure_iff.1 hrest
    exact ⟨rfl, .refused reply⟩
  | lost =>
    obtain ⟨rfl, rfl⟩ := runs_pure_iff.1 h
    exact ⟨rfl, .lost⟩

theorem concluded_of_runs {c : Command} {v : α} (h : Runs (conclude c v) said r) :
    Concluded c v said r := by
  obtain ⟨reply, rest, rfl, hrest⟩ := runs_command_bind h
  cases hcount : reply.count with
  | error f =>
    rw [hcount] at hrest
    obtain ⟨rfl, hgivenUp⟩ := givenUp_of_runs hrest
    exact .failed hcount hgivenUp
  | ok n =>
    rw [hcount] at hrest
    obtain ⟨rfl, rfl⟩ := runs_pure_iff.1 hrest
    exact .done hcount

theorem transacted_of_runs {body : Dialogue (Except Fault (Ending α))}
    (h : Runs (transaction body) said r) : Transacted body.Runs said r := by
  obtain ⟨reply, rest, rfl, hrest⟩ := runs_command_bind h
  cases hcount : reply.count with
  | error f =>
    rw [hcount] at hrest
    obtain ⟨rfl, hgivenUp⟩ := givenUp_of_runs hrest
    exact .notBegun hcount hgivenUp
  | ok n =>
    rw [hcount] at hrest
    obtain ⟨ending, first, last, rfl, hbody, hlast⟩ := runs_bind_iff.1 hrest
    rcases ending with f | v | v | v
    · obtain ⟨rfl, hgivenUp⟩ := givenUp_of_runs hlast
      exact .failed hcount hbody hgivenUp
    · exact .commit hcount hbody (concluded_of_runs hlast)
    · exact .rollback hcount hbody (concluded_of_runs hlast)
    · obtain ⟨reply', after, rfl, hafter⟩ := runs_exchange_bind_iff.1 hlast
      obtain ⟨rfl, rfl⟩ := runs_pure_iff.1 hafter
      exact .abandon hcount hbody

theorem run_command_bind {β : Type} (c : Command) (f : Except Fault Unit → Dialogue β) :
    (command c >>= f).run = command c >>= fun r => (f r).run := rfl

theorem run_giveUp (f : Fault) : (giveUp f : Dialogue (Except Fault α)).run = giveUp f := by
  cases f <;> rfl

theorem run_conclude (c : Command) (v : α) :
    (conclude c v : Dialogue (Except Fault α)).run = conclude c v := by
  rw [conclude, run_command_bind, conclude]
  refine bind_congr fun r => ?_
  rcases r with f | _
  · exact run_giveUp f
  · rfl

theorem run_transaction (body : Dialogue (Except Fault (Ending α))) :
    (transaction body).run = transaction body.run := by
  rw [transaction, run_command_bind, transaction]
  refine bind_congr fun r => ?_
  rcases r with f | _
  · exact run_giveUp f
  · simp only
    rw [run_bind]
    refine bind_congr fun ending => ?_
    rcases ending with f | v | v | v
    · exact run_giveUp f
    · exact run_conclude .commit v
    · exact run_conclude .rollback v
    · rfl

end Dialogue

/-! ### Commitment -/

/-- A transaction was committed, as far as the database says. -/
def Committed (said : List Exchange) : Prop :=
  ∃ reply n, ⟨.command .commit, reply⟩ ∈ said ∧ reply.count = .ok n

/-- Nothing is said but statements. -/
def OnlyStatements (said : List Exchange) : Prop := ∀ x ∈ said, ∃ s, x.request = .statement s

section

variable {α : Type} {said first rest : List Exchange} {r : Except Fault α} {v : α}

theorem committed_append_iff : Committed (first ++ rest) ↔ Committed first ∨ Committed rest := by
  constructor
  · rintro ⟨reply, n, hmem, hcount⟩
    rcases List.mem_append.1 hmem with hmem | hmem
    · exact .inl ⟨reply, n, hmem, hcount⟩
    · exact .inr ⟨reply, n, hmem, hcount⟩
  · rintro (⟨reply, n, hmem, hcount⟩ | ⟨reply, n, hmem, hcount⟩)
    · exact ⟨reply, n, List.mem_append_left _ hmem, hcount⟩
    · exact ⟨reply, n, List.mem_append_right _ hmem, hcount⟩

theorem committed_command_cons_iff {c : Command} {reply : Reply} :
    Committed (⟨.command c, reply⟩ :: rest) ↔
      (c = .commit ∧ ∃ n, reply.count = .ok n) ∨ Committed rest := by
  constructor
  · rintro ⟨reply', n, hmem, hcount⟩
    rcases List.mem_cons.1 hmem with heq | hmem
    · obtain ⟨hc, rfl⟩ := Exchange.mk.inj heq
      obtain rfl := Request.command.inj hc
      exact .inl ⟨rfl, n, hcount⟩
    · exact .inr ⟨reply', n, hmem, hcount⟩
  · rintro (⟨rfl, n, hcount⟩ | ⟨reply', n, hmem, hcount⟩)
    · exact ⟨reply, n, List.mem_cons_self, hcount⟩
    · exact ⟨reply', n, List.mem_cons_of_mem _ hmem, hcount⟩

theorem OnlyStatements.not_committed (h : OnlyStatements said) : ¬ Committed said := by
  rintro ⟨reply, n, hmem, -⟩
  obtain ⟨s, hs⟩ := h _ hmem
  cases hs

theorem GivenUp.not_committed (h : GivenUp said) : ¬ Committed said := by
  rintro ⟨reply, n, hmem, -⟩
  cases h with
  | lost => exact absurd hmem List.not_mem_nil
  | refused reply' => simp at hmem

/-- A command that is to end a transaction ends it with the value, or it fails. -/
theorem Concluded.committed_iff {c : Command} (h : Concluded c v said r) :
    (Committed said ↔ c = .commit ∧ r = .ok v) ∧ ∀ v', r = .ok v' → v' = v := by
  cases h with
  | done hcount =>
    refine ⟨committed_command_cons_iff.trans ?_, fun v' h => (Except.ok.inj h).symm⟩
    simp [hcount, Committed]
  | failed hcount hrest =>
    refine ⟨committed_command_cons_iff.trans ?_, nofun⟩
    simp [hcount, hrest.not_committed]

/-- A transaction is committed exactly if it ends with a value that its body means to commit. -/
theorem Transacted.committed_cases {body : List Exchange → Except Fault (Ending α) → Prop}
    (h : Transacted body said r)
    (hbody : ∀ first ending, body first ending → OnlyStatements first) :
    (Committed said ∧ ∃ first v, first <:+: said ∧ body first (.ok (.commit v)) ∧ r = .ok v) ∨
      (¬ Committed said ∧ ∀ v, r = .ok v →
        ∃ first, body first (.ok (.rollback v)) ∨ body first (.ok (.abandon v))) := by
  have hbegin {reply : Reply} {rest : List Exchange} :
      Committed (⟨.command .begin, reply⟩ :: rest) ↔ Committed rest := by
    rw [committed_command_cons_iff]
    simp
  have hsaid {first rest : List Exchange} {ending : Except Fault (Ending α)} {reply : Reply}
      (hfirst : body first ending) :
      Committed (⟨.command .begin, reply⟩ :: (first ++ rest)) ↔ Committed rest := by
    rw [hbegin, committed_append_iff, or_iff_right (hbody _ _ hfirst).not_committed]
  cases h with
  | notBegun hcount hrest => exact .inr ⟨mt hbegin.1 hrest.not_committed, nofun⟩
  | failed hcount hfirst hrest => exact .inr ⟨mt (hsaid hfirst).1 hrest.not_committed, nofun⟩
  | @commit reply n first rest v _ hcount hfirst hrest =>
    by_cases hcommitted : Committed rest
    · have hr := (hrest.committed_iff.1.1 hcommitted).2
      exact .inl ⟨(hsaid hfirst).2 hcommitted, first, v,
        ⟨[⟨.command .begin, reply⟩], rest, rfl⟩, hfirst, hr⟩
    · refine .inr ⟨mt (hsaid hfirst).1 hcommitted, fun v' hr => ?_⟩
      obtain rfl := hrest.committed_iff.2 v' hr
      exact absurd (hrest.committed_iff.1.2 ⟨rfl, hr⟩) hcommitted
  | rollback hcount hfirst hrest =>
    have hnot : ¬ Committed _ := fun h => nomatch (hrest.committed_iff.1.1 h).1
    refine .inr ⟨mt (hsaid hfirst).1 hnot, fun v' hr => ?_⟩
    obtain rfl := hrest.committed_iff.2 v' hr
    exact ⟨_, .inl hfirst⟩
  | abandon hcount hfirst =>
    refine .inr ⟨mt (hsaid hfirst).1 (GivenUp.refused _).not_committed, fun v' hr => ?_⟩
    obtain rfl := Except.ok.inj hr
    exact ⟨_, .inr hfirst⟩

end

end SpendingLedger.Database
