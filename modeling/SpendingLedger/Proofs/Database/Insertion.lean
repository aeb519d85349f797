import SpendingLedger.Proofs.Database.Dialogue

/-!
Adding a row over a database. An error of the database, wherever it comes up, means that nothing was
recorded. But the row that comes back is looked at only after the commit, so one that is no
transaction makes the answer an error although the row is on record.
-/

namespace SpendingLedger.Database.Book

open Dialogue

variable {e : Entry} {cap : Decimal} {said : List Exchange}

/-! ### What may be said -/

/-- What may be said while a row is added, and how the transaction is to end then. -/
inductive Raised (e : Entry) (cap : Decimal) : List Exchange → Except Fault (Ending Raise) → Prop
  | totalRefused {reply : Reply} {f : Fault}
      (h : reply.first? (single? Cell.decimal?) = .error f) :
    Raised e cap [⟨.statement (raiseTotal e cap), reply⟩] (.error f)
  | noRoom {reply reply' : Reply} {total : Decimal}
      (h : reply.first? (single? Cell.decimal?) = .ok none)
      (h' : reply'.first (single? Cell.decimal?) = .ok total) :
    Raised e cap [⟨.statement (raiseTotal e cap), reply⟩, ⟨.statement (readTotal e.user), reply'⟩]
      (.ok (.rollback (.noRoom total)))
  | totalUnread {reply reply' : Reply} {f : Fault}
      (h : reply.first? (single? Cell.decimal?) = .ok none)
      (h' : reply'.first (single? Cell.decimal?) = .error f) :
    Raised e cap [⟨.statement (raiseTotal e cap), reply⟩, ⟨.statement (readTotal e.user), reply'⟩]
      (.error f)
  | added {reply reply' : Reply} {newTotal : Decimal} {r : Record}
      (h : reply.first? (single? Cell.decimal?) = .ok (some newTotal))
      (h' : reply'.first Record.ofRow? = .ok r) :
    Raised e cap [⟨.statement (raiseTotal e cap), reply⟩, ⟨.statement (addRow e), reply'⟩]
      (.ok (.commit (.added newTotal r)))
  | rowRefused {reply reply' : Reply} {newTotal : Decimal} {f : Fault}
      (h : reply.first? (single? Cell.decimal?) = .ok (some newTotal))
      (h' : reply'.first Record.ofRow? = .error f) :
    Raised e cap [⟨.statement (raiseTotal e cap), reply⟩, ⟨.statement (addRow e), reply'⟩]
      (.error f)

theorem raised_of_runs {ending : Except Fault (Ending Raise)}
    (h : Runs (raise e cap) said ending) : Raised e cap said ending := by
  obtain ⟨reply, rest, rfl, hrest⟩ := runs_fetchFirst?_bind h
  rcases htotal : reply.first? (single? Cell.decimal?) with f | _ | newTotal <;> rw [htotal] at hrest
  · obtain ⟨rfl, rfl⟩ := runs_pure_iff.1 hrest
    exact .totalRefused htotal
  · obtain ⟨reply', rest', rfl, hrest'⟩ := runs_fetchFirst_bind hrest
    cases hread : reply'.first (single? Cell.decimal?) with
    | error f =>
      rw [hread] at hrest'
      obtain ⟨rfl, rfl⟩ := runs_pure_iff.1 hrest'
      exact .totalUnread htotal hread
    | ok total =>
      rw [hread] at hrest'
      obtain ⟨rfl, rfl⟩ := runs_pure_iff.1 hrest'
      exact .noRoom htotal hread
  · obtain ⟨reply', rest', rfl, hrest'⟩ := runs_fetchFirst_bind hrest
    cases hrow : reply'.first Record.ofRow? with
    | error f =>
      rw [hrow] at hrest'
      obtain ⟨rfl, rfl⟩ := runs_pure_iff.1 hrest'
      exact .rowRefused htotal hrow
    | ok r =>
      rw [hrow] at hrest'
      obtain ⟨rfl, rfl⟩ := runs_pure_iff.1 hrest'
      exact .added htotal hrow

theorem Raised.onlyStatements {ending : Except Fault (Ending Raise)} (h : Raised e cap said ending) :
    OnlyStatements said := by
  cases h <;> simp [OnlyStatements]

theorem transacted_of_runs_insert {answer : Except StoreFault Insertion}
    (h : Runs (insert e cap) said answer) : ∃ outcome, Transacted (Raised e cap) said outcome ∧
      answer = (stored outcome).bind Raise.toInsertion := by
  obtain ⟨outcome, first, rest, rfl, htransaction, hrest⟩ := runs_bind_iff.1 h
  obtain ⟨rfl, rfl⟩ := runs_pure_iff.1 hrest
  rw [List.append_nil]
  exact ⟨outcome, (transacted_of_runs htransaction).mono fun _ _ => raised_of_runs, rfl⟩

/-! ### With a client -/

theorem run_raise (e : Entry) (cap : Decimal) :
    (raise (m := Dialogue) e cap).run = raise (m := Client.Action) e cap := by
  unfold raise
  rw [run_bind]
  refine bind_congr fun r => ?_
  rcases r with f | _ | newTotal
  · rfl
  · simp only
    rw [run_bind]
    refine bind_congr fun total => ?_
    cases total <;> rfl
  · simp only
    rw [run_bind]
    refine bind_congr fun row => ?_
    cases row <;> rfl

theorem run_insert (e : Entry) (cap : Decimal) :
    (insert (m := Dialogue) e cap).run = insert (m := Client.Action) e cap := by
  unfold insert
  rw [run_bind, run_transaction, run_raise]
  rfl

/-- What is said with a client is a conversation about the insertion. -/
theorem exists_runs_insert (e : Entry) (cap : Decimal) (c : Client) : ∃ said,
    Runs (insert e cap) said ((insert e cap : Client.Action _).run c).1 ∧
      ((insert e cap : Client.Action _).run c).2.session.exchanges =
        c.session.exchanges ++ said := by
  obtain ⟨said, replies, hruns, hclient⟩ := exists_runs (insert e cap) c
  rw [run_insert] at hruns hclient
  exact ⟨said, hruns, by rw [hclient]⟩

/-! ### What an error means -/

theorem Record.toTransaction_ne_database (r : Record) :
    r.toTransaction ≠ .error .database := by
  rw [toTransaction]
  split
  · nofun
  · split <;> nofun

/-- The row that came back is no transaction, and the fault says why. -/
def Misread (e : Entry) (said : List Exchange) (f : StoreFault) : Prop :=
  ∃ reply r, ⟨.statement (addRow e), reply⟩ ∈ said ∧ reply.first Record.ofRow? = .ok r ∧
    r.toTransaction = .error f

theorem Raise.of_toInsertion_eq_error {newTotal : Decimal} {r : Record} {f : StoreFault}
    (h : (added newTotal r).toInsertion = .error f) : r.toTransaction = .error f := by
  rw [toInsertion] at h
  cases hr : r.toTransaction with
  | error f' =>
    rw [hr] at h
    exact congrArg Except.error (Except.error.inj h)
  | ok t =>
    rw [hr] at h
    cases h

/-- What is to be committed is the row as it was replied. -/
theorem Raised.exists_row {first : List Exchange} {v : Raise}
    (h : Raised e cap first (.ok (.commit v))) : ∃ newTotal r reply, v = .added newTotal r ∧
      ⟨.statement (addRow e), reply⟩ ∈ first ∧ reply.first Record.ofRow? = .ok r := by
  cases h with
  | added htotal hrow => exact ⟨_, _, _, rfl, by simp, hrow⟩

/-- What is not to be committed is answered without an error. -/
theorem Raised.exists_total {first : List Exchange} {v : Raise}
    (h : Raised e cap first (.ok (.rollback v)) ∨ Raised e cap first (.ok (.abandon v))) :
    ∃ total, v = .noRoom total := by
  rcases h with h | h <;> cases h
  exact ⟨_, rfl⟩

/-- An error is one of the database, and then nothing is committed, or one of a row that was
committed and cannot be read. -/
theorem insert_error_cases {f : StoreFault} (h : Runs (insert e cap) said (.error f)) :
    (f = .database ∧ ¬ Committed said) ∨ (Committed said ∧ Misread e said f) := by
  obtain ⟨outcome, htransacted, hanswer⟩ := transacted_of_runs_insert h
  rcases htransacted.committed_cases fun _ _ => Raised.onlyStatements with
    ⟨hcommitted, first, v, hinfix, hraised, rfl⟩ | ⟨hnot, hrolledBack⟩
  · obtain ⟨newTotal, r, reply, rfl, hmem, hrow⟩ := hraised.exists_row
    have hr : r.toTransaction = .error f := Raise.of_toInsertion_eq_error hanswer.symm
    exact .inr ⟨hcommitted, reply, r, hinfix.subset hmem, hrow, hr⟩
  · cases outcome with
    | error fault => exact .inl ⟨Except.error.inj hanswer, hnot⟩
    | ok v =>
      obtain ⟨first, hraised⟩ := hrolledBack v rfl
      obtain ⟨total, rfl⟩ := Raised.exists_total hraised
      cases hanswer

/-- Adding a row may give an error although the row is on record, but only if the row that came back
is no transaction. In every other case an error means that nothing is on record. -/
theorem insert_error_committed_iff (e : Entry) (cap : Decimal) :
    (∀ said f, Runs (insert e cap) said (.error f) →
      (Committed said ↔ Misread e said f) ∧ (f = .database → ¬ Committed said)) ∧
    ∀ c : Client, ∃ said,
      Runs (insert e cap) said ((insert e cap : Client.Action _).run c).1 ∧
      ((insert e cap : Client.Action _).run c).2.session.exchanges =
        c.session.exchanges ++ said := by
  refine ⟨fun said f h => ?_, exists_runs_insert e cap⟩
  have hmisread : f = .database → ¬ Misread e said f := by
    rintro rfl ⟨_, r, -, -, hr⟩
    exact r.toTransaction_ne_database hr
  rcases insert_error_cases h with ⟨hdatabase, hnot⟩ | ⟨hcommitted, hrow⟩
  · exact ⟨iff_of_false hnot (hmisread hdatabase), fun _ => hnot⟩
  · exact ⟨iff_of_true hcommitted hrow, fun hdatabase => absurd hrow (hmisread hdatabase)⟩

/-- The database fails to commit: the answer is an error, and nothing is on record. -/
theorem insert_error_committed_iff_unfinished :
    let e : Entry := ⟨⟨1, by decide⟩, ⟨1050, by decide, by decide⟩, "x"⟩
    let c : Client := { session := {
      replies := [.rows [[.text "10.50"]], .rows [[.integer 1, .integer 1, .text "10.50", .text "x",
        .truth false, .text "2001-02-03T04:05:06Z"]]]
      failing := [.commit] } }
    let said := ((insert e defaultCap : Client.Action _).run c).2.session.exchanges
    Runs (insert e defaultCap) said (.error .database) ∧
      (Committed said ↔ Misread e said .database) ∧ ¬ Committed said := by
  intro e c said
  obtain ⟨said', hruns, hsaid⟩ := (insert_error_committed_iff e defaultCap).2 c
  have hanswer : ((insert e defaultCap : Client.Action _).run c).1 = .error .database := rfl
  obtain rfl : said = said' := hsaid
  rw [hanswer] at hruns
  obtain ⟨hiff, hnot⟩ := (insert_error_committed_iff e defaultCap).1 said _ hruns
  exact ⟨hruns, hiff, hnot rfl⟩

/-- The database takes everything, and gives the row back with a user that is none: the answer is an
error, and the transaction is committed all the same. -/
theorem insert_committed_of_misread :
    let e : Entry := ⟨⟨1, by decide⟩, ⟨1050, by decide, by decide⟩, "x"⟩
    let row : Row := [.integer 1, .integer 0, .text "10.50", .text "x", .truth false,
      .text "2001-02-03T04:05:06Z"]
    let c : Client := { session := { replies := [.rows [[.text "10.50"]], .rows [row]] } }
    let outcome := (insert e defaultCap : Client.Action _).run c
    outcome.1 = .error (.invalidRow "transaction 1: Invalid user ID: 0") ∧
      outcome.2.session.exchanges = [⟨.command .begin, .affected 0⟩,
        ⟨.statement (raiseTotal e defaultCap), .rows [[.text "10.50"]]⟩,
        ⟨.statement (addRow e), .rows [row]⟩, ⟨.command .commit, .affected 0⟩] ∧
      Committed outcome.2.session.exchanges :=
  ⟨rfl, rfl, .affected 0, 0, List.mem_of_getLast? rfl, rfl⟩

end SpendingLedger.Database.Book
