import SpendingLedger.Proofs.Database.Guard

/-!
Setting a message aside over a database. The status of the message is the guard: a message that is
not out matches nothing, so no copy of it is made.
-/

namespace SpendingLedger.Database

open Dialogue

/-- Nothing of what is reported is said to the database. -/
instance : Reporting Dialogue where
  report _ := .done ()

namespace Queue

variable {d : Delivery} {reason : String} {said : List Exchange} {answer : Except BrokerError Unit}

/-- A message is copied only if it was out. -/
def copying (d : Delivery) (reason : String) : GuardedWrite where
  guard := markGivenUp d.id reason
  matched reply := reply.count.map (· ≠ 0)
  write := addCopy d reason
  written reply := ∃ n, reply.count = .ok n

/-- What may be said while a message is set aside, and how the transaction is to end then. -/
inductive MovedAside (d : Delivery) (reason : String) :
    List Exchange → Except Fault (Ending Bool) → Prop
  | markRefused {reply : Reply} {f : Fault} (h : reply.count = .error f) :
    MovedAside d reason [⟨.statement (markGivenUp d.id reason), reply⟩] (.error f)
  | notOut {reply : Reply} (h : reply.count = .ok 0) :
    MovedAside d reason [⟨.statement (markGivenUp d.id reason), reply⟩] (.ok (.abandon false))
  | copyRefused {reply reply' : Reply} {n : UInt64} {f : Fault} (h : reply.count = .ok n)
      (hn : n ≠ 0) (h' : reply'.count = .error f) :
    MovedAside d reason [⟨.statement (markGivenUp d.id reason), reply⟩,
      ⟨.statement (addCopy d reason), reply'⟩] (.error f)
  | copied {reply reply' : Reply} {n n' : UInt64} (h : reply.count = .ok n) (hn : n ≠ 0)
      (h' : reply'.count = .ok n') :
    MovedAside d reason [⟨.statement (markGivenUp d.id reason), reply⟩,
      ⟨.statement (addCopy d reason), reply'⟩] (.ok (.commit true))

theorem runs_execute_bind {α : Type} {s : Statement} {f : Except Fault UInt64 → Dialogue α} {a : α}
    (h : Runs (execute s >>= f) said a) :
    ∃ reply rest, said = ⟨.statement s, reply⟩ :: rest ∧ Runs (f reply.count) rest a :=
  runs_send_iff.1 h

theorem movedAside_of_runs {ending : Except Fault (Ending Bool)}
    (h : Runs (moveAside d reason) said ending) : MovedAside d reason said ending := by
  obtain ⟨reply, rest, rfl, hrest⟩ := runs_execute_bind h
  cases hcount : reply.count with
  | error f =>
    rw [hcount] at hrest
    obtain ⟨rfl, rfl⟩ := runs_pure_iff.1 hrest
    exact .markRefused hcount
  | ok n =>
    rw [hcount] at hrest
    by_cases hn : n = 0
    · subst hn
      obtain ⟨rfl, rfl⟩ := runs_pure_iff.1 hrest
      exact .notOut hcount
    · simp only [hn, ↓reduceIte] at hrest
      obtain ⟨reply', rest', rfl, hrest'⟩ := runs_execute_bind hrest
      cases hcopy : reply'.count with
      | error f =>
        rw [hcopy] at hrest'
        obtain ⟨rfl, rfl⟩ := runs_pure_iff.1 hrest'
        exact .copyRefused hcount hn hcopy
      | ok n' =>
        rw [hcopy] at hrest'
        obtain ⟨rfl, rfl⟩ := runs_pure_iff.1 hrest'
        exact .copied hcount hn hcopy

theorem MovedAside.onlyStatements {ending : Except Fault (Ending Bool)}
    (h : MovedAside d reason said ending) : OnlyStatements said := by
  cases h <;> simp [OnlyStatements]

/-- What is answered once the transaction is over. -/
def settled (d : Delivery) : Except Fault Bool → Except BrokerError Unit
  | .error _ => .error .database
  | .ok false => .error (.unknownDelivery d.channel d.id)
  | .ok true => .ok ()

theorem transacted_of_runs_setAside (h : Runs (setAside d reason) said answer) :
    ∃ outcome, Transacted (MovedAside d reason) said outcome ∧ answer = settled d outcome := by
  obtain ⟨outcome, first, rest, rfl, htransaction, hrest⟩ := runs_bind_iff.1 h
  have htransacted := (transacted_of_runs htransaction).mono fun _ _ => movedAside_of_runs
  obtain ⟨rfl, rfl⟩ : rest = [] ∧ answer = settled d outcome := by
    rcases outcome with f | _ | _ <;> exact runs_pure_iff.1 hrest
  rw [List.append_nil]
  exact ⟨outcome, htransacted, rfl⟩

theorem matched_copying {reply : Reply} {n : UInt64} (h : reply.count = .ok n) :
    (copying d reason).matched reply = .ok (n ≠ 0) :=
  congrArg (Except.map _) h

theorem guard_ne_write_copying (d : Delivery) (reason : String) :
    (copying d reason).guard ≠ (copying d reason).write := by
  intro h
  have hlength : 2 = 5 := congrArg (·.params.length) h
  cases hlength

theorem MovedAside.path {ending : Except Fault (Ending Bool)}
    (h : MovedAside d reason said ending) : (copying d reason).Path said ending := by
  cases h with
  | markRefused h =>
    have hmatched : (copying d reason).matched _ = _ := congrArg (Except.map _) h
    exact .withheld (by simp [hmatched, Except.map]) (List.forall_mem_nil _) (by simp)
  | notOut h => exact .withheld (by simp [matched_copying h]) (List.forall_mem_nil _) (by simp)
  | copyRefused h hn h' => exact .refused (by simp [matched_copying h, hn])
  | copied h hn h' => exact .written (by simp [matched_copying h, hn]) ⟨_, h'⟩

theorem setAside_kept (h : Runs (setAside d reason) said answer) :
    (copying d reason).Kept said ∧
    (∀ g, ⟨.statement (markGivenUp d.id reason), g⟩ ∈ said → g.count = .ok 0 →
      answer = .error (.unknownDelivery d.channel d.id)) ∧
    (answer = .ok () → Committed said) := by
  obtain ⟨outcome, htransacted, rfl⟩ := transacted_of_runs_setAside h
  refine ⟨?_, ?_, ?_⟩
  · exact GuardedWrite.kept_of_transacted (guard_ne_write_copying d reason)
      (htransacted.mono fun _ _ => MovedAside.path)
  · intro g hmem hcount
    have hne : markGivenUp d.id reason ≠ addCopy d reason := guard_ne_write_copying d reason
    cases htransacted with
    | notBegun hbegin hrest => simp [hrest.onlyCommands.statement_notMem] at hmem
    | failed hbegin hmoved hrest =>
      cases hmoved with
      | markRefused hmark =>
        obtain rfl : g = _ := by simpa [hrest.onlyCommands.statement_notMem] using hmem
        simp [hcount] at hmark
      | copyRefused hmark hn _ =>
        obtain rfl : g = _ := by simpa [hne, hrest.onlyCommands.statement_notMem] using hmem
        exact absurd (Except.ok.inj (hmark.symm.trans hcount)) hn
    | commit hbegin hmoved hrest =>
      cases hmoved with
      | copied hmark hn _ =>
        obtain rfl : g = _ := by simpa [hne, hrest.onlyCommands.statement_notMem] using hmem
        exact absurd (Except.ok.inj (hmark.symm.trans hcount)) hn
    | rollback hbegin hmoved hrest => cases hmoved
    | abandon hbegin hmoved =>
      cases hmoved with
      | notOut hmark => rfl
  · intro hanswer
    rcases htransacted.committed_cases fun _ _ => MovedAside.onlyStatements with
      ⟨hcommitted, -⟩ | ⟨-, hrolledBack⟩
    · exact hcommitted
    · rcases outcome with f | _ | _
      · cases hanswer
      · cases hanswer
      · obtain ⟨first, h | h⟩ := hrolledBack true rfl <;> cases h

/-! ### With a client -/

theorem run_moveAside (d : Delivery) (reason : String) :
    (moveAside (m := Dialogue) d reason).run = moveAside (m := Client.Action) d reason := by
  unfold moveAside
  rw [run_bind]
  refine bind_congr fun count => ?_
  rcases count with f | n
  · rfl
  · simp only
    split
    · rfl
    · rw [run_bind]
      refine bind_congr fun copy => ?_
      cases copy <;> rfl

/-- What is said with a client is a conversation about the message. -/
theorem exists_runs_setAside (d : Delivery) (reason : String) (c : Client) : ∃ said,
    Runs (setAside d reason) said ((setAside d reason : Client.Action _).run c).1 ∧
      ((setAside d reason : Client.Action _).run c).2.session.exchanges =
        c.session.exchanges ++ said := by
  obtain ⟨said, replies, hruns, hclient⟩ := exists_runs (setAside d reason) c
  have hsame : ((setAside (m := Dialogue) d reason).run.run c).1 =
        ((setAside d reason : Client.Action _).run c).1 ∧
      ((setAside (m := Dialogue) d reason).run.run c).2.session =
        ((setAside d reason : Client.Action _).run c).2.session := by
    unfold setAside
    rw [run_bind, run_transaction, run_moveAside]
    rw [StateT.run_bind, StateT.run_bind]
    rcases (transaction (moveAside d reason) : Client.Action _).run c with ⟨_ | _ | _, c'⟩ <;>
      exact ⟨rfl, rfl⟩
  rw [hsame.1] at hruns
  refine ⟨said, hruns, ?_⟩
  rw [← hsame.2, hclient]

end Queue

/-- All or nothing. A row is added, or a message copied, only in an open transaction whose guard
matched a row; only that is committed; and only what was committed is answered to be done. If the
guard matched nothing, the answer says so. -/
theorem guarded_writes_all_or_nothing :
    (∀ (e : Entry) (cap : Decimal) (said : List Exchange) (answer : Except StoreFault Insertion),
      Runs (Book.insert e cap) said answer →
      (Book.insertion e cap).Kept said ∧
      (∀ before g after, said = before ++ ⟨.statement (Book.raiseTotal e cap), g⟩ :: after →
        g.first? (single? Cell.decimal?) = .ok none →
        OpenSince before [] ∧ Book.Full e after answer) ∧
      ∀ t total, answer = .ok (.recorded t total) → Committed said) ∧
    (∀ (d : Delivery) (reason : String) (said : List Exchange) (answer : Except BrokerError Unit),
      Runs (Queue.setAside d reason) said answer →
      (Queue.copying d reason).Kept said ∧
      (∀ g, ⟨.statement (Queue.markGivenUp d.id reason), g⟩ ∈ said → g.count = .ok 0 →
        answer = .error (.unknownDelivery d.channel d.id)) ∧
      (answer = .ok () → Committed said)) ∧
    ∀ c : Client,
      (∀ (e : Entry) (cap : Decimal), ∃ said,
        Runs (Book.insert e cap) said ((Book.insert e cap : Client.Action _).run c).1 ∧
        ((Book.insert e cap : Client.Action _).run c).2.session.exchanges =
          c.session.exchanges ++ said) ∧
      ∀ (d : Delivery) (reason : String), ∃ said,
        Runs (Queue.setAside d reason) said
          ((Queue.setAside d reason : Client.Action _).run c).1 ∧
        ((Queue.setAside d reason : Client.Action _).run c).2.session.exchanges =
          c.session.exchanges ++ said :=
  ⟨fun _ _ _ _ => Book.insert_kept, fun _ _ _ _ => Queue.setAside_kept,
    fun c => ⟨fun e cap => Book.exists_runs_insert e cap c,
      fun d reason => Queue.exists_runs_setAside d reason c⟩⟩

/-- The total has no room, and the message is not out: the total is read, no message is known, and
neither transaction writes or commits anything. -/
theorem guarded_writes_all_or_nothing_unmatched :
    let e : Entry := ⟨⟨1, by decide⟩, ⟨1050, by decide, by decide⟩, "x"⟩
    let d : Delivery := ⟨7, "transactions", "1", 0, ⟨#[1]⟩, 1, .epoch⟩
    let c : Client := { session := { replies := [.rows [], .rows [[.text "995.00"]]] } }
    let c' : Client := { session := { replies := [.affected 0] } }
    let said := ((Book.insert e defaultCap : Client.Action _).run c).2.session.exchanges
    let said' := ((Queue.setAside d "late" : Client.Action _).run c').2.session.exchanges
    Runs (Book.insert e defaultCap) said
        (.ok (.capExceeded ⟨false, 99500, 2, by decide, by decide⟩)) ∧
      (Book.insertion e defaultCap).Withheld said ∧
      Runs (Queue.setAside d "late") said' (.error (.unknownDelivery "transactions" 7)) ∧
      (Queue.copying d "late").Withheld said' := by
  intro e d c c' said said'
  obtain ⟨hinsert, hsetAside, hclient⟩ := guarded_writes_all_or_nothing
  obtain ⟨first, hruns, hfirst⟩ := (hclient c).1 e defaultCap
  obtain ⟨second, hruns', hsecond⟩ := (hclient c').2 d "late"
  obtain rfl : said = first := hfirst
  obtain rfl : said' = second := hsecond
  have hguard : (Book.insertion e defaultCap).Withheld said :=
    (hinsert e defaultCap said _ hruns).1.unmatched (.rows [])
      (List.mem_of_getElem? (i := 1) rfl) rfl
  have hguard' : (Queue.copying d "late").Withheld said' :=
    (hsetAside d "late" said' _ hruns').1.unmatched (.affected 0)
      (List.mem_of_getElem? (i := 1) rfl) rfl
  exact ⟨hruns, hguard, hruns', hguard'⟩

end SpendingLedger.Database
