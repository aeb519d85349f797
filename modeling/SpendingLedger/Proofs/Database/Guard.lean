import Mathlib.Data.List.Basic
import SpendingLedger.Proofs.Database.Insertion

/-!
Writes behind a guard. A transaction first runs a statement that matches a row only if the write is
allowed, goes on to the write only if a row was matched, and commits only what was written. Adding a
row is such a transaction; if the guard matched nothing, the total is read before it is rolled back.
-/

namespace SpendingLedger.Database

open Dialogue

/-- A transaction is open: it was begun, and then nothing was sent but these statements. -/
def OpenSince (said since : List Exchange) : Prop :=
  ∃ outside reply n, said = outside ++ ⟨.command .begin, reply⟩ :: since ∧
    reply.count = .ok n ∧ OnlyStatements since

/-- A statement that matches a row only if something may be written, and the statement that writes
it. -/
structure GuardedWrite where
  guard : Statement
  /-- Whether a row was matched. -/
  matched : Reply → Except Fault Bool
  write : Statement
  /-- It was written. -/
  written : Reply → Prop

/-- Nothing is said but commands. -/
def OnlyCommands (said : List Exchange) : Prop := ∀ x ∈ said, ∃ c, x.request = .command c

section

variable {α : Type} {rest : List Exchange} {x : Exchange}

theorem GivenUp.request_eq (h : GivenUp rest) (hx : x ∈ rest) :
    x.request = .command .rollback := by
  cases h with
  | lost => exact absurd hx List.not_mem_nil
  | refused reply => rw [List.mem_singleton.1 hx]

theorem GivenUp.onlyCommands (h : GivenUp rest) : OnlyCommands rest :=
  fun _ hx => ⟨.rollback, h.request_eq hx⟩

theorem Concluded.onlyCommands {c : Command} {v : α} {r : Except Fault α}
    (h : Concluded c v rest r) : OnlyCommands rest := by
  intro x hx
  cases h with
  | done _ => exact ⟨c, by rw [List.mem_singleton.1 hx]⟩
  | failed _ hrest =>
    rcases List.mem_cons.1 hx with rfl | hx
    · exact ⟨c, rfl⟩
    · exact hrest.onlyCommands x hx

theorem OnlyCommands.statement_notMem (h : OnlyCommands rest) (s : Statement) (reply : Reply) :
    ⟨.statement s, reply⟩ ∉ rest := by
  intro hmem
  obtain ⟨c, hc⟩ := h _ hmem
  cases hc

theorem OnlyCommands.statement_notMem_cons (h : OnlyCommands rest) {s s' : Statement} (hne : s' ≠ s)
    (reply reply' : Reply) : ⟨.statement s, reply⟩ ∉ ⟨.statement s', reply'⟩ :: rest := by
  simp [hne.symm, h.statement_notMem]

end

namespace GuardedWrite

variable {α : Type} (w : GuardedWrite)

/-- Nothing is written, and nothing is committed. -/
def Withheld (said : List Exchange) : Prop :=
  ∀ x ∈ said, x.request ≠ .statement w.write ∧ x.request ≠ .command .commit

/-- All or nothing: what is said when the guard is kept. -/
structure Kept (said : List Exchange) : Prop where
  write : ∀ before reply after, said = before ++ ⟨.statement w.write, reply⟩ :: after →
    ∃ g, OpenSince before [⟨.statement w.guard, g⟩] ∧ w.matched g = .ok true
  commit : ∀ before reply after, said = before ++ ⟨.command .commit, reply⟩ :: after →
    ∃ g r, OpenSince before [⟨.statement w.guard, g⟩, ⟨.statement w.write, r⟩] ∧
      w.matched g = .ok true ∧ w.written r
  unmatched : ∀ g, ⟨.statement w.guard, g⟩ ∈ said → w.matched g = .ok false → w.Withheld said

/-- What may be said in the transaction, and how it is to end then. -/
inductive Path : List Exchange → Except Fault (Ending α) → Prop
  | withheld {g : Reply} {rest : List Exchange} {ending : Except Fault (Ending α)}
      (h : w.matched g ≠ .ok true) (hrest : w.Withheld rest)
      (hending : ∀ v, ending ≠ .ok (.commit v)) : Path (⟨.statement w.guard, g⟩ :: rest) ending
  | refused {g r : Reply} {f : Fault} (h : w.matched g = .ok true) :
    Path [⟨.statement w.guard, g⟩, ⟨.statement w.write, r⟩] (.error f)
  | written {g r : Reply} {v : α} (h : w.matched g = .ok true) (hwritten : w.written r) :
    Path [⟨.statement w.guard, g⟩, ⟨.statement w.write, r⟩] (.ok (.commit v))

variable {w} {said first rest : List Exchange} {r : Except Fault α}

/-! ### What is withheld -/

theorem withheld_append_iff : w.Withheld (first ++ rest) ↔ w.Withheld first ∧ w.Withheld rest :=
  List.forall_mem_append

theorem withheld_cons_iff {x : Exchange} : w.Withheld (x :: rest) ↔
    (x.request ≠ .statement w.write ∧ x.request ≠ .command .commit) ∧ w.Withheld rest :=
  List.forall_mem_cons

theorem withheld_of_givenUp (h : GivenUp rest) : w.Withheld rest := by
  cases h with
  | lost => exact List.forall_mem_nil _
  | refused reply => simp [Withheld]

theorem withheld_of_concluded {v : α} (h : Concluded .rollback v rest r) : w.Withheld rest := by
  cases h with
  | done h => simp [Withheld]
  | failed h hrest => exact withheld_cons_iff.2 ⟨⟨nofun, nofun⟩, withheld_of_givenUp hrest⟩

/-! ### Whole transactions -/

/-- A transaction that got as far as the write. A commit may only come next. -/
inductive Written (w : GuardedWrite) : List Exchange → Prop
  | intro {reply g r : Reply} {n : UInt64} {rest : List Exchange} (hbegin : reply.count = .ok n)
      (h : w.matched g = .ok true) (hrest : OnlyCommands rest)
      (hcommit : ∀ before reply' after, rest = before ++ ⟨.command .commit, reply'⟩ :: after →
        before = [] ∧ w.written r) :
    Written w (⟨.command .begin, reply⟩ :: ⟨.statement w.guard, g⟩ ::
      ⟨.statement w.write, r⟩ :: rest)

theorem written_of_givenUp {reply g r : Reply} {n : UInt64} (hbegin : reply.count = .ok n)
    (h : w.matched g = .ok true) (hrest : GivenUp rest) :
    Written w (⟨.command .begin, reply⟩ :: ⟨.statement w.guard, g⟩ ::
      ⟨.statement w.write, r⟩ :: rest) := by
  refine .intro hbegin h hrest.onlyCommands fun before reply' after hsplit => ?_
  exact nomatch hrest.request_eq (x := ⟨.command .commit, reply'⟩) (by simp [hsplit])

theorem written_of_concluded {reply g x : Reply} {n : UInt64} {v : α}
    (hbegin : reply.count = .ok n) (h : w.matched g = .ok true) (hwritten : w.written x)
    (hrest : Concluded .commit v rest r) :
    Written w (⟨.command .begin, reply⟩ :: ⟨.statement w.guard, g⟩ ::
      ⟨.statement w.write, x⟩ :: rest) := by
  refine .intro hbegin h hrest.onlyCommands fun before reply' after hsplit => ⟨?_, hwritten⟩
  obtain ⟨reply'', rest', rfl, hrest'⟩ :
      ∃ reply'' rest', rest = ⟨.command .commit, reply''⟩ :: rest' ∧ GivenUp rest' := by
    cases hrest with
    | done _ => exact ⟨_, [], rfl, .lost⟩
    | failed _ hrest => exact ⟨_, _, rfl, hrest⟩
  cases before with
  | nil => rfl
  | cons _ before =>
    obtain ⟨-, rfl⟩ := List.cons.inj hsplit
    exact nomatch hrest'.request_eq (x := ⟨.command .commit, reply'⟩) (by simp)

theorem withheld_or_written (hne : w.guard ≠ w.write) (h : Transacted w.Path said r) :
    w.Withheld said ∨ Written w said := by
  have hguard {reply g : Reply} {rest : List Exchange} (hrest : w.Withheld rest) :
      w.Withheld (⟨.command .begin, reply⟩ :: ⟨.statement w.guard, g⟩ :: rest) := by
    simpa [withheld_cons_iff, hne] using hrest
  cases h with
  | notBegun hbegin hrest =>
    exact .inl (withheld_cons_iff.2 ⟨⟨nofun, nofun⟩, withheld_of_givenUp hrest⟩)
  | failed hbegin hpath hrest =>
    cases hpath with
    | withheld h hfirst _ =>
      exact .inl (hguard (withheld_append_iff.2 ⟨hfirst, withheld_of_givenUp hrest⟩))
    | refused h => exact .inr (written_of_givenUp hbegin h hrest)
  | commit hbegin hpath hrest =>
    cases hpath with
    | withheld _ _ hending => exact absurd rfl (hending _)
    | written h hwritten => exact .inr (written_of_concluded hbegin h hwritten hrest)
  | rollback hbegin hpath hrest =>
    cases hpath with
    | withheld h hfirst _ =>
      exact .inl (hguard (withheld_append_iff.2 ⟨hfirst, withheld_of_concluded hrest⟩))
  | abandon hbegin hpath =>
    cases hpath with
    | withheld h hfirst _ =>
      exact .inl (hguard (withheld_append_iff.2 ⟨hfirst, withheld_of_givenUp (.refused _)⟩))

theorem Withheld.kept (h : w.Withheld said) : w.Kept said where
  write before reply after hsaid := absurd rfl (h ⟨.statement w.write, reply⟩ (by simp [hsaid])).1
  commit before reply after hsaid := absurd rfl (h ⟨.command .commit, reply⟩ (by simp [hsaid])).2
  unmatched _ _ _ := h

theorem Written.kept (hne : w.guard ≠ w.write) (h : Written w said) : w.Kept said := by
  obtain @⟨reply, g, r, n, rest, hbegin, hmatched, hrest, hcommit⟩ := h
  have hopen {since : List Exchange} (hsince : OnlyStatements since) :
      OpenSince (⟨.command .begin, reply⟩ :: since) since :=
    ⟨[], reply, n, rfl, hbegin, hsince⟩
  constructor
  · intro before reply' after hsaid
    have hfirst : (⟨.statement w.write, reply'⟩ : Exchange) ∉
        [⟨.command .begin, reply⟩, ⟨.statement w.guard, g⟩] := by
      simp [hne.symm]
    obtain ⟨rfl, -⟩ := (List.append_cons_inj_of_notMem hfirst
      (hrest.statement_notMem w.write reply')).1 hsaid
    exact ⟨g, hopen (by simp [OnlyStatements]), hmatched⟩
  · intro before reply' after hsaid
    rcases before with _ | ⟨_, _ | ⟨_, _ | ⟨_, before⟩⟩⟩ <;>
      simp only [List.nil_append, List.cons_append, List.cons.injEq, Exchange.mk.injEq,
        Request.command.injEq, reduceCtorEq, false_and, and_false] at hsaid
    obtain ⟨rfl, rfl, rfl, hsplit⟩ := hsaid
    obtain ⟨rfl, hwritten⟩ := hcommit before reply' after hsplit
    exact ⟨g, r, hopen (by simp [OnlyStatements]), hmatched, hwritten⟩
  · intro g' hmem hunmatched
    obtain rfl : g' = g := by simpa [hne, hrest.statement_notMem] using hmem
    rw [hmatched] at hunmatched
    cases hunmatched

/-- A transaction along these paths keeps the guard. -/
theorem kept_of_transacted (hne : w.guard ≠ w.write) (h : Transacted w.Path said r) :
    w.Kept said := by
  rcases withheld_or_written hne h with hwithheld | hwritten
  · exact hwithheld.kept
  · exact hwritten.kept hne

end GuardedWrite

/-! ### Adding a row -/

namespace Book

variable {e : Entry} {cap : Decimal} {said : List Exchange} {answer : Except StoreFault Insertion}

/-- A row is added only if the total could be raised. -/
def insertion (e : Entry) (cap : Decimal) : GuardedWrite where
  guard := raiseTotal e cap
  matched reply := (reply.first? (single? Cell.decimal?)).map Option.isSome
  write := addRow e
  written reply := ∃ r, reply.first Record.ofRow? = .ok r

/-- What is said once the total could not be raised, and what is answered then: the total as it is
read next, unless reading it or rolling back fails. -/
inductive Full (e : Entry) : List Exchange → Except StoreFault Insertion → Prop
  | told {reply reply' : Reply} {total : Decimal} {n : UInt64}
      (h : reply.first (single? Cell.decimal?) = .ok total) (h' : reply'.count = .ok n) :
    Full e [⟨.statement (readTotal e.user), reply⟩, ⟨.command .rollback, reply'⟩]
      (.ok (.capExceeded total))
  | unread {reply : Reply} {f : Fault} {rest : List Exchange}
      (h : reply.first (single? Cell.decimal?) = .error f) (hrest : GivenUp rest) :
    Full e (⟨.statement (readTotal e.user), reply⟩ :: rest) (.error .database)
  | stuck {reply reply' : Reply} {f : Fault} {rest : List Exchange}
      (h : reply'.count = .error f) (hrest : GivenUp rest) :
    Full e (⟨.statement (readTotal e.user), reply⟩ :: ⟨.command .rollback, reply'⟩ :: rest)
      (.error .database)

theorem matched_insertion {reply : Reply} {total? : Option Decimal}
    (h : reply.first? (single? Cell.decimal?) = .ok total?) :
    (insertion e cap).matched reply = .ok total?.isSome :=
  congrArg (Except.map Option.isSome) h

theorem guard_ne_write_insertion (e : Entry) (cap : Decimal) :
    (insertion e cap).guard ≠ (insertion e cap).write := by
  intro h
  have hlast : [Param.numeric cap] = [.text e.description] := congrArg (·.params.drop 2) h
  cases hlast

theorem readTotal_ne (u : UserId) {s : Statement} (h : s.params.length = 3) : readTotal u ≠ s := by
  rintro rfl
  have hlength : 1 = 3 := h
  cases hlength

theorem Raised.path {ending : Except Fault (Ending Raise)} (h : Raised e cap said ending) :
    (insertion e cap).Path said ending := by
  have hread {reply : Reply} :
      (insertion e cap).Withheld [⟨.statement (readTotal e.user), reply⟩] := by
    intro x hx
    obtain rfl := List.mem_singleton.1 hx
    refine ⟨fun h => ?_, nofun⟩
    exact readTotal_ne e.user rfl (Request.statement.inj h)
  cases h with
  | totalRefused h =>
    have hmatched : (insertion e cap).matched _ = _ := congrArg (Except.map Option.isSome) h
    exact .withheld (by simp [hmatched, Except.map]) (List.forall_mem_nil _) (by simp)
  | noRoom h h' => exact .withheld (by simp [matched_insertion h]) hread (by simp)
  | totalUnread h h' => exact .withheld (by simp [matched_insertion h]) hread (by simp)
  | added h h' => exact .written (matched_insertion h) ⟨_, h'⟩
  | rowRefused h h' => exact .refused (matched_insertion h)

/-- A conversation with one guard in it, and what is answered if that matched nothing. -/
inductive Asked (e : Entry) (cap : Decimal) (answer : Except StoreFault Insertion) :
    List Exchange → Prop
  | never {said : List Exchange} (h : ∀ g, ⟨.statement (raiseTotal e cap), g⟩ ∉ said) :
    Asked e cap answer said
  | once {reply g : Reply} {n : UInt64} {rest : List Exchange} (hbegin : reply.count = .ok n)
      (hrest : ∀ g, ⟨.statement (raiseTotal e cap), g⟩ ∉ rest)
      (h : g.first? (single? Cell.decimal?) = .ok none → Full e rest answer) :
    Asked e cap answer (⟨.command .begin, reply⟩ :: ⟨.statement (raiseTotal e cap), g⟩ :: rest)

theorem asked_of_transacted {outcome : Except Fault Raise}
    (h : Transacted (Raised e cap) said outcome) :
    Asked e cap ((stored outcome).bind Raise.toInsertion) said := by
  have hread : readTotal e.user ≠ raiseTotal e cap := readTotal_ne e.user rfl
  have hadd : addRow e ≠ raiseTotal e cap := (guard_ne_write_insertion e cap).symm
  cases h with
  | notBegun hbegin hrest => exact .never fun g => by simp [hrest.onlyCommands.statement_notMem]
  | failed hbegin hraised hrest =>
    have honly := hrest.onlyCommands
    cases hraised with
    | totalRefused h =>
      exact .once hbegin (honly.statement_notMem _) fun hnone => by simp [h] at hnone
    | totalUnread h h' =>
      exact .once hbegin (fun g => honly.statement_notMem_cons hread g _)
        fun _ => .unread h' hrest
    | rowRefused h h' =>
      exact .once hbegin (fun g => honly.statement_notMem_cons hadd g _)
        fun hnone => by simp [h] at hnone
  | commit hbegin hraised hrest =>
    have honly := hrest.onlyCommands
    cases hraised with
    | added h h' =>
      exact .once hbegin (fun g => honly.statement_notMem_cons hadd g _)
        fun hnone => by simp [h] at hnone
  | rollback hbegin hraised hrest =>
    have honly := hrest.onlyCommands
    cases hraised with
    | noRoom h h' =>
      refine .once hbegin (fun g => honly.statement_notMem_cons hread g _) fun _ => ?_
      cases hrest with
      | done hcount => exact .told h' hcount
      | failed hcount hrest => exact .stuck hcount hrest
  | abandon hbegin hraised => cases hraised

theorem insert_kept (h : Runs (insert e cap) said answer) :
    (insertion e cap).Kept said ∧
    (∀ before g after, said = before ++ ⟨.statement (raiseTotal e cap), g⟩ :: after →
      g.first? (single? Cell.decimal?) = .ok none → OpenSince before [] ∧ Full e after answer) ∧
    ∀ t total, answer = .ok (.recorded t total) → Committed said := by
  obtain ⟨outcome, htransacted, rfl⟩ := transacted_of_runs_insert h
  refine ⟨?_, ?_, ?_⟩
  · exact GuardedWrite.kept_of_transacted (guard_ne_write_insertion e cap)
      (htransacted.mono fun _ _ => Raised.path)
  · intro before g after hsaid hnone
    cases asked_of_transacted htransacted with
    | never hnot => exact absurd (by simp [hsaid]) (hnot g)
    | once hbegin hrest hfull =>
      have hfirst (reply : Reply) : (⟨.statement (raiseTotal e cap), g⟩ : Exchange) ∉
          [⟨.command .begin, reply⟩] := by
        simp
      obtain ⟨rfl, hg, rfl⟩ := (List.append_cons_inj_of_notMem (hfirst _) (hrest g)).1 hsaid
      obtain ⟨-, rfl⟩ := Exchange.mk.inj hg
      exact ⟨⟨[], _, _, rfl, hbegin, List.forall_mem_nil _⟩, hfull hnone⟩
  · intro t total hanswer
    rcases htransacted.committed_cases fun _ _ => Raised.onlyStatements with
      ⟨hcommitted, -⟩ | ⟨-, hrolledBack⟩
    · exact hcommitted
    · cases outcome with
      | error f => cases hanswer
      | ok v =>
        obtain ⟨first, hraised⟩ := hrolledBack v rfl
        obtain ⟨total', rfl⟩ := Raised.exists_total hraised
        cases hanswer

end Book

end SpendingLedger.Database
