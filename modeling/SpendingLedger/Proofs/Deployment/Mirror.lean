import SpendingLedger.Proofs.Deployment.Pipeline

/-!
The statistics mirror the ledger. In every state that a site at work can reach, what is in the book
is counted, on its way, or lost because its announcement failed, and none of it twice. Once nothing
is on its way and if nothing was lost, the statistics agree with the book.
-/

namespace SpendingLedger

namespace Pipeline

open Events

/-! ### Rows -/

theorem length_rows_step (p : Pipeline) (s : Step) :
    p.site.book.rows.length ≤ (p.step s).site.book.rows.length ∧
      (p.step s).site.book.rows.length ≤ p.site.book.rows.length + 1 := by
  have hsame : ∀ site : Deployment, site.book = p.site.book →
      p.site.book.rows.length ≤ site.book.rows.length ∧
        site.book.rows.length ≤ p.site.book.rows.length + 1 := by
    intro site hbook
    rw [hbook]
    omega
  cases s with
  | request r =>
    obtain ⟨book, announced, notices, hchange, hleaves⟩ := p.site.leaves_action r
    have hbook := (Deployment.announces_flush ((r.action p.site.cap).run p.site).2).book_eq
    simp only [step, hbook]
    rw [hleaves]
    exact hchange.length_rows
  | receive =>
    rw [step]
    split <;> next h => exact hsame _ (congrArg (fun r => r.2.book) h).symm
  | process k =>
    rw [step]
    split
    · exact hsame _ rfl
    · exact hsame _ (Deployment.keepsBook_process _ _)
  | setUnreachable | close | setStore | setClock => exact hsame _ rfl

theorem length_rows_run (p : Pipeline) (steps : List Step) :
    p.site.book.rows.length ≤ (p.run steps).site.book.rows.length ∧
      (p.run steps).site.book.rows.length ≤ p.site.book.rows.length + steps.length := by
  induction steps generalizing p with
  | nil => exact ⟨Nat.le_refl _, Nat.le_refl _⟩
  | cons s rest ih =>
    have hstep := p.length_rows_step s
    have hrest := ih (p.step s)
    rw [show p.run (s :: rest) = (p.step s).run rest from rfl, List.length_cons]
    omega

theorem Aligned.run {p : Pipeline} {counted : List Event} (h : p.Aligned counted [])
    (steps : List Step) (hlength : (p.run steps).site.book.rows.length < 2 ^ 63) :
    ∃ counted', (p.run steps).Aligned counted' [] := by
  induction steps generalizing p counted with
  | nil => exact ⟨counted, h⟩
  | cons s rest ih =>
    have hrest := (length_rows_run (p.step s) rest).1
    have hstep := (p.length_rows_step s).1
    have hlt : ((p.step s).run rest).site.book.rows.length < 2 ^ 63 := hlength
    obtain ⟨counted', h'⟩ := h.step (by omega) s
    exact ih h' hlt

/-! ### The mirror -/

def statistics (p : Pipeline) : Statistics := p.site.handler.statistics

/-- The statistics say of every user, and overall, what the book says. -/
structure Agrees (s : Statistics) (b : Book) : Prop where
  transactions_eq : s.transactions.toNat = b.rows.length
  amount_eq : s.amount.toRat = (b.spentInAll : ℚ) / 100
  paid_eq : s.paid.toNat = b.rows.countP (·.isPaid)
  size_users : s.users.size = b.totals.size
  users_eq : ∀ u, s.users.get? u =
    (b.totals.get? u).map fun total => ⟨UInt64.ofNat (b.rowsOf u).length, total⟩

/-- What is in the book is counted, on its way or lost, and none of it twice. -/
structure Mirrored (p : Pipeline) : Prop where
  length_rowsOf : ∀ u, (p.site.book.rowsOf u).length = (p.statistics.totalsOf u).count.toNat +
    (recordedOf u p.pending).length + (recordedOf u p.lost).length
  spent_eq : ∀ u, (p.site.book.spent u : ℚ) / 100 = (p.statistics.totalsOf u).amount.toRat +
    (Entry.worth (recordedOf u p.pending) : ℚ) / 100 + (Entry.worth (recordedOf u p.lost) : ℚ) / 100
  paid_eq : p.site.book.rows.countP (·.isPaid) =
    p.statistics.paid.toNat + rowsPaid p.pending + rowsPaid p.lost
  /-- Every message on the channel is one of the events on their way. -/
  length_pending : p.pending.length = p.site.broker.pending p.site.channel
  /-- No message was sent back or given up. -/
  outcomes_eq : ∀ outcome ∈ p.outcomes, outcome = .ok .acknowledge
  setAside_eq : p.site.setAside = []
  pending_eq_zero : ∀ name, name ≠ p.site.channel → p.site.broker.pending name = 0
  agrees : p.site.broker.pending p.site.channel = 0 → p.lost = [] → Agrees p.statistics p.site.book

variable {p : Pipeline} {counted : List Event}

theorem Aligned.length_pending (h : p.Aligned counted []) :
    p.pending.length = p.site.broker.pending p.site.channel := by
  rw [← Broker.length_lettersOn, pending]
  have hall := h.exists_event
  generalize p.site.broker.lettersOn p.site.channel = letters at hall ⊢
  induction letters with
  | nil => rfl
  | cons x rest ih =>
    obtain ⟨e, he⟩ := hall x List.mem_cons_self
    rw [List.filterMap_cons_some (eventOf?_eq he), List.length_cons, List.length_cons,
      ih fun x hx => hall x (List.mem_cons_of_mem _ hx)]

/-- A user has statistics exactly if the user has a total, and then they tell the same. -/
theorem Aligned.users_eq (h : p.Aligned counted []) (hbook : p.site.book.AccountedBy counted)
    (u : UserId) : p.statistics.users.get? u =
      (p.site.book.totals.get? u).map fun total =>
        ⟨UInt64.ofNat (p.site.book.rowsOf u).length, total⟩ := by
  have hnone : p.statistics.users.get? u = none ↔ p.site.book.totals.get? u = none := by
    rw [statistics, h.reflects.get?_users_eq_none_iff, h.balanced.get?_eq_none_iff,
      ← List.length_eq_zero_iff, ← List.length_eq_zero_iff, hbook.length_rowsOf]
  have hcount : (p.statistics.totalsOf u).count.toNat = (p.site.book.rowsOf u).length := by
    rw [statistics, h.reflects.count_totalsOf_eq, hbook.length_rowsOf]
  have hamount : (p.statistics.totalsOf u).amount = p.site.book.total u := by
    have htotal := h.reflects.amount_totalsOf_isTotalOf u
    rw [← hbook.spent_eq] at htotal
    exact htotal.unique (h.balanced.total_isTotalOf u)
  rw [Statistics.totalsOf] at hcount hamount
  rw [Book.total] at hamount
  cases ht : p.site.book.totals.get? u with
  | none => rw [hnone.2 ht, Option.map_none]
  | some total =>
    cases hu : p.statistics.users.get? u with
    | none =>
      rw [hnone.1 hu] at ht
      contradiction
    | some t =>
      rw [hu, Option.getD_some] at hcount hamount
      rw [ht, Option.getD_some] at hamount
      rw [Option.map_some, ← hcount, ← hamount, UInt64.ofNat_toNat]

theorem Aligned.agrees (h : p.Aligned counted []) (hpending : p.pending = [])
    (hlost : p.lost = []) : Agrees p.statistics p.site.book := by
  have hbook := h.accountedBy
  rw [hpending, hlost, List.append_nil, List.append_nil, List.append_nil] at hbook
  refine ⟨?_, ?_, ?_, Table.size_eq_of_get?_eq_none_iff fun u => ?_, h.users_eq hbook⟩
  · rw [statistics, h.reflects.transactions_eq, hbook.length_rows]
  · rw [statistics, h.reflects.amount_isTotalOf.toRat_eq, hbook.spentInAll_eq]
  · rw [statistics, h.reflects.paid_eq, hbook.rowsPaid]
  · rw [h.users_eq hbook u, Option.map_eq_none_iff]

theorem Aligned.mirrored (h : p.Aligned counted []) : p.Mirrored where
  length_rowsOf u := by
    rw [h.accountedBy.length_rowsOf u, statistics, h.reflects.count_totalsOf_eq u]
    simp only [recordedOf_append, List.length_append]
    rfl
  spent_eq u := by
    rw [h.accountedBy.spent_eq u, statistics, (h.reflects.amount_totalsOf_isTotalOf u).toRat_eq,
      List.append_nil]
    simp only [recordedOf_append, worth_append]
    push_cast
    ring
  paid_eq := by
    rw [h.accountedBy.rowsPaid, statistics, h.reflects.paid_eq]
    simp only [rowsPaid_append]
    rfl
  length_pending := h.length_pending
  outcomes_eq := h.outcomes_eq
  setAside_eq := h.setAside_eq
  pending_eq_zero name hname := by
    rw [← Broker.length_lettersOn, h.lettersOn_eq_nil name hname, List.length_nil]
  agrees hpending hlost := by
    rw [← h.length_pending] at hpending
    exact h.agrees (List.length_eq_zero_iff.1 hpending) hlost

/-- As long as there are fewer than `2^63` rows, the statistics mirror the ledger. -/
theorem run_mirrored (channel : String) (lanes : UInt32) (policy : RetryPolicy) (clock : Timestamp)
    (steps : List Step)
    (hrows : ((start channel lanes policy clock).run steps).site.book.rows.length < 2 ^ 63) :
    ((start channel lanes policy clock).run steps).Mirrored := by
  obtain ⟨counted, h⟩ := (aligned_start channel lanes policy clock).run steps hrows
  exact h.mirrored

/-- A transaction that is counted, and a payment of it that is announced in vain. -/
theorem run_mirrored_lost :
    ((start "transactions" 8 .standard default).run
      [.request (.create {} ⟨1, ⟨false, 60000, 2, by decide, by decide⟩, "rent"⟩), .receive,
        .setUnreachable true, .request (.pay {} 1), .process 0]).site.book.rows.length < 2 ^ 63 ∧
    ((start "transactions" 8 .standard default).run
      [.request (.create {} ⟨1, ⟨false, 60000, 2, by decide, by decide⟩, "rent"⟩), .receive,
        .setUnreachable true, .request (.pay {} 1), .process 0]).Mirrored := by
  have hrows := Nat.lt_of_le_of_lt
    (length_rows_run (start "transactions" 8 .standard default)
      [.request (.create {} ⟨1, ⟨false, 60000, 2, by decide, by decide⟩, "rent"⟩), .receive,
        .setUnreachable true, .request (.pay {} 1), .process 0]).2
    (show 0 + 5 < 2 ^ 63 by decide)
  exact ⟨hrows, run_mirrored _ _ _ _ _ hrows⟩

end Pipeline

end SpendingLedger
