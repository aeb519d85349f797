import SpendingLedger.Accounting
import SpendingLedger.Proofs.Book.Balance
import SpendingLedger.Proofs.Event.Tally

/-!
A book beside the events that tell of it. Every change of a book is announced by one event, and
nothing else is, so the events account for the book: the entries of its rows are the ones recorded,
and as many rows are paid as were said to be. Under the cap of production the sums over such events
always fit.
-/

namespace SpendingLedger.Book

open Events

theorem insert_cases (b : Book) (now : Timestamp) (e : Entry) (cap : Decimal) :
    (∃ newTotal, e.amount.addWithin? (b.total e.user) cap = some newTotal ∧
      b.insert now e cap = (.recorded (b.row now e) newTotal, b.record now e newTotal)) ∨
    b.insert now e cap = (.capExceeded (b.total e.user), b) := by
  rw [insert]
  cases h : e.amount.addWithin? (b.total e.user) cap with
  | none => exact .inr rfl
  | some newTotal => exact .inl ⟨newTotal, rfl, rfl⟩

/-- What an operation may do to a book, and what it announces. -/
inductive Change (cap : Decimal) (now : Timestamp) (b : Book) : Book → List Event → Prop
  | none : Change cap now b b []
  | record (e : Entry) (newTotal : Decimal)
      (h : e.amount.addWithin? (b.total e.user) cap = some newTotal) :
    Change cap now b (b.record now e newTotal) [.ofTransaction (b.row now e) now]
  /-- A payment of nothing is not announced. -/
  | pay (u : UserId) :
    Change cap now b (b.markPaid u).2
      (if 0 < (b.markPaid u).1 then [.paid u (b.markPaid u).1 now] else [])

structure AccountedBy (b : Book) (events : List Event) : Prop where
  entries : (b.rows.map Transaction.entry).Perm (recorded events)
  rowsPaid : b.rows.countP (·.isPaid) = Events.rowsPaid events
  rowsPaid_pos : ∀ e ∈ events, e.entry? = none → 0 < e.rowsPaid

theorem accountedBy_empty : AccountedBy {} [] where
  entries := .nil
  rowsPaid := rfl
  rowsPaid_pos _ he := absurd he List.not_mem_nil

variable {b : Book} {events : List Event}

theorem AccountedBy.of_perm (h : b.AccountedBy events) {events' : List Event}
    (hperm : events.Perm events') : b.AccountedBy events' where
  entries := h.entries.trans (perm_recorded hperm)
  rowsPaid := h.rowsPaid.trans (rowsPaid_eq_of_perm hperm)
  rowsPaid_pos e he := h.rowsPaid_pos e (hperm.mem_iff.2 he)

/-! ### Users -/

theorem map_entry_rowsOf (b : Book) (u : UserId) :
    (b.rowsOf u).map Transaction.entry =
      (b.rows.map Transaction.entry).filter (fun e => e.user = u) := by
  rw [rowsOf, List.filter_map]
  rfl

theorem AccountedBy.perm_rowsOf (h : b.AccountedBy events) (u : UserId) :
    ((b.rowsOf u).map Transaction.entry).Perm (recordedOf u events) := by
  rw [map_entry_rowsOf]
  exact h.entries.filter _

theorem AccountedBy.length_rowsOf (h : b.AccountedBy events) (u : UserId) :
    (b.rowsOf u).length = (recordedOf u events).length := by
  rw [← (h.perm_rowsOf u).length_eq, List.length_map]

theorem worth_map_entry (rows : List Transaction) :
    Entry.worth (rows.map Transaction.entry) = (rows.map (·.amount.hundredths)).sum := by
  rw [Entry.worth, List.map_map]
  rfl

theorem AccountedBy.spent_eq (h : b.AccountedBy events) (u : UserId) :
    b.spent u = Entry.worth (recordedOf u events) := by
  rw [← worth_eq_of_perm (h.perm_rowsOf u), worth_map_entry, spent]

theorem AccountedBy.length_rows (h : b.AccountedBy events) :
    b.rows.length = (recorded events).length := by
  rw [← h.entries.length_eq, List.length_map]

theorem AccountedBy.spentInAll_eq (h : b.AccountedBy events) :
    b.spentInAll = Entry.worth (recorded events) := by
  rw [← worth_eq_of_perm h.entries, worth_map_entry, spentInAll]

/-! ### Changes -/

/-- Rows that are paid stay paid, and the unpaid ones of the user join them. -/
theorem countP_isPaid_turned (q : UserId → Bool) (u : UserId) (rows : List Transaction) :
    (rows.map fun t => if IsUnpaidOf u t then { t with isPaid := true } else t).countP
        (fun t => t.isPaid && q t.user) =
      rows.countP (fun t => t.isPaid && q t.user) +
        if q u then rows.countP (fun t => IsUnpaidOf u t) else 0 := by
  induction rows with
  | nil => simp
  | cons t rest ih =>
    rw [List.map_cons, List.countP_cons, List.countP_cons, List.countP_cons, ih]
    by_cases h : IsUnpaidOf u t
    · obtain ⟨huser, hpaid⟩ := h
      simp only [IsUnpaidOf, huser, hpaid, and_self, decide_true, ↓reduceIte, Bool.true_and,
        Bool.false_and, Bool.false_eq_true]
      split <;> omega
    · simp only [h, decide_false, ↓reduceIte, Bool.false_eq_true, Nat.add_zero]
      omega

theorem countP_isPaid_markPaid (b : Book) (u : UserId) :
    (b.markPaid u).2.rows.countP (·.isPaid) =
      b.rows.countP (·.isPaid) + b.rows.countP (fun t => IsUnpaidOf u t) := by
  rw [markPaid]
  simpa only [Bool.and_true, ↓reduceIte] using countP_isPaid_turned (fun _ => true) u b.rows

theorem map_entry_markPaid (b : Book) (u : UserId) :
    (b.markPaid u).2.rows.map Transaction.entry = b.rows.map Transaction.entry := by
  rw [markPaid, List.map_map]
  apply List.map_congr_left
  intro t _
  rw [Function.comp_apply]
  split <;> rfl

theorem toNat_markPaid {b : Book} (h : b.rows.length < 2 ^ 64) (u : UserId) :
    (b.markPaid u).1.toNat = b.rows.countP (fun t => IsUnpaidOf u t) := by
  rw [markPaid, UInt64.toNat_ofNat']
  exact Nat.mod_eq_of_lt (Nat.lt_of_le_of_lt List.countP_le_length h)

theorem AccountedBy.record (h : b.AccountedBy events) (now : Timestamp) (e : Entry)
    (newTotal : Decimal) :
    (b.record now e newTotal).AccountedBy (events ++ [.ofTransaction (b.row now e) now]) where
  entries := by
    rw [recorded_append]
    exact (h.entries.cons e).trans (List.perm_append_singleton ..).symm
  rowsPaid := by
    rw [rowsPaid_append]
    exact h.rowsPaid
  rowsPaid_pos e' he hentry := by
    rcases List.mem_append.1 he with he | he
    · exact h.rowsPaid_pos e' he hentry
    · rw [List.mem_singleton.1 he] at hentry
      contradiction

theorem AccountedBy.pay (h : b.AccountedBy events) (now : Timestamp)
    (hlength : b.rows.length < 2 ^ 64) (u : UserId) :
    (b.markPaid u).2.AccountedBy (events ++
      if 0 < (b.markPaid u).1 then [.paid u (b.markPaid u).1 now] else []) := by
  have hcount := toNat_markPaid hlength u
  by_cases hpos : 0 < (b.markPaid u).1
  · rw [if_pos hpos]
    refine ⟨?_, ?_, fun e he hentry => ?_⟩
    · rw [map_entry_markPaid, recorded_append]
      exact h.entries.trans (.of_eq (List.append_nil _).symm)
    · rw [countP_isPaid_markPaid, rowsPaid_append, h.rowsPaid, ← hcount]
      rfl
    · rcases List.mem_append.1 he with he | he
      · exact h.rowsPaid_pos e he hentry
      · rw [List.mem_singleton.1 he]
        exact UInt64.lt_iff_toNat_lt.1 hpos
  · rw [if_neg hpos, List.append_nil]
    have hzero : b.rows.countP (fun t => IsUnpaidOf u t) = 0 := by
      rw [UInt64.lt_iff_toNat_lt, hcount] at hpos
      exact Nat.eq_zero_of_not_pos hpos
    refine ⟨?_, ?_, h.rowsPaid_pos⟩
    · rw [map_entry_markPaid]
      exact h.entries
    · rw [countP_isPaid_markPaid, hzero]
      exact h.rowsPaid

variable {cap : Decimal} {now : Timestamp} {b' : Book} {announced : List Event}

/-- No row is ever removed, and no more than one is added. -/
theorem Change.length_rows (h : Change cap now b b' announced) :
    b.rows.length ≤ b'.rows.length ∧ b'.rows.length ≤ b.rows.length + 1 := by
  cases h with
  | none => exact ⟨Nat.le_refl _, Nat.le_succ _⟩
  | record e newTotal => exact ⟨Nat.le_succ _, Nat.le_refl _⟩
  | pay u =>
    have hlength : (b.markPaid u).2.rows.length = b.rows.length := List.length_map _
    omega

theorem Change.accountedBy (h : Change cap now b b' announced) (hb : b.AccountedBy events)
    (hlength : b.rows.length < 2 ^ 64) : b'.AccountedBy (events ++ announced) := by
  cases h with
  | none =>
    rw [List.append_nil]
    exact hb
  | record e newTotal => exact hb.record now e newTotal
  | pay u => exact hb.pay now hlength u

theorem Change.balanced (h : Change cap now b b' announced) (hb : b.Balanced cap)
    (hcap : cap.toRat ≤ Decimal.exactCap) : b'.Balanced cap := by
  cases h with
  | none => exact hb
  | record e newTotal hadd =>
    rcases e.amount.addWithin?_eq (hb.total_isTotalOf e.user) hcap with ⟨h, hle, heq⟩ | ⟨-, heq⟩
    · rw [hadd] at heq
      obtain rfl := Option.some.inj heq
      exact hb.record now e h hle
    · rw [hadd] at heq
      contradiction
  | pay u => exact hb.markPaid u

/-! ### Sums that fit -/

theorem toRat_defaultCap : defaultCap.toRat = 1000 := by
  norm_num [defaultCap, Decimal.toRat, Decimal.signed]

theorem defaultCap_le_exactCap : defaultCap.toRat ≤ Decimal.exactCap := by
  norm_num [toRat_defaultCap, Decimal.exactCap]

theorem Balanced.spent_le (hb : b.Balanced defaultCap) (u : UserId) : b.spent u ≤ 100000 := by
  cases ht : b.totals.get? u with
  | none =>
    rw [spent, (hb.get?_eq_none_iff u).1 ht]
    exact Nat.zero_le _
  | some t =>
    obtain ⟨_, rfl, hle⟩ := hb.eq_of_get?_eq_some u t ht
    rw [Decimal.le_iff_toRat_le, Decimal.toRat_ofHundredths, toRat_defaultCap] at hle
    have : (b.spent u : ℚ) ≤ 100000 := by linarith
    exact_mod_cast this

theorem Balanced.amount_le (hb : b.Balanced defaultCap) {t : Transaction} (ht : t ∈ b.rows) :
    t.amount.hundredths ≤ 100000 := by
  refine Nat.le_trans ?_ (hb.spent_le t.user)
  have hmem : t ∈ b.rowsOf t.user := List.mem_filter.2 ⟨ht, decide_eq_true rfl⟩
  exact List.le_sum_of_mem (List.mem_map_of_mem hmem)

/-- Each event tells of a row that is new, or of one at least that is paid now. -/
theorem length_le_of_rowsPaid_pos {events : List Event}
    (h : ∀ e ∈ events, e.entry? = none → 0 < e.rowsPaid) :
    events.length ≤ (recorded events).length + Events.rowsPaid events := by
  induction events with
  | nil => exact Nat.le_refl _
  | cons e rest ih =>
    have hrest := ih fun e he => h e (List.mem_cons_of_mem _ he)
    rw [show e :: rest = [e] ++ rest from rfl, recorded_append, rowsPaid_append, List.length_append,
      List.length_append]
    cases e with
    | created id u a description time =>
      have : (recorded [.created id u a description time]).length = 1 := rfl
      rw [this, List.length_singleton]
      omega
    | paid u n time =>
      have hpos : 0 < Event.rowsPaid (.paid u n time) := h _ List.mem_cons_self rfl
      have : Events.rowsPaid [.paid u n time] = Event.rowsPaid (.paid u n time) :=
        List.sum_singleton
      rw [this, List.length_singleton]
      omega

theorem AccountedBy.fit (h : b.AccountedBy events) (hb : b.Balanced defaultCap)
    (hlength : b.rows.length < 2 ^ 63) : Fit events := by
  have hpaid : b.rows.countP (·.isPaid) ≤ b.rows.length := List.countP_le_length
  have hevents := length_le_of_rowsPaid_pos h.rowsPaid_pos
  rw [← h.length_rows, ← h.rowsPaid] at hevents
  refine ⟨by omega, ?_, by rw [← h.rowsPaid]; omega⟩
  have hsum : b.spentInAll ≤ b.rows.length * 100000 := by
    have := List.sum_le_card_nsmul (b.rows.map (·.amount.hundredths)) 100000 (by
      intro n hn
      obtain ⟨t, ht, rfl⟩ := List.mem_map.1 hn
      exact hb.amount_le ht)
    rwa [List.length_map, nsmul_eq_mul] at this
  rw [← h.spentInAll_eq]
  omega

end SpendingLedger.Book
