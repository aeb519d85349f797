import SpendingLedger.Proofs.Statistics.Acceptance

/-!
The order of events makes no difference to the statistics, but for the time of the last one. Whether
events are all accepted is a matter of what they come to together, as no sum ever shrinks.
-/

namespace SpendingLedger

namespace Statistics

open Events

variable {s s' : Statistics} {a b counted events : List Event}

/-! ### Acceptance -/

/-- Events that have been counted fit. -/
theorem Reflects.fit (h : s.Reflects counted)
    (hworth : Entry.worth (recorded counted) < 2 ^ 96) : Fit counted where
  length_lt := by
    rw [← h.events_eq]
    exact s.events.toNat_lt
  worth_lt := hworth
  rowsPaid_lt := by
    rw [← h.paid_eq]
    exact s.paid.toNat_lt

/-- Events that fit all together are all accepted. -/
theorem Reflects.accepted_eq (h : s.Reflects counted) (hfit : Fit (counted ++ events)) :
    s.accepted events = events := by
  induction events generalizing s counted with
  | nil => rfl
  | cons e rest ih =>
    rw [List.append_cons] at hfit
    obtain ⟨s', happly, h'⟩ := h.apply e (hfit.of_perm_append (.refl _))
    rw [accepted_cons_of_ok happly, ih h' hfit]

/-- All of the events are accepted exactly if they fit, unless their amounts are too large to be
kept exactly. -/
theorem accepted_eq_iff (hworth : Entry.worth (recorded events) < 2 ^ 96) :
    accepted {} events = events ↔ Fit events := by
  refine ⟨fun hall => ?_, fun hfit => reflects_empty.accepted_eq hfit⟩
  have h := reflects_empty.run events (by rwa [hall])
  rw [hall] at h
  exact h.fit hworth

theorem fit_perm (hperm : a.Perm b) (hfit : Fit a) : Fit b :=
  hfit.of_perm_append (by rw [List.append_nil]; exact hperm.symm)

theorem perm_recordedOf (u : UserId) (hperm : a.Perm b) :
    (recordedOf u a).Perm (recordedOf u b) :=
  (perm_recorded hperm).filter _

/-! ### Totals -/

/-- The statistics tell the same overall and of each user, the time of the last event apart. -/
structure SameTotals (s s' : Statistics) : Prop where
  snapshot_eq : { s.snapshot with lastTime := none } = { s'.snapshot with lastTime := none }
  users_eq : ∀ u, s.users.get? u = s'.users.get? u

/-- What a user's statistics are is settled by the events of the user. -/
theorem Reflects.get?_users_eq (h : s.Reflects a) (h' : s'.Reflects b) (hperm : a.Perm b)
    (u : UserId) : s.users.get? u = s'.users.get? u := by
  have hof := perm_recordedOf u hperm
  have hcount : s.countOf u = s'.countOf u := by
    rw [← UInt64.toNat_inj, h.countOf_eq, h'.countOf_eq, hof.length_eq]
  have hamount : s.amountOf u = s'.amountOf u := by
    have htotal := h'.amountOf_isTotalOf u
    rw [← worth_eq_of_perm hof] at htotal
    exact (h.amountOf_isTotalOf u).unique htotal
  have hnone : s.counts.get? u = none ↔ s'.counts.get? u = none := by
    rw [h.get?_counts_eq_none_iff, h'.get?_counts_eq_none_iff, ← List.length_eq_zero_iff,
      hof.length_eq, List.length_eq_zero_iff]
  rw [get?_users, get?_users, hamount]
  rw [countOf, countOf] at hcount
  cases hn : s.counts.get? u with
  | none => rw [hnone.1 hn]
  | some n =>
    cases hn' : s'.counts.get? u with
    | none =>
      rw [hnone.2 hn'] at hn
      contradiction
    | some n' =>
      rw [hn, hn', Option.getD_some, Option.getD_some] at hcount
      rw [hcount]

/-- Statistics that reflect the same events, whatever their order, tell the same. -/
theorem Reflects.sameTotals (h : s.Reflects a) (h' : s'.Reflects b) (hperm : a.Perm b) :
    s.SameTotals s' := by
  have htransactions : s.transactions = s'.transactions := by
    rw [← UInt64.toNat_inj, h.transactions_eq, h'.transactions_eq,
      (perm_recorded hperm).length_eq]
  have hamount : s.amount = s'.amount := by
    have htotal := h'.amount_isTotalOf
    rw [← worth_eq_of_perm (perm_recorded hperm)] at htotal
    exact h.amount_isTotalOf.unique htotal
  have hpaid : s.paid = s'.paid := by
    rw [← UInt64.toNat_inj, h.paid_eq, h'.paid_eq, rowsPaid_eq_of_perm hperm]
  have hevents : s.events = s'.events := by
    rw [← UInt64.toNat_inj, h.events_eq, h'.events_eq, hperm.length_eq]
  have hsize : s.counts.size = s'.counts.size := Table.size_eq_of_get?_eq_none_iff fun u => by
    rw [h.get?_counts_eq_none_iff, h'.get?_counts_eq_none_iff, ← List.length_eq_zero_iff,
      (perm_recordedOf u hperm).length_eq, List.length_eq_zero_iff]
  refine ⟨?_, h.get?_users_eq h' hperm⟩
  simp only [snapshot, htransactions, hamount, hpaid, hevents, hsize]

/-- If all of the events are accepted in one order, then in every other, and the statistics tell the
same afterwards. -/
theorem sameTotals_of_perm (hperm : a.Perm b) (hworth : Entry.worth (recorded a) < 2 ^ 96)
    (hall : accepted {} a = a) :
    accepted {} b = b ∧ (a.foldl absorb {}).SameTotals (b.foldl absorb {}) := by
  have hworth' : Entry.worth (recorded b) < 2 ^ 96 := by
    rwa [← worth_eq_of_perm (perm_recorded hperm)]
  have hall' : accepted {} b = b :=
    (accepted_eq_iff hworth').2 (fit_perm hperm ((accepted_eq_iff hworth).1 hall))
  have h := reflects_empty.run a (by rwa [hall])
  have h' := reflects_empty.run b (by rwa [hall'])
  rw [hall] at h
  rw [hall'] at h'
  exact ⟨hall', h.sameTotals h' hperm⟩

end Statistics

end SpendingLedger
