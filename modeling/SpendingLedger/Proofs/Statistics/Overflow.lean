import SpendingLedger.Proofs.Statistics.Acceptance

/-!
Sums that overflow. An event that is rejected leaves the statistics as they were. No transaction is
counted without its event, so the counters of transactions are never the first to be full; and as
long as the sums of amounts are exact, only the number of events and the number of rows paid can be.
-/

namespace SpendingLedger

namespace Statistics

open Events

variable {s s' : Statistics} {e : Event} {c : Counter} {events counted : List Event}

/-! ### What overflows -/

/-- The sum `c` that an event adds to would not fit. -/
def Overflows (s : Statistics) : Event → Counter → Prop
  | _, .events => 2 ^ 64 ≤ s.events.toNat + 1
  | .created .., .transactions => 2 ^ 64 ≤ s.transactions.toNat + 1
  | .created _ _ a _ _, .amount => s.amount.add? a.toDecimal = none
  | .created _ u _ _ _, .userTransactions => 2 ^ 64 ≤ (s.countOf u).toNat + 1
  | .created _ u a _ _, .userAmount => (s.amountOf u).add? a.toDecimal = none
  | .paid _ n _, .paid => 2 ^ 64 ≤ s.paid.toNat + n.toNat
  | _, _ => False

theorem count_eq_error_iff {k : Counter} {a b : UInt64} :
    count k a b = .error c ↔ k = c ∧ 2 ^ 64 ≤ a.toNat + b.toNat := by
  rw [count]
  split
  · next h =>
    constructor
    · intro hc
      contradiction
    · exact fun hc => absurd h (Nat.not_lt.2 hc.2)
  · next h =>
    rw [Except.error.injEq]
    exact ⟨fun hc => ⟨hc, Nat.le_of_not_lt h⟩, And.left⟩

theorem sum_eq_error_iff {k : Counter} {a b : Decimal} :
    sum k a b = .error c ↔ k = c ∧ a.add? b = none := by
  rw [sum]
  cases a.add? b <;> simp

/-- The sum that an event is rejected for does overflow. -/
theorem overflows_of_apply_eq_error (h : s.apply e = .error c) : s.Overflows e c := by
  cases e with
  | created id u a description time =>
    rw [apply_eq_of_run_record (run_record_created ..)] at h
    simp only [Json.bind_eq_error_iff, count_eq_error_iff, sum_eq_error_iff] at h
    rcases h with ⟨rfl, h⟩ | ⟨_, -, ⟨rfl, h⟩ | ⟨_, -, ⟨rfl, h⟩ | ⟨_, -, ⟨rfl, h⟩ |
      ⟨_, -, ⟨rfl, h⟩ | h⟩⟩⟩⟩
    · exact h
    · exact h
    · exact h
    · exact h
    · exact h
    · exact nomatch h
  | paid u n time =>
    rw [apply_eq_of_run_record (run_record_paid ..)] at h
    simp only [Json.bind_eq_error_iff, count_eq_error_iff] at h
    rcases h with ⟨rfl, h⟩ | ⟨_, -, ⟨rfl, h⟩ | h⟩
    · exact h
    · exact h
    · exact nomatch h

/-- The number of events is the first to be checked. -/
theorem apply_eq_error_events (h : s.Overflows e .events) : s.apply e = .error .events := by
  have hcount : count .events s.events 1 = .error .events := by
    refine count_eq_error_iff.2 ⟨rfl, ?_⟩
    cases e <;> exact h
  cases e with
  | created id u a description time =>
    rw [apply_eq_of_run_record (run_record_created ..), hcount]
    rfl
  | paid u n time =>
    rw [apply_eq_of_run_record (run_record_paid ..), hcount]
    rfl

/-- What an accepted event adds to the counters. -/
theorem of_apply_eq_ok (h : s.apply e = .ok s') :
    s'.events.toNat = s.events.toNat + 1 ∧ s'.transactions.toNat ≤ s.transactions.toNat + 1 ∧
      ∀ v, (s'.countOf v).toNat ≤ (s.countOf v).toNat + 1 := by
  cases e with
  | created id u a description time =>
    rw [apply_eq_of_run_record (run_record_created ..)] at h
    simp only [Json.bind_eq_ok_iff] at h
    obtain ⟨n, hn, t, ht, total, -, k, hk, amount, -, h⟩ := h
    obtain rfl := Except.ok.inj h
    refine ⟨toNat_of_count_eq_ok hn, (toNat_of_count_eq_ok ht).le, fun v => ?_⟩
    rw [countOf, Table.getD_get?_insert]
    split
    · next hv => exact hv ▸ (toNat_of_count_eq_ok hk).le
    · exact Nat.le_succ _
  | paid u k time =>
    rw [apply_eq_of_run_record (run_record_paid ..)] at h
    simp only [Json.bind_eq_ok_iff] at h
    obtain ⟨n, hn, paid, -, h⟩ := h
    obtain rfl := Except.ok.inj h
    exact ⟨toNat_of_count_eq_ok hn, Nat.le_succ _, fun v => Nat.le_succ _⟩

/-! ### Counters in every state -/

/-- No more transactions are counted than events, overall and for each user. -/
structure Ordered (s : Statistics) : Prop where
  transactions_le : s.transactions.toNat ≤ s.events.toNat
  countOf_le : ∀ u, (s.countOf u).toNat ≤ s.events.toNat

theorem ordered_empty : Ordered {} := ⟨Nat.le_refl _, fun _ => Nat.le_refl _⟩

theorem Ordered.absorb (h : s.Ordered) (e : Event) : (s.absorb e).Ordered := by
  cases happly : s.apply e with
  | error c =>
    rw [absorb_of_error happly]
    exact h
  | ok s' =>
    obtain ⟨hevents, htransactions, hcounts⟩ := of_apply_eq_ok happly
    rw [absorb_of_ok happly]
    refine ⟨?_, fun u => ?_⟩
    · have := h.transactions_le
      omega
    · have := h.countOf_le u
      have := hcounts u
      omega

theorem ordered_foldl (h : s.Ordered) (events : List Event) : (events.foldl absorb s).Ordered := by
  induction events generalizing s with
  | nil => exact h
  | cons e rest ih => exact ih (h.absorb e)

/-- Where a counter of transactions is full, the number of events is. -/
theorem Ordered.overflows_events (h : s.Ordered)
    (hc : s.Overflows e .transactions ∨ s.Overflows e .userTransactions) :
    s.Overflows e .events := by
  cases e with
  | created id u a description time =>
    show 2 ^ 64 ≤ s.events.toNat + 1
    rcases hc with hc | hc
    · have : 2 ^ 64 ≤ s.transactions.toNat + 1 := hc
      have := h.transactions_le
      omega
    · have : 2 ^ 64 ≤ (s.countOf u).toNat + 1 := hc
      have := h.countOf_le u
      omega
  | paid u n time => exact hc.elim False.elim False.elim

/-- The counters of transactions are never the ones that an event is rejected for. -/
theorem Ordered.ne_of_apply_eq_error (h : s.Ordered) (happly : s.apply e = .error c) :
    c ≠ .transactions ∧ c ≠ .userTransactions := by
  have hover := overflows_of_apply_eq_error happly
  constructor
  · rintro rfl
    exact nomatch (apply_eq_error_events (h.overflows_events (.inl hover))).symm.trans happly
  · rintro rfl
    exact nomatch (apply_eq_error_events (h.overflows_events (.inr hover))).symm.trans happly

/-! ### Exact sums -/

/-- While sums of amounts are exact with another amount, none of them overflows. -/
theorem Reflects.not_overflows_amount (h : s.Reflects counted)
    (hworth : Entry.worth (recorded counted) + Amount.maxHundredths < 2 ^ 96) :
    ¬ s.Overflows e .amount ∧ ¬ s.Overflows e .userAmount := by
  cases e with
  | created id u a description time =>
    have hle : a.hundredths ≤ Amount.maxHundredths := a.le_max
    have hof := worth_recordedOf_le u counted
    have hsum := h.amount_isTotalOf.add?_of_lt a (by omega)
    have huser := (h.amountOf_isTotalOf u).add?_of_lt a (by omega)
    constructor
    · exact fun hover => nomatch hsum.symm.trans hover
    · exact fun hover => nomatch huser.symm.trans hover
  | paid u n time => exact ⟨id, id⟩

/-- While there is room for another amount, only two counters can be full. -/
theorem Reflects.apply_eq_error_iff (h : s.Reflects counted) (hordered : s.Ordered)
    (hworth : Entry.worth (recorded counted) + Amount.maxHundredths < 2 ^ 96) :
    s.apply e = .error c ↔
      (c = .events ∧ counted.length = 2 ^ 64 - 1) ∨
      (c = .paid ∧ counted.length ≠ 2 ^ 64 - 1 ∧
        ∃ u n time, e = .paid u n time ∧ 2 ^ 64 - 1 < s.paid.toNat + n.toNat) := by
  have hlt := s.events.toNat_lt
  have hevents : s.Overflows e .events ↔ counted.length = 2 ^ 64 - 1 := by
    have hiff : s.Overflows e .events ↔ 2 ^ 64 ≤ s.events.toNat + 1 := by
      cases e <;> exact Iff.rfl
    rw [hiff, ← h.events_eq]
    omega
  constructor
  · intro happly
    have hover := overflows_of_apply_eq_error happly
    by_cases hfull : counted.length = 2 ^ 64 - 1
    · have hfirst := apply_eq_error_events (hevents.2 hfull)
      exact .inl ⟨Except.error.inj (happly.symm.trans hfirst), hfull⟩
    obtain ⟨hne, hneUser⟩ := hordered.ne_of_apply_eq_error happly
    obtain ⟨hamount, huserAmount⟩ := h.not_overflows_amount (e := e) hworth
    cases c with
    | events => exact absurd (hevents.1 hover) hfull
    | transactions => exact absurd rfl hne
    | amount => exact absurd hover hamount
    | userTransactions => exact absurd rfl hneUser
    | userAmount => exact absurd hover huserAmount
    | paid =>
      cases e with
      | created => exact hover.elim
      | paid u n time =>
        have hpaid : 2 ^ 64 ≤ s.paid.toNat + n.toNat := hover
        exact .inr ⟨rfl, hfull, u, n, time, rfl, by omega⟩
  · rintro (⟨rfl, hfull⟩ | ⟨rfl, hfull, u, n, time, rfl, hpaid⟩)
    · exact apply_eq_error_events (hevents.2 hfull)
    · obtain ⟨m, hm, -⟩ := count_of_lt .events (a := s.events) (b := 1) (by
        rw [← h.events_eq] at hfull
        rw [UInt64.toNat_one]
        omega)
      rw [apply_eq_of_run_record (run_record_paid ..), Json.bind_eq_error_iff]
      refine .inr ⟨m, hm, Json.bind_eq_error_iff.2 (.inl ?_)⟩
      exact count_eq_error_iff.2 ⟨rfl, by omega⟩

/-- Recording names a sum exactly if applying does, and then nothing has changed. -/
theorem run_record_eq_error_iff :
    (record e).run s = (.error c, s') ↔ s.apply e = .error c ∧ s' = s := by
  rw [run_record]
  cases s.apply e with
  | ok s'' => exact ⟨nofun, fun h => nomatch h.1⟩
  | error c' =>
    constructor
    · rintro ⟨⟩
      exact ⟨rfl, rfl⟩
    · rintro ⟨⟨⟩, rfl⟩
      rfl

/-- A rejected event leaves the statistics as they were. In every state no more transactions are
counted than events, so neither counter of transactions is what an event is rejected for. While
there is room for another amount, an event is rejected only when `2 ^ 64 - 1` events have been
accepted, or when it pays more rows than the counter of rows paid has room for. -/
theorem rejection_confined (events : List Event) (e : Event) :
    let s := events.foldl absorb {}
    (∀ c s', (record e).run s = (.error c, s') → s' = s) ∧
    s.transactions.toNat ≤ s.events.toNat ∧
    (∀ u n, s.counts.get? u = some n → n.toNat ≤ s.events.toNat) ∧
    (∀ c s', (record e).run s = (.error c, s') → c ≠ .transactions ∧ c ≠ .userTransactions) ∧
    (Entry.worth (recorded (accepted {} events)) ≤ 2 ^ 96 - 1 - Amount.maxHundredths →
      ∀ c, (record e).run s = (.error c, s) ↔
        (c = .events ∧ (accepted {} events).length = 2 ^ 64 - 1) ∨
        (c = .paid ∧ (accepted {} events).length ≠ 2 ^ 64 - 1 ∧
          ∃ u n time, e = .paid u n time ∧ 2 ^ 64 - 1 < s.paid.toNat + n.toNat)) := by
  intro s
  have hordered : s.Ordered := ordered_foldl ordered_empty events
  refine ⟨fun c s' h => (run_record_eq_error_iff.1 h).2, hordered.transactions_le, fun u n hn => ?_,
    fun c s' h => hordered.ne_of_apply_eq_error (run_record_eq_error_iff.1 h).1,
    fun hworth c => ?_⟩
  · have hcount := hordered.countOf_le u
    rwa [countOf, hn, Option.getD_some] at hcount
  · have hroom : Entry.worth (recorded (accepted {} events)) + Amount.maxHundredths < 2 ^ 96 := by
      rw [Amount.maxHundredths] at hworth ⊢
      omega
    have hreflects := reflects_empty.run events (by rw [List.nil_append]; omega)
    rw [List.nil_append] at hreflects
    rw [run_record_eq_error_iff, and_iff_left rfl]
    exact hreflects.apply_eq_error_iff hordered hroom

/-- One row more than the counter of rows paid has room for. -/
theorem rejection_confined_paid :
    let full : Event := .paid ⟨7, by decide⟩ (.ofNat (2 ^ 64 - 1)) default
    let one : Event := .paid ⟨7, by decide⟩ 1 default
    let s := [full].foldl absorb {}
    Entry.worth (recorded (accepted {} [full])) ≤ 2 ^ 96 - 1 - Amount.maxHundredths ∧
      (record one).run s = (.error .paid, s) := by
  intro full one s
  have haccepted : accepted {} [full] = [full] := by decide
  have hworth : Entry.worth (recorded (accepted {} [full])) ≤
      2 ^ 96 - 1 - Amount.maxHundredths := by
    rw [haccepted]
    decide
  obtain ⟨-, -, -, -, hiff⟩ := rejection_confined [full] one
  refine ⟨hworth, (hiff hworth .paid).2 (.inr ⟨rfl, ?_, _, _, _, rfl, by decide⟩)⟩
  rw [haccepted]
  decide

end Statistics

end SpendingLedger
