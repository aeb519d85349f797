import SpendingLedger.Proofs.Decimal.Value
import SpendingLedger.Proofs.Event.Tally
import SpendingLedger.Statistics

/-!
Statistics as a fold over events. An event is recorded as a whole, or leaves no trace. Statistics
reflect a list of events if every count and every sum is the one that the list leads to. An event
whose sums fit is counted, and reflected afterwards.
-/

namespace SpendingLedger

namespace Statistics

open Events

/-! ### One event -/

/-- What recording comes to if nothing is written before all is known. -/
def outcome (s : Statistics) : Except Counter Statistics → Except Counter Unit × Statistics
  | .ok s' => (.ok (), s')
  | .error c => (.error c, s)

theorem run_get_bind (f : Statistics → ExceptT Counter (StateM Statistics) Unit)
    (s : Statistics) : (get >>= f).run s = (f s).run s := rfl

/-- A sum that is worked out first writes nothing, whether it fits or not. -/
theorem run_lift_bind {α : Type} {s : Statistics} (x : Except Counter α)
    {f : α → ExceptT Counter (StateM Statistics) Unit} {g : α → Except Counter Statistics}
    (h : ∀ a, (f a).run s = s.outcome (g a)) :
    ((liftM x : ExceptT Counter (StateM Statistics) α) >>= f).run s = s.outcome (x >>= g) := by
  cases x with
  | error c => rfl
  | ok a => exact h a

theorem run_record_created (s : Statistics) (id : Int64) (u : UserId) (a : Amount)
    (description : String) (time : Timestamp) :
    (record (.created id u a description time)).run s = s.outcome (do
      let events ← count .events s.events 1
      let transactions ← count .transactions s.transactions 1
      let total ← sum .amount s.amount a.toDecimal
      let userCount ← count .userTransactions (s.countOf u) 1
      let userAmount ← sum .userAmount (s.amountOf u) a.toDecimal
      return { s with
        events, transactions, amount := total
        counts := s.counts.insert u userCount
        amounts := s.amounts.insert u userAmount
        lastTime := some time }) := by
  rw [record, run_get_bind]
  refine run_lift_bind _ fun events => ?_
  refine run_lift_bind _ fun transactions => ?_
  refine run_lift_bind _ fun total => ?_
  refine run_lift_bind _ fun userCount => ?_
  refine run_lift_bind _ fun userAmount => ?_
  rfl

theorem run_record_paid (s : Statistics) (u : UserId) (n : UInt64) (time : Timestamp) :
    (record (.paid u n time)).run s = s.outcome (do
      let events ← count .events s.events 1
      let paid ← count .paid s.paid n
      return { s with events, paid, lastTime := some time }) := by
  rw [record, run_get_bind]
  refine run_lift_bind _ fun events => ?_
  refine run_lift_bind _ fun paid => ?_
  rfl

theorem apply_eq_of_run_record {s : Statistics} {e : Event} {x : Except Counter Statistics}
    (h : (record e).run s = s.outcome x) : s.apply e = x := by
  rw [apply, h]
  cases x <;> rfl

/-- An event that does not fit leaves no trace. -/
theorem run_record (s : Statistics) (e : Event) : (record e).run s = s.outcome (s.apply e) := by
  cases e with
  | created id u a description time =>
    rw [apply_eq_of_run_record (run_record_created ..), run_record_created]
  | paid u n time => rw [apply_eq_of_run_record (run_record_paid ..), run_record_paid]

theorem handle_of_decode {s s' : Statistics} {d : Delivery} {e : Event}
    (hdecode : Event.decode d.payload = .ok (.event e)) (happly : s.apply e = .ok s') :
    s.handle d = ⟨s', .done, .eventProcessed e.kind e.user d.lane⟩ := by
  simp only [handle, hdecode, run_record, happly, outcome]

/-! ### Sums -/

theorem count_of_lt (c : Counter) {a b : UInt64} (h : a.toNat + b.toNat < 2 ^ 64) :
    ∃ s, count c a b = .ok s ∧ s.toNat = a.toNat + b.toNat :=
  ⟨a + b, if_pos h, by rw [UInt64.toNat_add, Nat.mod_eq_of_lt h]⟩

theorem sum_of_lt (c : Counter) {total : Decimal} {n : Nat} (ht : total.IsTotalOf n) (a : Amount)
    (h : n + a.hundredths < 2 ^ 96) :
    ∃ s, sum c total a.toDecimal = .ok s ∧ s.IsTotalOf (n + a.hundredths) := by
  have hpos := a.pos
  exact ⟨_, by rw [sum, ht.add?_of_lt a h], .inr ⟨h, rfl, by omega⟩⟩

/-- The counts and sums are those of the events. -/
structure Reflects (s : Statistics) (events : List Event) : Prop where
  events_eq : s.events.toNat = events.length
  transactions_eq : s.transactions.toNat = (recorded events).length
  amount_isTotalOf : s.amount.IsTotalOf (Entry.worth (recorded events))
  paid_eq : s.paid.toNat = rowsPaid events
  get?_counts_eq_none_iff : ∀ u, s.counts.get? u = none ↔ recordedOf u events = []
  get?_amounts_eq_none_iff : ∀ u, s.amounts.get? u = none ↔ recordedOf u events = []
  countOf_eq : ∀ u, (s.countOf u).toNat = (recordedOf u events).length
  amountOf_isTotalOf : ∀ u, (s.amountOf u).IsTotalOf (Entry.worth (recordedOf u events))
  lastTime_eq : s.lastTime = events.getLast?.map Event.time

theorem reflects_empty : ({} : Statistics).Reflects [] where
  events_eq := rfl
  transactions_eq := rfl
  amount_isTotalOf := Decimal.isTotalOf_zero
  paid_eq := rfl
  get?_counts_eq_none_iff _ := ⟨fun _ => rfl, fun _ => rfl⟩
  get?_amounts_eq_none_iff _ := ⟨fun _ => rfl, fun _ => rfl⟩
  countOf_eq _ := rfl
  amountOf_isTotalOf _ := Decimal.isTotalOf_zero
  lastTime_eq := rfl

variable {s : Statistics} {events : List Event}

/-! ### Users -/

theorem get?_users (s : Statistics) (u : UserId) :
    s.users.get? u = (s.counts.get? u).map fun n => ⟨n, s.amountOf u⟩ :=
  Table.get?_mapValues ..

theorem Reflects.get?_users_eq_none_iff (h : s.Reflects events) (u : UserId) :
    s.users.get? u = none ↔ recordedOf u events = [] := by
  rw [get?_users, Option.map_eq_none_iff, h.get?_counts_eq_none_iff]

theorem Reflects.totalsOf_eq (h : s.Reflects events) (u : UserId) :
    s.totalsOf u = ⟨s.countOf u, s.amountOf u⟩ := by
  rw [totalsOf, get?_users, countOf]
  cases hn : s.counts.get? u with
  | some n => rfl
  | none =>
    have hamount := (h.get?_amounts_eq_none_iff u).2 ((h.get?_counts_eq_none_iff u).1 hn)
    rw [amountOf, hamount]
    rfl

theorem Reflects.count_totalsOf_eq (h : s.Reflects events) (u : UserId) :
    (s.totalsOf u).count.toNat = (recordedOf u events).length := by
  rw [h.totalsOf_eq]
  exact h.countOf_eq u

theorem Reflects.amount_totalsOf_isTotalOf (h : s.Reflects events) (u : UserId) :
    (s.totalsOf u).amount.IsTotalOf (Entry.worth (recordedOf u events)) := by
  rw [h.totalsOf_eq]
  exact h.amountOf_isTotalOf u

/-! ### Recording -/

/-- The events to which one of a transaction was added. -/
theorem recorded_append_created (events : List Event) (id : Int64) (e : Entry) (time : Timestamp) :
    recorded (events ++ [.created id e.user e.amount e.description time]) =
      recorded events ++ [e] :=
  recorded_append ..

theorem recordedOf_append_created (v : UserId) (events : List Event) (id : Int64) (e : Entry)
    (time : Timestamp) :
    recordedOf v (events ++ [.created id e.user e.amount e.description time]) =
      if e.user = v then recordedOf v events ++ [e] else recordedOf v events := by
  rw [recordedOf, recorded_append_created, List.filter_append, List.filter_singleton, recordedOf]
  by_cases h : e.user = v
  · simp only [h, decide_true, cond_true, ↓reduceIte]
  · simp only [h, decide_false, cond_false, ↓reduceIte, List.append_nil]

theorem worth_append_singleton (entries : List Entry) (e : Entry) :
    Entry.worth (entries ++ [e]) = Entry.worth entries + e.amount.hundredths := by
  rw [worth_append, Entry.worth, Entry.worth, List.map_singleton, List.sum_singleton]

theorem recordedOf_append_created_eq_nil_iff (v : UserId) (events : List Event) (id : Int64)
    (e : Entry) (time : Timestamp) :
    recordedOf v (events ++ [.created id e.user e.amount e.description time]) = [] ↔
      e.user ≠ v ∧ recordedOf v events = [] := by
  rw [recordedOf_append_created]
  split <;> simp [*]

/-- Statistics that count one transaction more reflect one event more. -/
theorem Reflects.record (h : s.Reflects events) {n t c : UInt64} {total amount : Decimal}
    (id : Int64) (e : Entry) (time : Timestamp) (hn : n.toNat = s.events.toNat + 1)
    (ht : t.toNat = s.transactions.toNat + 1)
    (htotal : total.IsTotalOf (Entry.worth (recorded events) + e.amount.hundredths))
    (hc : c.toNat = (s.countOf e.user).toNat + 1)
    (hamount : amount.IsTotalOf
      (Entry.worth (recordedOf e.user events) + e.amount.hundredths)) :
    ({ s with
      events := n, transactions := t, amount := total
      counts := s.counts.insert e.user c
      amounts := s.amounts.insert e.user amount
      lastTime := some time } : Statistics).Reflects
        (events ++ [.created id e.user e.amount e.description time]) := by
  refine ⟨?_, ?_, ?_, ?_, fun v => ?_, fun v => ?_, fun v => ?_, fun v => ?_, ?_⟩
  · rw [hn, h.events_eq, List.length_append]
    rfl
  · rw [ht, h.transactions_eq, recorded_append_created, List.length_append]
    rfl
  · rw [recorded_append_created, worth_append_singleton]
    exact htotal
  · rw [rowsPaid_append]
    exact h.paid_eq
  · rw [recordedOf_append_created_eq_nil_iff, Table.get?_insert_eq_none_iff,
      h.get?_counts_eq_none_iff]
  · rw [recordedOf_append_created_eq_nil_iff, Table.get?_insert_eq_none_iff,
      h.get?_amounts_eq_none_iff]
  · rw [countOf, Table.getD_get?_insert, recordedOf_append_created]
    split
    · next hv =>
      subst hv
      rw [hc, h.countOf_eq, List.length_append]
      rfl
    · exact h.countOf_eq v
  · rw [amountOf, Table.getD_get?_insert, recordedOf_append_created]
    split
    · next hv =>
      subst hv
      rw [worth_append_singleton]
      exact hamount
    · exact h.amountOf_isTotalOf v
  · rw [List.getLast?_concat]
    rfl

theorem Reflects.apply_created (h : s.Reflects events) {id : Int64} {e : Entry} {time : Timestamp}
    (hfit : Fit (events ++ [.created id e.user e.amount e.description time])) :
    ∃ s', s.apply (.created id e.user e.amount e.description time) = .ok s' ∧
      s'.Reflects (events ++ [.created id e.user e.amount e.description time]) := by
  have hlength : events.length + 1 < 2 ^ 64 := by
    simpa only [List.length_append, List.length_singleton] using hfit.length_lt
  have hworth : Entry.worth (recorded events) + e.amount.hundredths < 2 ^ 96 := by
    simpa only [recorded_append_created, worth_append_singleton] using hfit.worth_lt
  -- what is recorded for one user is no more than what is recorded in all
  have hrecorded := length_recorded_le events
  have hof : (recordedOf e.user events).length ≤ (recorded events).length :=
    List.length_filter_le ..
  have hworthOf := worth_recordedOf_le e.user events
  obtain ⟨n, hn, hn'⟩ := count_of_lt .events (a := s.events) (b := 1) (by
    rw [h.events_eq]
    exact hlength)
  obtain ⟨t, ht, ht'⟩ := count_of_lt .transactions (a := s.transactions) (b := 1) (by
    rw [h.transactions_eq, UInt64.toNat_one]
    omega)
  obtain ⟨total, htotal, htotal'⟩ := sum_of_lt .amount h.amount_isTotalOf e.amount hworth
  obtain ⟨c, hc, hc'⟩ := count_of_lt .userTransactions (a := s.countOf e.user) (b := 1) (by
    rw [h.countOf_eq, UInt64.toNat_one]
    omega)
  obtain ⟨amount, hamount, hamount'⟩ :=
    sum_of_lt .userAmount (h.amountOf_isTotalOf e.user) e.amount (by omega)
  refine ⟨_, ?_, h.record id e time hn' ht' htotal' hc' hamount'⟩
  rw [apply_eq_of_run_record (run_record_created ..), hn, ht, htotal, hc, hamount]
  rfl

/-! ### Paying -/

theorem recorded_append_paid (events : List Event) (u : UserId) (n : UInt64) (time : Timestamp) :
    recorded (events ++ [.paid u n time]) = recorded events := by
  rw [recorded_append]
  exact List.append_nil _

theorem recordedOf_append_paid (v : UserId) (events : List Event) (u : UserId) (n : UInt64)
    (time : Timestamp) : recordedOf v (events ++ [.paid u n time]) = recordedOf v events := by
  rw [recordedOf, recorded_append_paid, recordedOf]

theorem rowsPaid_append_paid (events : List Event) (u : UserId) (n : UInt64) (time : Timestamp) :
    rowsPaid (events ++ [.paid u n time]) = rowsPaid events + n.toNat := by
  rw [rowsPaid_append]
  rfl

theorem Reflects.apply_paid (h : s.Reflects events) {u : UserId} {n : UInt64} {time : Timestamp}
    (hfit : Fit (events ++ [.paid u n time])) :
    ∃ s', s.apply (.paid u n time) = .ok s' ∧ s'.Reflects (events ++ [.paid u n time]) := by
  obtain ⟨m, hm, hm'⟩ := count_of_lt .events (a := s.events) (b := 1) (by
    have := hfit.length_lt
    rw [List.length_append] at this
    rw [h.events_eq]
    exact this)
  obtain ⟨k, hk, hk'⟩ := count_of_lt .paid (a := s.paid) (b := n) (by
    rw [h.paid_eq, ← rowsPaid_append_paid events u n time]
    exact hfit.rowsPaid_lt)
  refine ⟨{ s with events := m, paid := k, lastTime := some time }, ?_, ?_⟩
  · rw [apply_eq_of_run_record (run_record_paid ..), hm, hk]
    rfl
  · refine ⟨?_, ?_, ?_, ?_, fun v => ?_, fun v => ?_, fun v => ?_, fun v => ?_, ?_⟩
    · rw [hm', h.events_eq, List.length_append]
      rfl
    · rw [recorded_append_paid]
      exact h.transactions_eq
    · rw [recorded_append_paid]
      exact h.amount_isTotalOf
    · rw [hk', h.paid_eq, rowsPaid_append_paid]
    · rw [recordedOf_append_paid]
      exact h.get?_counts_eq_none_iff v
    · rw [recordedOf_append_paid]
      exact h.get?_amounts_eq_none_iff v
    · rw [recordedOf_append_paid]
      exact h.countOf_eq v
    · rw [recordedOf_append_paid]
      exact h.amountOf_isTotalOf v
    · rw [List.getLast?_concat]
      rfl

/-- An event whose sums fit is counted. -/
theorem Reflects.apply (h : s.Reflects events) (e : Event) (hfit : Fit (events ++ [e])) :
    ∃ s', s.apply e = .ok s' ∧ s'.Reflects (events ++ [e]) := by
  cases e with
  | created id u a description time => exact h.apply_created (e := ⟨u, a, description⟩) hfit
  | paid u n time => exact h.apply_paid hfit

end Statistics

end SpendingLedger
