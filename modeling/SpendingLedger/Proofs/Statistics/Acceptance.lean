import SpendingLedger.Proofs.Json.Fields
import SpendingLedger.Proofs.Statistics.Fold
import Mathlib.Algebra.BigOperators.Ring.Finset

/-!
Statistics after any events, some accepted and some not. They reflect the events that were accepted,
as long as these are worth less than `2^96` hundredths: what is kept for each user adds up to what
is kept in all, and an event that was rejected shows nowhere.
-/

namespace SpendingLedger

namespace Statistics

open Events

/-- The statistics after an event, which leaves no trace in them if it does not fit. -/
def absorb (s : Statistics) (e : Event) : Statistics := ((record e).run s).2

/-- The events that are accepted, one after the other. -/
def accepted (s : Statistics) : List Event → List Event
  | [] => []
  | e :: rest =>
    match (record e).run s with
    | (.ok (), s') => e :: accepted s' rest
    | (.error _, s') => accepted s' rest

variable {s s' : Statistics} {e : Event} {c : Counter}

theorem absorb_of_ok (h : s.apply e = .ok s') : s.absorb e = s' := by
  rw [absorb, run_record, h, outcome]

theorem absorb_of_error (h : s.apply e = .error c) : s.absorb e = s := by
  rw [absorb, run_record, h, outcome]

theorem accepted_cons_of_ok (h : s.apply e = .ok s') (rest : List Event) :
    s.accepted (e :: rest) = e :: s'.accepted rest := by
  rw [accepted, run_record, h, outcome]

theorem accepted_cons_of_error (h : s.apply e = .error c) (rest : List Event) :
    s.accepted (e :: rest) = s.accepted rest := by
  rw [accepted, run_record, h, outcome]

/-! ### What acceptance says -/

theorem lt_of_count_eq_ok {a b n : UInt64} (h : count c a b = .ok n) :
    a.toNat + b.toNat < 2 ^ 64 := by
  rw [count] at h
  split at h
  · assumption
  · cases h

theorem toNat_of_count_eq_ok {a b n : UInt64} (h : count c a b = .ok n) :
    n.toNat = a.toNat + b.toNat := by
  obtain ⟨n', hn, hvalue⟩ := count_of_lt c (lt_of_count_eq_ok h)
  rw [h] at hn
  rw [Except.ok.inj hn, hvalue]

/-- An event that is accepted fits both counters that can be full. -/
theorem lt_of_apply_eq_ok (h : s.apply e = .ok s') :
    s.events.toNat + 1 < 2 ^ 64 ∧ s.paid.toNat + e.rowsPaid < 2 ^ 64 := by
  cases e with
  | created id u a description time =>
    rw [apply_eq_of_run_record (run_record_created ..)] at h
    simp only [Json.bind_eq_ok_iff] at h
    obtain ⟨n, hn, -⟩ := h
    exact ⟨lt_of_count_eq_ok hn, s.paid.toNat_lt⟩
  | paid u k time =>
    rw [apply_eq_of_run_record (run_record_paid ..)] at h
    simp only [Json.bind_eq_ok_iff] at h
    obtain ⟨n, hn, m, hm, -⟩ := h
    exact ⟨lt_of_count_eq_ok hn, lt_of_count_eq_ok hm⟩

variable {counted : List Event}

/-- An event is accepted exactly if its sums fit, unless amounts are too large to be kept exactly.
-/
theorem Reflects.apply_eq_ok_iff (h : s.Reflects counted)
    (hworth : Entry.worth (recorded (counted ++ [e])) < 2 ^ 96) :
    (∃ s', s.apply e = .ok s') ↔ Fit (counted ++ [e]) := by
  refine ⟨fun ⟨s', happly⟩ => ?_, fun hfit => ?_⟩
  · obtain ⟨hevents, hpaid⟩ := lt_of_apply_eq_ok happly
    rw [h.events_eq] at hevents
    rw [h.paid_eq] at hpaid
    refine ⟨by rwa [List.length_append], hworth, ?_⟩
    rwa [rowsPaid_append, rowsPaid, rowsPaid, List.map_singleton, List.sum_singleton]
  · obtain ⟨s', happly, -⟩ := h.apply e hfit
    exact ⟨s', happly⟩

theorem Reflects.of_apply_eq_ok (h : s.Reflects counted)
    (hworth : Entry.worth (recorded (counted ++ [e])) < 2 ^ 96) (happly : s.apply e = .ok s') :
    s'.Reflects (counted ++ [e]) := by
  obtain ⟨s'', happly', h'⟩ := h.apply e ((h.apply_eq_ok_iff hworth).1 ⟨s', happly⟩)
  rw [happly] at happly'
  cases happly'
  exact h'

/-! ### A run -/

/-- Whatever the events are, the statistics reflect those of them that were accepted. -/
theorem Reflects.run (h : s.Reflects counted) (events : List Event)
    (hworth : Entry.worth (recorded (counted ++ s.accepted events)) < 2 ^ 96) :
    (events.foldl absorb s).Reflects (counted ++ s.accepted events) := by
  induction events generalizing s counted with
  | nil =>
    rw [accepted, List.append_nil]
    exact h
  | cons e rest ih =>
    rw [List.foldl_cons]
    cases happly : s.apply e with
    | error c =>
      rw [accepted_cons_of_error happly] at hworth ⊢
      rw [absorb_of_error happly]
      exact ih h hworth
    | ok s' =>
      rw [accepted_cons_of_ok happly, List.append_cons] at hworth ⊢
      rw [absorb_of_ok happly]
      have hless : Entry.worth (recorded (counted ++ [e])) < 2 ^ 96 := by
        rw [recorded_append, worth_append] at hworth
        omega
      exact ih (h.of_apply_eq_ok hless happly) hworth

/-! ### The parts of the statistics agree -/

/-- What the statistics tell overall and of each user is what the events come to that were counted,
and both tell the same. -/
structure Represents (s : Statistics) (counted : List Event) : Prop where
  transactions_eq : s.snapshot.transactions.toNat = (recorded counted).length
  sum_counts : (s.counts.values.map (·.toNat)).sum = s.snapshot.transactions.toNat
  amount_eq : s.snapshot.amount.toRat = (Entry.worth (recorded counted) : ℚ) / 100
  sum_amounts : (s.amounts.values.map Decimal.toRat).sum = s.snapshot.amount.toRat
  mem_keys_counts_iff : ∀ u, u ∈ s.counts.keys ↔ u ∈ usersSeen counted
  mem_keys_amounts_iff : ∀ u, u ∈ s.amounts.keys ↔ u ∈ usersSeen counted
  isSome_users_iff : ∀ u, (s.users.get? u).isSome ↔ u ∈ usersSeen counted
  users_eq : ∀ u t, s.users.get? u = some t →
    t.count.toNat = (recordedOf u counted).length ∧
      t.amount.toRat = (Entry.worth (recordedOf u counted) : ℚ) / 100
  unique_users_eq : s.snapshot.users.toNat = (usersSeen counted).length
  paid_eq : s.snapshot.paid.toNat = rowsPaid counted
  events_eq : s.snapshot.events.toNat = counted.length
  lastTime_eq : s.snapshot.lastTime = counted.getLast?.map Event.time

theorem Reflects.mem_keys_counts_iff (h : s.Reflects counted) (u : UserId) :
    u ∈ s.counts.keys ↔ u ∈ usersSeen counted := by
  rw [Table.mem_keys_iff, ne_eq, h.get?_counts_eq_none_iff, mem_usersSeen_iff]

theorem Reflects.mem_keys_amounts_iff (h : s.Reflects counted) (u : UserId) :
    u ∈ s.amounts.keys ↔ u ∈ usersSeen counted := by
  rw [Table.mem_keys_iff, ne_eq, h.get?_amounts_eq_none_iff, mem_usersSeen_iff]

/-- A table of the users seen has keys enough to sum over, and none twice. -/
theorem sum_recordedOf {ν : Type} (t : Table UserId ν)
    (hkeys : ∀ u, u ∈ t.keys ↔ u ∈ usersSeen counted) (weight : Entry → Nat) :
    (t.keys.map fun u => ((recordedOf u counted).map weight).sum).sum =
      ((recorded counted).map weight).sum := by
  refine sum_by_user t.nodup_keys weight fun e he => (hkeys e.user).2 ?_
  rw [usersSeen, List.mem_dedup]
  exact List.mem_map_of_mem he

theorem Reflects.sum_counts (h : s.Reflects counted) :
    (s.counts.values.map (·.toNat)).sum = (recorded counted).length := by
  have hsum : (s.counts.keys.map fun u => (recordedOf u counted).length).sum =
      (recorded counted).length := by
    simpa using sum_recordedOf s.counts h.mem_keys_counts_iff fun _ => 1
  rw [← hsum, Table.values_eq _ 0, List.map_map]
  exact congrArg List.sum (List.map_congr_left fun u _ => h.countOf_eq u)

theorem Reflects.sum_amounts (h : s.Reflects counted) :
    (s.amounts.values.map Decimal.toRat).sum = (Entry.worth (recorded counted) : ℚ) / 100 := by
  have hsum := sum_recordedOf s.amounts h.mem_keys_amounts_iff (·.amount.hundredths)
  rw [Entry.worth, ← hsum, Table.values_eq _ .zero, List.map_map, Nat.cast_list_sum, List.map_map,
    div_eq_mul_inv, ← List.sum_map_mul_right]
  exact congrArg List.sum (List.map_congr_left fun u _ => (h.amountOf_isTotalOf u).toRat_eq)

theorem Reflects.represents (h : s.Reflects counted) : s.Represents counted where
  transactions_eq := h.transactions_eq
  sum_counts := h.sum_counts.trans h.transactions_eq.symm
  amount_eq := h.amount_isTotalOf.toRat_eq
  sum_amounts := h.sum_amounts.trans h.amount_isTotalOf.toRat_eq.symm
  mem_keys_counts_iff := h.mem_keys_counts_iff
  mem_keys_amounts_iff := h.mem_keys_amounts_iff
  isSome_users_iff u := by
    rw [Option.isSome_iff_ne_none, ne_eq, h.get?_users_eq_none_iff, mem_usersSeen_iff]
  users_eq u t ht := by
    have htotals : s.totalsOf u = t := by rw [totalsOf, ht, Option.getD_some]
    rw [← htotals]
    exact ⟨h.count_totalsOf_eq u, (h.amount_totalsOf_isTotalOf u).toRat_eq⟩
  unique_users_eq := by
    have hsize : s.counts.size = (usersSeen counted).length :=
      Table.size_eq_of_mem_keys_iff (List.nodup_dedup _) h.mem_keys_counts_iff
    have hle := length_usersSeen_le counted
    have hlt : s.transactions.toNat < 2 ^ 64 := s.transactions.toNat_lt
    rw [h.transactions_eq] at hlt
    rw [snapshot, hsize]
    exact UInt64.toNat_ofNat_of_lt' (Nat.lt_of_le_of_lt hle hlt)
  paid_eq := h.paid_eq
  events_eq := h.events_eq
  lastTime_eq := h.lastTime_eq

/-- After any events, of which those accepted are worth less than `2^96` hundredths, all parts of
the statistics tell what these events come to. -/
theorem foldl_absorb_represents (events : List Event)
    (hworth : Entry.worth (recorded (accepted {} events)) < 2 ^ 96) :
    (events.foldl absorb {}).Represents (accepted {} events) :=
  (reflects_empty.run events hworth).represents

/-- A payment that is accepted, one that would overflow the counter, and a transaction. -/
theorem foldl_absorb_represents_rejected :
    let huge : Event := .paid ⟨7, by decide⟩ (.ofNat (2 ^ 64 - 1)) default
    let rent : Event := .created 1 ⟨7, by decide⟩ ⟨60000, by decide, by decide⟩ "rent" default
    Entry.worth (recorded (accepted {} [huge, huge, rent])) < 2 ^ 96 ∧
      accepted {} [huge, huge, rent] = [huge, rent] ∧
      ([huge, huge, rent].foldl absorb {}).Represents (accepted {} [huge, huge, rent]) := by
  intro huge rent
  have haccepted : accepted {} [huge, huge, rent] = [huge, rent] := by decide
  have hworth : Entry.worth (recorded (accepted {} [huge, huge, rent])) < 2 ^ 96 := by
    rw [haccepted]
    decide
  exact ⟨hworth, haccepted, foldl_absorb_represents _ hworth⟩

end Statistics

end SpendingLedger
