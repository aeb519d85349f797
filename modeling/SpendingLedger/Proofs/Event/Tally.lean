import SpendingLedger.Event
import Mathlib.Algebra.BigOperators.Group.List.Lemmas
import Mathlib.Algebra.Ring.Nat
import Mathlib.Data.List.Dedup

/-!
What a list of events says: the entries recorded, those of one user, and how many rows were paid.
In which order the events came makes no difference to the sums.
-/

namespace SpendingLedger

/-- The entry that an event says was recorded. -/
def Event.entry? : Event → Option Entry
  | .created _ user amount description _ => some ⟨user, amount, description⟩
  | .paid .. => none

/-- How many rows an event says were paid. -/
def Event.rowsPaid : Event → Nat
  | .created .. => 0
  | .paid _ count _ => count.toNat

/-- What entries add up to, in hundredths. -/
def Entry.worth (entries : List Entry) : Nat := (entries.map (·.amount.hundredths)).sum

namespace Events

def recorded (events : List Event) : List Entry := events.filterMap Event.entry?

/-- The entries recorded for a user. -/
def recordedOf (u : UserId) (events : List Event) : List Entry :=
  (recorded events).filter (fun e => e.user = u)

def rowsPaid (events : List Event) : Nat := (events.map Event.rowsPaid).sum

/-- The users for whom something was recorded, each once. -/
def usersSeen (events : List Event) : List UserId := ((recorded events).map (·.user)).dedup

theorem recorded_append (a b : List Event) : recorded (a ++ b) = recorded a ++ recorded b :=
  List.filterMap_append ..

theorem recordedOf_append (u : UserId) (a b : List Event) :
    recordedOf u (a ++ b) = recordedOf u a ++ recordedOf u b := by
  rw [recordedOf, recorded_append, List.filter_append, recordedOf, recordedOf]

theorem rowsPaid_append (a b : List Event) : rowsPaid (a ++ b) = rowsPaid a + rowsPaid b := by
  rw [rowsPaid, List.map_append, List.sum_append, rowsPaid, rowsPaid]

theorem worth_append (a b : List Entry) : Entry.worth (a ++ b) = Entry.worth a + Entry.worth b := by
  rw [Entry.worth, List.map_append, List.sum_append, Entry.worth, Entry.worth]

theorem perm_recorded {a b : List Event} (h : a.Perm b) : (recorded a).Perm (recorded b) :=
  h.filterMap _

theorem rowsPaid_eq_of_perm {a b : List Event} (h : a.Perm b) : rowsPaid a = rowsPaid b :=
  (h.map _).sum_nat

theorem worth_eq_of_perm {a b : List Entry} (h : a.Perm b) : Entry.worth a = Entry.worth b :=
  (h.map _).sum_nat

theorem length_recorded_le (events : List Event) : (recorded events).length ≤ events.length :=
  List.length_filterMap_le ..

theorem worth_recordedOf_le (u : UserId) (events : List Event) :
    Entry.worth (recordedOf u events) ≤ Entry.worth (recorded events) := by
  rw [recordedOf]
  induction recorded events with
  | nil => exact Nat.le_refl _
  | cons e rest ih =>
    rw [List.filter_cons]
    split <;> simp only [Entry.worth, List.map_cons, List.sum_cons] at ih ⊢ <;> omega

/-! ### By users -/

theorem mem_usersSeen_iff (u : UserId) (events : List Event) :
    u ∈ usersSeen events ↔ recordedOf u events ≠ [] := by
  rw [usersSeen, List.mem_dedup, List.mem_map, recordedOf, ne_eq, List.filter_eq_nil_iff]
  simp

theorem length_usersSeen_le (events : List Event) :
    (usersSeen events).length ≤ (recorded events).length := by
  have := (((recorded events).map (·.user)).dedup_sublist).length_le
  rwa [List.length_map] at this

/-- What is recorded adds up user by user, if no user is left out and none counted twice. -/
theorem sum_by_user {users : List UserId} (hnodup : users.Nodup) (weight : Entry → Nat)
    {entries : List Entry} (hmem : ∀ e ∈ entries, e.user ∈ users) :
    (users.map fun u => ((entries.filter (·.user = u)).map weight).sum).sum =
      (entries.map weight).sum := by
  induction entries with
  | nil => simp
  | cons e rest ih =>
    have hsplit : ∀ u, (((e :: rest).filter (·.user = u)).map weight).sum =
        (if e.user = u then weight e else 0) + ((rest.filter (·.user = u)).map weight).sum := by
      intro u
      rw [List.filter_cons]
      by_cases h : e.user = u <;> simp [h]
    have hone : (users.map fun u => if e.user = u then weight e else 0).sum = weight e := by
      rw [List.sum_map_eq_nsmul_single e.user _ fun u hu _ => if_neg (Ne.symm hu),
        List.count_eq_one_of_mem hnodup (hmem e List.mem_cons_self), one_nsmul, if_pos rfl]
    simp only [hsplit]
    rw [List.sum_map_add, hone, ih fun e he => hmem e (List.mem_cons_of_mem _ he), List.map_cons,
      List.sum_cons]

/-- The sums that a list of events leads to are small enough for the counters. -/
structure Fit (events : List Event) : Prop where
  length_lt : events.length < 2 ^ 64
  worth_lt : Entry.worth (recorded events) < 2 ^ 96
  rowsPaid_lt : rowsPaid events < 2 ^ 64

theorem Fit.of_perm_append {events part rest : List Event} (h : Fit events)
    (hperm : (part ++ rest).Perm events) : Fit part where
  length_lt := by
    have := hperm.length_eq
    rw [List.length_append] at this
    have := h.length_lt
    omega
  worth_lt := by
    have := worth_eq_of_perm (perm_recorded hperm)
    rw [recorded_append, worth_append] at this
    have := h.worth_lt
    omega
  rowsPaid_lt := by
    have := rowsPaid_eq_of_perm hperm
    rw [rowsPaid_append] at this
    have := h.rowsPaid_lt
    omega

end Events

end SpendingLedger
