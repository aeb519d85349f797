/-!
Numbers of a fixed width whose exact value may not fit. A program is built in one of two ways: it
goes on with the value modulo the width, or it stops.
-/

namespace SpendingLedger

/-- What is done where a value does not fit. -/
inductive Overflow where
  /-- The value is taken modulo the width. -/
  | wraps
  /-- There is no value, and whoever asked for it goes no further. -/
  | stops
deriving DecidableEq, Repr

namespace Overflow

/-- The value that is kept, given whether the exact one fits. -/
def keep {α : Type} (o : Overflow) (fits : Bool) (x : α) : Option α :=
  match o with
  | .wraps => some x
  | .stops => if fits then some x else none

/-- The number after `n`, in 32 bits. -/
def next32? (o : Overflow) (n : UInt32) : Option UInt32 := o.keep (n.toNat + 1 < 2 ^ 32) (n + 1)

/-- The product of two numbers, in 64 bits. -/
def product64? (o : Overflow) (n m : UInt64) : Option UInt64 :=
  o.keep (n.toNat * m.toNat < 2 ^ 64) (n * m)

variable {α : Type} {o : Overflow} {fits : Bool} {x y : α}

theorem keep_eq_some_iff : o.keep fits x = some y ↔ y = x ∧ (o = .stops → fits = true) := by
  cases o with
  | wraps => simp [keep, eq_comm]
  | stops => cases fits <;> simp [keep, eq_comm]

theorem keep_eq_none_iff : o.keep fits x = none ↔ o = .stops ∧ fits = false := by
  cases o with
  | wraps => simp [keep]
  | stops => cases fits <;> simp [keep]

theorem next32?_eq_some_iff {n k : UInt32} :
    o.next32? n = some k ↔ k = n + 1 ∧ (o = .stops → n.toNat + 1 < 2 ^ 32) := by
  rw [next32?, keep_eq_some_iff, decide_eq_true_eq]

theorem next32?_eq_none_iff {n : UInt32} :
    o.next32? n = none ↔ o = .stops ∧ 2 ^ 32 ≤ n.toNat + 1 := by
  rw [next32?, keep_eq_none_iff, decide_eq_false_iff_not, Nat.not_lt]

theorem product64?_eq_some_iff {n m k : UInt64} :
    o.product64? n m = some k ↔ k = n * m ∧ (o = .stops → n.toNat * m.toNat < 2 ^ 64) := by
  rw [product64?, keep_eq_some_iff, decide_eq_true_eq]

theorem product64?_eq_none_iff {n m : UInt64} :
    o.product64? n m = none ↔ o = .stops ∧ 2 ^ 64 ≤ n.toNat * m.toNat := by
  rw [product64?, keep_eq_none_iff, decide_eq_false_iff_not, Nat.not_lt]

end Overflow

end SpendingLedger
