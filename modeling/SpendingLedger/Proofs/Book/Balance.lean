import SpendingLedger.Book
import SpendingLedger.Proofs.Decimal.Value
import Mathlib.Algebra.Order.BigOperators.Group.List

/-!
The totals of a book beside its rows. A book is balanced under a cap if each user with rows, and no
other, has a total, which is the exact sum of the amounts of the rows and within the cap. An empty
book is balanced, and adding and paying keep it so.
-/

namespace SpendingLedger.Book

/-- What the rows of a user add up to, paid or not, in hundredths. -/
def spent (b : Book) (u : UserId) : Nat := ((b.rowsOf u).map (·.amount.hundredths)).sum

/-- What all rows add up to, in hundredths. -/
def spentInAll (b : Book) : Nat := (b.rows.map (·.amount.hundredths)).sum

/-- The totals agree with the rows, and none is over the cap. -/
structure Balanced (b : Book) (cap : Decimal) : Prop where
  get?_eq_none_iff : ∀ u, b.totals.get? u = none ↔ b.rowsOf u = []
  eq_of_get?_eq_some : ∀ u t, b.totals.get? u = some t →
    ∃ h, t = .ofHundredths (b.spent u) h ∧ t ≤ cap

theorem balanced_empty (cap : Decimal) : Balanced {} cap where
  get?_eq_none_iff _ := ⟨fun _ => rfl, fun _ => rfl⟩
  eq_of_get?_eq_some _ _ h := nomatch h

theorem spent_pos {b : Book} {u : UserId} (h : b.rowsOf u ≠ []) : 0 < b.spent u := by
  obtain ⟨t, rest, ht⟩ := List.exists_cons_of_ne_nil h
  rw [spent, ht, List.map_cons, List.sum_cons]
  have := t.amount.pos
  omega

theorem Balanced.total_isTotalOf {b : Book} {cap : Decimal} (hb : b.Balanced cap) (u : UserId) :
    (b.total u).IsTotalOf (b.spent u) := by
  cases ht : b.totals.get? u with
  | none =>
    have hrows := (hb.get?_eq_none_iff u).1 ht
    exact .inl ⟨by rw [total, ht]; rfl, by rw [spent, hrows]; rfl⟩
  | some t =>
    obtain ⟨h, rfl, -⟩ := hb.eq_of_get?_eq_some u t ht
    refine .inr ⟨h, by rw [total, ht]; rfl, spent_pos ?_⟩
    intro hrows
    rw [(hb.get?_eq_none_iff u).2 hrows] at ht
    contradiction

/-! ### Adding a row -/

def row (b : Book) (now : Timestamp) (e : Entry) : Transaction :=
  ⟨b.lastId + 1, e.user, e.amount, e.description, false, now⟩

/-- The book with that row and the new total of its user. -/
def record (b : Book) (now : Timestamp) (e : Entry) (newTotal : Decimal) : Book where
  rows := b.row now e :: b.rows
  totals := b.totals.insert e.user newTotal
  lastId := b.lastId + 1

theorem rowsOf_record (b : Book) (now : Timestamp) (e : Entry) (newTotal : Decimal) (u : UserId) :
    (b.record now e newTotal).rowsOf u =
      if e.user = u then b.row now e :: b.rowsOf u else b.rowsOf u := by
  by_cases h : e.user = u
  · simp [rowsOf, record, row, h]
  · simp [rowsOf, record, row, h]

theorem spent_record (b : Book) (now : Timestamp) (e : Entry) (newTotal : Decimal) (u : UserId) :
    (b.record now e newTotal).spent u =
      if e.user = u then b.spent u + e.amount.hundredths else b.spent u := by
  rw [spent, rowsOf_record]
  split
  · rw [List.map_cons, List.sum_cons, Nat.add_comm]
    rfl
  · rfl

/-- An entry is recorded exactly if its amount fits on top of what the user has spent. -/
theorem Balanced.insert_eq {b : Book} {cap : Decimal} (hb : b.Balanced cap)
    (hcap : cap.toRat ≤ Decimal.exactCap) (now : Timestamp) (e : Entry) :
    (∃ h : b.spent e.user + e.amount.hundredths < 2 ^ 96,
      (b.spent e.user : ℚ) / 100 + e.amount.toRat ≤ cap.toRat ∧
      b.insert now e cap =
        (.recorded (b.row now e) (.ofHundredths (b.spent e.user + e.amount.hundredths) h),
          b.record now e (.ofHundredths (b.spent e.user + e.amount.hundredths) h))) ∨
    (cap.toRat < (b.spent e.user : ℚ) / 100 + e.amount.toRat ∧
      b.insert now e cap = (.capExceeded (b.total e.user), b)) := by
  rcases e.amount.addWithin?_eq (hb.total_isTotalOf e.user) hcap with ⟨h, hle, hadd⟩ | ⟨hlt, hadd⟩
  · exact .inl ⟨h, hle, by rw [insert, hadd]; rfl⟩
  · exact .inr ⟨hlt, by rw [insert, hadd]⟩

theorem Balanced.record {b : Book} {cap : Decimal} (hb : b.Balanced cap) (now : Timestamp)
    (e : Entry) (h : b.spent e.user + e.amount.hundredths < 2 ^ 96)
    (hle : (b.spent e.user : ℚ) / 100 + e.amount.toRat ≤ cap.toRat) :
    (b.record now e (.ofHundredths (b.spent e.user + e.amount.hundredths) h)).Balanced cap where
  get?_eq_none_iff u := by
    rw [rowsOf_record, Book.record, Table.get?_insert]
    split
    · simp
    · exact hb.get?_eq_none_iff u
  eq_of_get?_eq_some u t ht := by
    rw [Book.record, Table.get?_insert] at ht
    rw [spent_record]
    split at ht
    · next hu =>
      subst hu
      obtain rfl := Option.some.inj ht
      refine ⟨by rw [if_pos rfl]; exact h, by simp only [↓reduceIte], ?_⟩
      rw [Decimal.le_iff_toRat_le, Decimal.toRat_ofHundredths]
      push_cast
      rw [Amount.toRat] at hle
      linarith
    · next hu =>
      rw [if_neg hu]
      exact hb.eq_of_get?_eq_some u t ht

/-! ### Paying -/

theorem countP_isUnpaidOf (u : UserId) (rows : List Transaction) :
    rows.countP (fun t => IsUnpaidOf u t) =
      (rows.filter (·.user = u)).countP (fun t => !t.isPaid) := by
  rw [List.countP_filter]
  refine List.countP_congr fun t _ => ?_
  simp [IsUnpaidOf, and_comm]

theorem rowsOf_markPaid (b : Book) (u v : UserId) :
    (b.markPaid u).2.rowsOf v = (b.rowsOf v).map
      (fun t => if IsUnpaidOf u t then { t with isPaid := true } else t) := by
  rw [rowsOf, markPaid, List.filter_map, rowsOf]
  congr 1
  apply List.filter_congr
  intro t _
  simp only [Function.comp_apply]
  split <;> rfl

theorem spent_markPaid (b : Book) (u v : UserId) : (b.markPaid u).2.spent v = b.spent v := by
  rw [spent, rowsOf_markPaid, List.map_map, spent]
  congr 1
  apply List.map_congr_left
  intro t _
  simp only [Function.comp_apply]
  split <;> rfl

theorem Balanced.markPaid {b : Book} {cap : Decimal} (hb : b.Balanced cap) (u : UserId) :
    (b.markPaid u).2.Balanced cap where
  get?_eq_none_iff v := by
    rw [rowsOf_markPaid, List.map_eq_nil_iff]
    exact hb.get?_eq_none_iff v
  eq_of_get?_eq_some v t ht := by
    rw [spent_markPaid]
    exact hb.eq_of_get?_eq_some v t ht

end SpendingLedger.Book
