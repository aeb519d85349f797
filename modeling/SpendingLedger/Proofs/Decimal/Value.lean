import SpendingLedger.Amount
import Mathlib.Algebra.Order.Field.Rat
import Mathlib.Tactic.FieldSimp
import Mathlib.Tactic.Linarith
import Mathlib.Tactic.NormNum
import Mathlib.Tactic.Positivity
import Mathlib.Tactic.Ring

/-!
The number that a decimal stands for, and sums at two places. Order is order of the numbers. A sum
of hundredths is exact as long as it is a decimal of two places; one that is not passes every cap
of at most `2^96 - 1` hundredths, also after the rounding that makes it a decimal.
-/

namespace SpendingLedger

namespace Decimal

/-- The number that a decimal stands for. -/
def toRat (d : Decimal) : ℚ := d.signed / 10 ^ d.scale

theorem toRat_eq_unitsAt (d : Decimal) {places : Nat} (h : d.scale ≤ places) :
    d.toRat = d.unitsAt places / 10 ^ places := by
  obtain ⟨k, rfl⟩ := Nat.exists_eq_add_of_le h
  rw [toRat, unitsAt, Nat.add_sub_cancel_left, pow_add]
  push_cast
  field_simp

theorem le_iff_toRat_le (a b : Decimal) : a ≤ b ↔ a.toRat ≤ b.toRat := by
  rw [a.toRat_eq_unitsAt (Nat.le_max_left a.scale b.scale),
    b.toRat_eq_unitsAt (Nat.le_max_right a.scale b.scale),
    div_le_div_iff_of_pos_right (by positivity), Int.cast_le]
  exact Iff.rfl

theorem toRat_zero : zero.toRat = 0 := by
  simp [toRat, zero, signed]

/-! ### Hundredths -/

/-- A number of hundredths as a decimal of two places. -/
def ofHundredths (n : Nat) (h : n < 2 ^ 96) : Decimal := ⟨false, n, 2, h, two_le_maxScale⟩

theorem toRat_ofHundredths (n : Nat) (h : n < 2 ^ 96) : (ofHundredths n h).toRat = n / 100 := by
  simp [toRat, ofHundredths, signed]
  norm_num

theorem zero_add? (d : Decimal) : zero.add? d = some d := rfl

/-- No place is dropped from digits that fit. -/
theorem fit?_of_lt {n : Nat} (h : n < 2 ^ 96) : fit? false n 2 = some (ofHundredths n h) := by
  have hd : (List.range (2 + 1)).find? (fun t => decide (n / 10 ^ t < limit)) = some 0 := by
    rw [show List.range (2 + 1) = 0 :: [1, 2] from rfl, List.find?_cons_of_pos]
    simpa [limit] using h
  have hr : halfEven n (10 ^ 0) = n := by
    rw [halfEven, Nat.pow_zero, Nat.div_one, Nat.mod_one]
    rfl
  simp only [fit?, Option.bind_eq_bind]
  rw [hd]
  simp only [Option.bind_some, hr, limit, h, ↓reduceIte, Nat.sub_zero, ofParts?, true_and,
    Nat.reduceLeDiff, ↓reduceDIte, Bool.false_and, ofHundredths]

/-- One place is dropped from digits that are just too many. -/
theorem fit?_of_ge {n : Nat} (h : 2 ^ 96 ≤ n) (hn : n < 2 ^ 97) :
    ∃ hr : halfEven n 10 < 2 ^ 96,
      fit? false n 2 = some ⟨false, halfEven n 10, 1, hr, by decide⟩ := by
  have h₀ : ¬ n / 10 ^ 0 < limit := by simpa [limit] using h
  have h₁ : n / 10 ^ 1 < limit := by simp only [limit, Nat.pow_one]; omega
  have hd : (List.range (2 + 1)).find? (fun t => decide (n / 10 ^ t < limit)) = some 1 := by
    rw [show List.range (2 + 1) = [0, 1, 2] from rfl, List.find?_cons_of_neg (by simpa using h₀),
      List.find?_cons_of_pos (by simpa using h₁)]
  have hr : halfEven n 10 < 2 ^ 96 := by
    simp only [halfEven]
    split <;> omega
  refine ⟨hr, ?_⟩
  simp only [fit?, Option.bind_eq_bind]
  rw [hd]
  simp only [Option.bind_some, Nat.pow_one, limit, hr, ↓reduceIte, ofParts?, true_and,
    Nat.reduceSub, Nat.reduceLeDiff, ↓reduceDIte, Bool.false_and]

/-- A sum of hundredths before it is made to fit. -/
theorem add?_ofHundredths {m n : Nat} (hm : m < 2 ^ 96) (hn : n < 2 ^ 96) (hm₀ : 0 < m)
    (hn₀ : 0 < n) : (ofHundredths m hm).add? (ofHundredths n hn) = fit? false (m + n) 2 := by
  have ha : ¬ (ofHundredths m hm).IsZero := Nat.ne_of_gt hm₀
  have hb : ¬ (ofHundredths n hn).IsZero := Nat.ne_of_gt hn₀
  have hs : ¬ ((m : Int) + n < 0) := by omega
  have habs : ((m : Int) + n).natAbs = m + n := by omega
  rw [add?, if_neg ha, if_neg hb]
  simp only [Nat.max_self, unitsAt, Nat.sub_self, Int.pow_zero, Int.mul_one, signed, ofHundredths,
    Bool.false_eq_true, ↓reduceIte, hs, habs, decide_false]

end Decimal

namespace Amount

theorem toDecimal_eq (a : Amount) :
    a.toDecimal = .ofHundredths a.hundredths (Nat.lt_of_le_of_lt a.le_max (by decide)) := rfl

def toRat (a : Amount) : ℚ := a.hundredths / 100

end Amount

namespace Decimal

/-- The greatest cap under which sums of hundredths are exact. -/
def exactCap : ℚ := (2 ^ 96 - 1) / 100

/-- The total of `n` hundredths, as it is kept: without places if there is nothing yet. -/
def IsTotalOf (d : Decimal) (n : Nat) : Prop :=
  (d = zero ∧ n = 0) ∨ ∃ h : n < 2 ^ 96, d = ofHundredths n h ∧ 0 < n

theorem IsTotalOf.toRat_eq {d : Decimal} {n : Nat} (h : d.IsTotalOf n) : d.toRat = n / 100 := by
  rcases h with ⟨rfl, rfl⟩ | ⟨hn, rfl, -⟩
  · simp [toRat_zero]
  · exact toRat_ofHundredths n hn

theorem isTotalOf_zero : zero.IsTotalOf 0 := .inl ⟨rfl, rfl⟩

/-- A total has one form only. -/
theorem IsTotalOf.unique {a b : Decimal} {n : Nat} (ha : a.IsTotalOf n) (hb : b.IsTotalOf n) :
    a = b := by
  rcases ha with ⟨rfl, rfl⟩ | ⟨_, rfl, hn⟩ <;> rcases hb with ⟨rfl, h₀⟩ | ⟨_, rfl, h₀⟩
  · rfl
  · omega
  · omega
  · rfl

/-- The sum of a total and an amount is exact if it is a decimal of two places. -/
theorem IsTotalOf.add?_of_lt {d : Decimal} {n : Nat} (hd : d.IsTotalOf n) (a : Amount)
    (h : n + a.hundredths < 2 ^ 96) :
    d.add? a.toDecimal = some (ofHundredths (n + a.hundredths) h) := by
  rcases hd with ⟨rfl, rfl⟩ | ⟨hn, rfl, hn₀⟩
  · rw [zero_add?, a.toDecimal_eq]
    simp only [Nat.zero_add]
  · rw [a.toDecimal_eq, add?_ofHundredths hn _ hn₀ a.pos, fit?_of_lt h]

/-- A sum that is no decimal of two places is rounded to one that passes every exact cap. -/
theorem IsTotalOf.add?_of_ge {d : Decimal} {n : Nat} (hd : d.IsTotalOf n) (a : Amount)
    (h : 2 ^ 96 ≤ n + a.hundredths) :
    ∃ sum, d.add? a.toDecimal = some sum ∧ exactCap < sum.toRat := by
  have ha := a.le_max
  rcases hd with ⟨rfl, rfl⟩ | ⟨hn, rfl, hn₀⟩
  · omega
  · obtain ⟨hr, hf⟩ := fit?_of_ge h (by omega)
    refine ⟨_, by rw [a.toDecimal_eq, add?_ofHundredths hn _ hn₀ a.pos, hf], ?_⟩
    have hge : 7922816251426433759354395034 ≤ halfEven (n + a.hundredths) 10 := by
      simp only [halfEven]
      split <;> omega
    have hge' : (7922816251426433759354395034 : ℚ) ≤ (halfEven (n + a.hundredths) 10 : ℚ) := by
      exact_mod_cast hge
    simp only [toRat, signed, Bool.false_eq_true, ↓reduceIte, Int.cast_natCast, exactCap]
    linarith

end Decimal

/-- An amount goes on top of a total exactly if the true sum stays within the cap, and then the new
total is the true sum. -/
theorem Amount.addWithin?_eq (a : Amount) {total cap : Decimal} {n : Nat}
    (htotal : total.IsTotalOf n) (hcap : cap.toRat ≤ Decimal.exactCap) :
    (∃ h : n + a.hundredths < 2 ^ 96, (n : ℚ) / 100 + a.toRat ≤ cap.toRat ∧
      a.addWithin? total cap = some (.ofHundredths (n + a.hundredths) h)) ∨
    (cap.toRat < (n : ℚ) / 100 + a.toRat ∧ a.addWithin? total cap = none) := by
  have hsum : (n : ℚ) / 100 + a.toRat = ((n + a.hundredths : Nat) : ℚ) / 100 := by
    rw [toRat]
    push_cast
    ring
  rw [hsum]
  by_cases h : n + a.hundredths < 2 ^ 96
  · have hadd := htotal.add?_of_lt a h
    by_cases hle : ((n + a.hundredths : Nat) : ℚ) / 100 ≤ cap.toRat
    · refine .inl ⟨h, hle, ?_⟩
      have : Decimal.ofHundredths (n + a.hundredths) h ≤ cap := by
        rw [Decimal.le_iff_toRat_le, Decimal.toRat_ofHundredths]
        exact hle
      simp only [addWithin?, hadd, this, ↓reduceIte]
    · refine .inr ⟨lt_of_not_ge hle, ?_⟩
      have : ¬ Decimal.ofHundredths (n + a.hundredths) h ≤ cap := by
        rw [Decimal.le_iff_toRat_le, Decimal.toRat_ofHundredths]
        exact hle
      simp only [addWithin?, hadd, this, ↓reduceIte]
  · have h := Nat.le_of_not_lt h
    obtain ⟨sum, hadd, hlt⟩ := htotal.add?_of_ge a h
    have hq : ((2 ^ 96 : Nat) : ℚ) ≤ ((n + a.hundredths : Nat) : ℚ) := by exact_mod_cast h
    have hbig : Decimal.exactCap < ((n + a.hundredths : Nat) : ℚ) / 100 := by
      rw [Decimal.exactCap]
      push_cast at hq ⊢
      linarith
    refine .inr ⟨lt_of_le_of_lt hcap hbig, ?_⟩
    have : ¬ sum ≤ cap := by
      rw [Decimal.le_iff_toRat_le]
      exact not_le_of_gt (lt_of_le_of_lt hcap hlt)
    simp only [addWithin?, hadd, this, ↓reduceIte]

end SpendingLedger
