import SpendingLedger.Proofs.Decimal.RoundTrip
import SpendingLedger.Proofs.Decimal.Value
import Mathlib.Order.Bounds.Basic

/-!
The form of a decimal with the fewest places. It stands for the same number, and that number has no
decimal with fewer. Appending places leaves the number as it is, too, as long as the digits fit.
-/

namespace SpendingLedger.Decimal

/-! ### Order -/

theorem lt_iff_toRat_lt (a b : Decimal) : a < b ↔ a.toRat < b.toRat := by
  rw [a.toRat_eq_unitsAt (Nat.le_max_left a.scale b.scale),
    b.toRat_eq_unitsAt (Nat.le_max_right a.scale b.scale),
    div_lt_div_iff_of_pos_right (by positivity), Int.cast_lt]
  exact Iff.rfl

theorem le_zero_iff (d : Decimal) : d ≤ zero ↔ d.negative = true ∨ d.IsZero := by
  have hpos : (0 : ℚ) < 10 ^ d.scale := by positivity
  rw [le_iff_toRat_le, toRat_zero, toRat, div_le_iff₀ hpos, zero_mul, Int.cast_nonpos, signed,
    IsZero]
  cases d.negative <;> simp

/-- The number in units of a place that is at least as fine. -/
theorem toRat_of_not_negative {d : Decimal} (h : d.negative = false) {places : Nat}
    (hle : d.scale ≤ places) :
    d.toRat = (d.coefficient * 10 ^ (places - d.scale) : Nat) / 10 ^ places := by
  rw [d.toRat_eq_unitsAt hle, unitsAt, signed, h]
  push_cast
  rfl

/-! ### The fewest places -/

/-- The number can be written with `k` places. -/
def HasPlaces (q : ℚ) (k : Nat) : Prop := ∃ n : ℤ, 10 ^ k * q = n

theorem hasPlaces_toRat (d : Decimal) {k : Nat} (h : d.scale ≤ k) : HasPlaces d.toRat k := by
  refine ⟨d.unitsAt k, ?_⟩
  rw [d.toRat_eq_unitsAt h]
  field_simp

/-- Where trailing zeros have been dropped there are none left, unless no place is. -/
theorem strip_last (c s : Nat) : (strip c s).2 = 0 ∨ (strip c s).1 % 10 ≠ 0 := by
  induction s generalizing c with
  | zero => exact .inl rfl
  | succ s ih =>
    rw [strip]
    split
    · exact ih (c / 10)
    · next h => exact .inr h

theorem toRat_normalize (d : Decimal) : d.normalize.toRat = d.toRat := by
  by_cases hzero : d.IsZero
  · have hcoefficient : d.coefficient = 0 := hzero
    rw [normalize, if_pos hzero, toRat_zero, toRat, signed, hcoefficient]
    simp
  · have hunits : d.normalize.unitsAt d.scale = d.signed := by
      have hstrip : ((strip d.coefficient d.scale).1 : ℤ) *
          10 ^ (d.scale - (strip d.coefficient d.scale).2) = d.coefficient := by
        exact_mod_cast strip_mul d.coefficient d.scale
      simp only [normalize, hzero, ↓reduceIte, unitsAt, signed]
      split
      · rw [neg_mul, hstrip]
      · exact hstrip
    have hscale : d.normalize.scale ≤ d.scale := by
      rw [normalize, if_neg hzero]
      exact (strip_le ..).2
    rw [toRat_eq_unitsAt _ hscale, hunits, toRat]

theorem negative_normalize {d : Decimal} (h : ¬ d.IsZero) :
    d.normalize.negative = d.negative := by
  rw [normalize, if_neg h]

theorem normalize_last (d : Decimal) :
    d.normalize.scale = 0 ∨ d.normalize.coefficient % 10 ≠ 0 := by
  rw [normalize]
  split
  · exact .inl rfl
  · exact strip_last ..

/-- Fewer places would need a last digit of zero. -/
theorem scale_normalize_le {d : Decimal} {k : Nat} (h : HasPlaces d.toRat k) :
    d.normalize.scale ≤ k := by
  by_contra hlt
  obtain ⟨j, hj⟩ := Nat.exists_eq_add_of_lt (Nat.lt_of_not_le hlt)
  obtain ⟨n, hn⟩ := h
  have hsigned : d.normalize.signed = n * 10 ^ j * 10 := by
    have hq : (d.normalize.signed : ℚ) = n * 10 ^ j * 10 := by
      rw [← hn, ← toRat_normalize, toRat, hj, pow_succ, pow_add]
      field_simp
    exact_mod_cast hq
  have hlast : d.normalize.coefficient % 10 = 0 := by
    rw [signed] at hsigned
    split at hsigned <;> omega
  rcases d.normalize_last with hscale | hne
  · omega
  · exact hne hlast

theorem hasPlaces_iff (d : Decimal) (k : Nat) : HasPlaces d.toRat k ↔ d.normalize.scale ≤ k := by
  refine ⟨scale_normalize_le, fun h => ?_⟩
  rw [← toRat_normalize]
  exact hasPlaces_toRat _ h

theorem isLeast_scale_normalize (d : Decimal) :
    IsLeast {k | HasPlaces d.toRat k} d.normalize.scale :=
  ⟨(d.hasPlaces_iff _).2 (Nat.le_refl _), fun _ hk => scale_normalize_le hk⟩

/-! ### More places -/

theorem extend_eq {n c : Nat} (s : Nat) (h : c * 10 ^ n < limit) :
    extend n c s = (c * 10 ^ n, s + n) := by
  induction n generalizing c s with
  | zero => simp [extend]
  | succ n ih =>
    have hstep : c * 10 * 10 ^ n = c * 10 ^ (n + 1) := by ring
    have hnext : c * 10 < limit := by
      have := Nat.le_mul_of_pos_right (c * 10) (Nat.pow_pos (n := n) (by decide : 0 < 10))
      omega
    rw [extend, if_pos hnext, ih (s + 1) (by rwa [hstep]), hstep]
    congr 1
    omega

/-- Zeros are appended as long as the digits fit. -/
theorem rescale_eq {d : Decimal} {target : Fin 29} (hzero : ¬ d.IsZero) (hle : d.scale ≤ target)
    (h : d.coefficient * 10 ^ (target.val - d.scale) < 2 ^ 96) :
    d.rescale target = ⟨d.negative, d.coefficient * 10 ^ (target.val - d.scale), target, h,
      Nat.le_of_lt_succ target.isLt⟩ := by
  have hextend := extend_eq d.scale h
  simp only [rescale, hzero, ↓reduceIte, Nat.not_lt.2 hle, hextend, mk.injEq, true_and]
  omega

end SpendingLedger.Decimal
