import SpendingLedger.Proofs.Decimal.Normal

/-!
Numbers made to fit a decimal. Wherever digits are dropped, no decimal comes to lie on the other
side of the number: every decimal up to the number is at most what it was rounded to, and every
decimal from the number on is at least that. So a number that is a decimal is not changed.
-/

namespace SpendingLedger.Decimal

/-- `r` is a number to which `q` may be rounded: no decimal lies strictly between the two. -/
structure Rounds (q r : ℚ) : Prop where
  le_of_le : ∀ d : Decimal, d.toRat ≤ q → d.toRat ≤ r
  ge_of_ge : ∀ d : Decimal, q ≤ d.toRat → r ≤ d.toRat

theorem rounds_self (q : ℚ) : Rounds q q := ⟨fun _ h => h, fun _ h => h⟩

/-- A decimal is rounded to itself only. -/
theorem Rounds.eq_of_toRat_eq {q r : ℚ} (h : Rounds q r) {d : Decimal} (hd : d.toRat = q) :
    r = q := by
  subst hd
  exact le_antisymm (h.ge_of_ge d (le_refl _)) (h.le_of_le d (le_refl _))

/-! ### Signs -/

/-- The decimal with the other sign. -/
def opposite (d : Decimal) : Decimal := { d with negative := !d.negative }

theorem toRat_opposite (d : Decimal) : d.opposite.toRat = -d.toRat := by
  rw [toRat, toRat, ← neg_div, signed, signed, opposite]
  cases d.negative <;> simp

/-- A magnitude with a sign. -/
def withSign (negative : Bool) (x : ℚ) : ℚ := if negative then -x else x

theorem abs_withSign (negative : Bool) {x : ℚ} (h : 0 ≤ x) : |withSign negative x| = x := by
  rw [withSign]
  split
  · rw [abs_neg, abs_of_nonneg h]
  · exact abs_of_nonneg h

theorem withSign_natAbs (i : Int) (x : ℚ) :
    withSign (i < 0) (i.natAbs / x) = i / x := by
  have hcast : ((i.natAbs : Nat) : ℚ) = |(i : ℚ)| := by
    rw [← Int.cast_abs, Int.abs_eq_natAbs, Int.cast_natCast]
  rw [withSign, hcast]
  by_cases h : i < 0
  · rw [if_pos (decide_eq_true h), abs_of_neg (by exact_mod_cast h), neg_div, neg_neg]
  · rw [if_neg (by simpa using h), abs_of_nonneg (by exact_mod_cast Int.not_lt.1 h)]

theorem toRat_eq_withSign (d : Decimal) :
    d.toRat = withSign d.negative (d.coefficient / 10 ^ d.scale) := by
  rw [toRat, signed, withSign]
  split
  · rw [Int.cast_neg, Int.cast_natCast, neg_div]
  · rw [Int.cast_natCast]

theorem toRat_of_isZero {d : Decimal} (h : d.IsZero) : d.toRat = 0 := by
  rw [toRat_eq_withSign, show d.coefficient = 0 from h]
  cases d.negative <;> simp [withSign]

/-- What the parts of a decimal that fit stand for. A zero loses its sign. -/
theorem ofParts?_of_lt (negative : Bool) {coefficient scale : Nat} (hc : coefficient < 2 ^ 96)
    (hs : scale ≤ 28) :
    ∃ d, ofParts? negative coefficient scale = some d ∧ d.scale = scale ∧
      d.toRat = withSign negative (coefficient / 10 ^ scale) := by
  refine ⟨_, dif_pos ⟨hc, hs⟩, rfl, ?_⟩
  rw [toRat_eq_withSign]
  rcases Nat.eq_zero_or_pos coefficient with rfl | hpos
  · cases negative <;> simp [withSign]
  · simp only [bne_iff_ne.2 hpos.ne', Bool.and_true]

theorem Rounds.neg {q r : ℚ} (h : Rounds q r) : Rounds (-q) (-r) where
  le_of_le d hd := by
    have := h.ge_of_ge d.opposite (by rw [toRat_opposite]; linarith)
    rw [toRat_opposite] at this
    linarith
  ge_of_ge d hd := by
    have := h.le_of_le d.opposite (by rw [toRat_opposite]; linarith)
    rw [toRat_opposite] at this
    linarith

theorem Rounds.withSign {q r : ℚ} (h : Rounds q r) (negative : Bool) :
    Rounds (Decimal.withSign negative q) (Decimal.withSign negative r) := by
  cases negative
  · exact h
  · exact h.neg

/-! ### Places -/

theorem toRat_mul_pow (d : Decimal) {k : Nat} (h : d.scale ≤ k) :
    d.toRat * 10 ^ k = d.unitsAt k := by
  rw [d.toRat_eq_unitsAt h, div_mul_cancel₀]
  positivity

theorem abs_toRat (d : Decimal) : |d.toRat| = d.coefficient / 10 ^ d.scale := by
  rw [toRat, abs_div, abs_of_pos (a := (10 : ℚ) ^ d.scale) (by positivity), signed]
  cases d.negative <;> simp

/-- With at least `k` places a decimal is small. -/
theorem abs_toRat_mul_pow_le (d : Decimal) {k : Nat} (h : k ≤ d.scale) :
    |d.toRat| * 10 ^ k ≤ 2 ^ 96 - 1 := by
  have hc : (d.coefficient : ℚ) ≤ 2 ^ 96 - 1 := by
    have := d.coefficient_lt
    exact_mod_cast (by omega : (d.coefficient : ℤ) ≤ 2 ^ 96 - 1)
  rw [abs_toRat, div_mul_eq_mul_div, div_le_iff₀ (by positivity)]
  exact mul_le_mul hc (pow_le_pow_right₀ (by norm_num) h) (by positivity) (by norm_num)

theorem abs_toRat_le (d : Decimal) : |d.toRat| ≤ 2 ^ 96 - 1 := by
  simpa using d.abs_toRat_mul_pow_le (Nat.zero_le _)

/-- A whole number `c` of units of the `k`-th place less than a unit off `x` is one that `x` may be
rounded to, if there is no room for a further place in `x`, nor in the result. -/
theorem rounds_of_near {x : ℚ} {c k : Nat} (hle : (c : ℚ) < x * 10 ^ k + 1)
    (hge : x * 10 ^ k < c + 1)
    (hfull : 28 ≤ k ∨ (2 ^ 96 - 1 : ℚ) < x * 10 ^ (k + 1) ∧ 2 ^ 96 ≤ 10 * c) :
    Rounds x (c / 10 ^ k) := by
  have hpos : (0 : ℚ) < 10 ^ k := by positivity
  -- what has a further place is too small to come near
  have hfine : ∀ d : Decimal, k < d.scale →
      d.toRat < x ∧ d.toRat ≤ (c : ℚ) / 10 ^ k := by
    intro d hd
    have hscale := d.scale_le
    obtain ⟨hx, hc⟩ := hfull.resolve_left (by omega)
    have hsmall := d.abs_toRat_mul_pow_le hd
    have habs : d.toRat * 10 ^ (k + 1) ≤ 2 ^ 96 - 1 :=
      (mul_le_mul_of_nonneg_right (le_abs_self _) (by positivity)).trans hsmall
    constructor
    · exact lt_of_mul_lt_mul_right (habs.trans_lt hx) (by positivity)
    · rw [le_div_iff₀ hpos]
      have hc' : (2 ^ 96 : ℚ) ≤ 10 * c := by exact_mod_cast hc
      rw [pow_succ] at habs
      linarith
  refine ⟨fun d hd => ?_, fun d hd => ?_⟩
  · rcases Nat.lt_or_ge k d.scale with hscale | hscale
    · exact (hfine d hscale).2
    · have hlt : (d.unitsAt k : ℚ) < c + 1 := by
        rw [← d.toRat_mul_pow hscale]
        exact (mul_le_mul_of_nonneg_right hd hpos.le).trans_lt hge
      have hunits : d.unitsAt k ≤ c := Int.lt_add_one_iff.1 (by exact_mod_cast hlt)
      rw [le_div_iff₀ hpos, d.toRat_mul_pow hscale]
      exact_mod_cast hunits
  · rcases Nat.lt_or_ge k d.scale with hscale | hscale
    · exact absurd hd (not_le.2 (hfine d hscale).1)
    · have hlt : (c : ℚ) < d.unitsAt k + 1 := by
        rw [← d.toRat_mul_pow hscale]
        have := mul_le_mul_of_nonneg_right hd hpos.le
        linarith
      have hunits : (c : ℤ) ≤ d.unitsAt k := Int.lt_add_one_iff.1 (by exact_mod_cast hlt)
      rw [div_le_iff₀ hpos, d.toRat_mul_pow hscale]
      exact_mod_cast hunits

end SpendingLedger.Decimal
