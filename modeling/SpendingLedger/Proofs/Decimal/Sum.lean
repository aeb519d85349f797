import SpendingLedger.Proofs.Decimal.Rounding

/-!
Sums of decimals. A sum is the true one as far as decimals go: no decimal lies strictly between the
two, so a true sum that is a decimal is the sum. Where there is no sum, the true one is larger than
every decimal.
-/

namespace SpendingLedger

/-- A quotient is rounded by at most a half. -/
theorem two_mul_halfEven_le (n : Nat) {d : Nat} (hd : 0 < d) :
    2 * (halfEven n d * d) ≤ 2 * n + d ∧ 2 * n ≤ 2 * (halfEven n d * d) + d := by
  have hn := Nat.div_add_mod n d
  have hr := Nat.mod_lt n hd
  have hup : (n / d + 1) * d = d * (n / d) + d := by ring
  have hdown : n / d * d = d * (n / d) := Nat.mul_comm ..
  simp only [halfEven]
  split <;> omega

namespace Decimal

/-! ### Making digits fit -/

theorem div_mul_pow_sub (n : ℚ) {dropped places : Nat} (h : dropped ≤ places) :
    n / 10 ^ places * 10 ^ (places - dropped) = n / 10 ^ dropped := by
  rw [show (10 : ℚ) ^ places = 10 ^ (places - dropped) * 10 ^ dropped by
    rw [← pow_add, Nat.sub_add_cancel h]]
  field_simp

/-- The rounded quotient in units of the place that is left. -/
theorem halfEven_near (n : Nat) {dropped places : Nat} (h : dropped ≤ places) :
    (halfEven n (10 ^ dropped) : ℚ) ≤ n / 10 ^ places * 10 ^ (places - dropped) + 1 / 2 ∧
      (n / 10 ^ places * 10 ^ (places - dropped) : ℚ) ≤ halfEven n (10 ^ dropped) + 1 / 2 := by
  have hpos : (0 : ℚ) < 10 ^ dropped := by positivity
  obtain ⟨hup, hdown⟩ := two_mul_halfEven_le n (Nat.pow_pos (n := dropped) (by decide : 0 < 10))
  have hup' : 2 * ((halfEven n (10 ^ dropped) : ℚ) * 10 ^ dropped) ≤ 2 * n + 10 ^ dropped := by
    exact_mod_cast hup
  have hdown' : (2 * n : ℚ) ≤ 2 * ((halfEven n (10 ^ dropped) : ℚ) * 10 ^ dropped) +
      10 ^ dropped := by
    exact_mod_cast hdown
  rw [div_mul_pow_sub _ h]
  constructor
  · rw [← sub_le_iff_le_add, le_div_iff₀ hpos]
    linarith
  · rw [div_le_iff₀ hpos]
    linarith

/-- The number of places dropped is the least that will do. -/
theorem find?_dropped_eq_some {n places dropped : Nat}
    (h : (List.range (places + 1)).find? (fun t => decide (n / 10 ^ t < limit)) = some dropped) :
    dropped ≤ places ∧ n / 10 ^ dropped < limit ∧
      (0 < dropped → (2 ^ 96 : ℚ) ≤ n / 10 ^ places * 10 ^ (places - dropped + 1)) := by
  obtain ⟨hlt, hmem, hbefore⟩ := List.find?_range_eq_some.1 h
  have hle : dropped ≤ places := Nat.lt_succ_iff.1 (List.mem_range.1 hmem)
  refine ⟨hle, of_decide_eq_true hlt, fun hpos => ?_⟩
  have hmany : limit ≤ n / 10 ^ (dropped - 1) := by
    simpa using hbefore (dropped - 1) (by omega)
  rw [Nat.le_div_iff_mul_le (Nat.pow_pos (by decide))] at hmany
  rw [show places - dropped + 1 = places - (dropped - 1) by omega,
    div_mul_pow_sub _ (by omega), le_div_iff₀ (by positivity)]
  exact_mod_cast hmany

/-- A coefficient that just does not fit after rounding. -/
theorem halfEven_eq_limit {n dropped : Nat} (hlt : n / 10 ^ dropped < limit)
    (hover : limit ≤ halfEven n (10 ^ dropped)) : halfEven n (10 ^ dropped) = limit := by
  rw [Nat.div_lt_iff_lt_mul (Nat.pow_pos (by decide))] at hlt
  obtain ⟨hup, -⟩ := two_mul_halfEven_le n (Nat.pow_pos (n := dropped) (by decide : 0 < 10))
  have hpos : 0 < 10 ^ dropped := Nat.pow_pos (by decide)
  have : 2 * halfEven n (10 ^ dropped) * 10 ^ dropped < (2 * limit + 1) * 10 ^ dropped := by
    rw [Nat.mul_assoc, Nat.add_mul, Nat.mul_assoc, Nat.one_mul]
    omega
  have := Nat.lt_of_mul_lt_mul_right this
  omega

/-- Digits are made to fit by rounding, and if they cannot be, no decimal is as large. -/
theorem fit?_cases (n : Nat) {places : Nat} (hplaces : places ≤ 28) (negative : Bool) :
    (∃ d, fit? negative n places = some d ∧ d.scale ≤ places ∧
      Rounds (withSign negative (n / 10 ^ places)) d.toRat) ∨
    (fit? negative n places = none ∧ ∀ d : Decimal, |d.toRat| < n / 10 ^ places) := by
  simp only [fit?, Option.bind_eq_bind]
  cases hfind : (List.range (places + 1)).find? (fun t => decide (n / 10 ^ t < limit)) with
  | none =>
    refine .inr ⟨rfl, fun d => d.abs_toRat_le.trans_lt ?_⟩
    have hmany : limit ≤ n / 10 ^ places := by
      simpa using List.find?_range_eq_none.1 hfind places (Nat.lt_succ_self _)
    rw [Nat.le_div_iff_mul_le (Nat.pow_pos (by decide))] at hmany
    have hmany' : (2 : ℚ) ^ 96 * 10 ^ places ≤ n := by exact_mod_cast hmany
    rw [lt_div_iff₀ (by positivity)]
    exact lt_of_lt_of_le (mul_lt_mul_of_pos_right (by norm_num) (by positivity)) hmany'
  | some dropped =>
    obtain ⟨hle, hlt, hfew⟩ := find?_dropped_eq_some hfind
    obtain ⟨hup, hdown⟩ := halfEven_near n hle
    simp only [Option.bind_some]
    split
    · next hfits =>
      obtain ⟨d, hd, hscale, hvalue⟩ := ofParts?_of_lt negative hfits
        (show places - dropped ≤ 28 by omega)
      refine .inl ⟨d, hd, by omega, hvalue ▸ Rounds.withSign ?_ negative⟩
      rcases Nat.eq_zero_or_pos dropped with rfl | hpos
      · have hsame : halfEven n (10 ^ 0) = n := by
          rw [halfEven, Nat.pow_zero, Nat.div_one, Nat.mod_one]
          rfl
        rw [hsame]
        exact rounds_self _
      · have hmany := hfew hpos
        rw [pow_succ (10 : ℚ)] at hmany
        have hdigits : 2 ^ 96 ≤ 10 * halfEven n (10 ^ dropped) + 5 := by
          have : (2 ^ 96 : ℚ) ≤ 10 * halfEven n (10 ^ dropped) + 5 := by linarith
          exact_mod_cast this
        refine rounds_of_near (by linarith) (by linarith) (.inr ⟨?_, by omega⟩)
        rw [pow_succ (10 : ℚ)]
        linarith
    · next hover =>
      -- the carry costs another place
      have hlimit := halfEven_eq_limit hlt (Nat.le_of_not_lt hover)
      have hcast : ((limit : Nat) : ℚ) = 2 ^ 96 := by norm_num [limit]
      rw [hlimit, hcast] at hup hdown
      rw [hlimit]
      split
      · next hall =>
        subst hall
        rw [Nat.sub_self, pow_zero, mul_one] at hup
        exact .inr ⟨rfl, fun d => d.abs_toRat_le.trans_lt (by linarith)⟩
      · next hmore =>
        have hnext : halfEven limit 10 = 7922816251426433759354395034 := by decide
        rw [hnext]
        have hfits : 7922816251426433759354395034 < 2 ^ 96 := by decide
        obtain ⟨d, hd, hscale, hvalue⟩ := ofParts?_of_lt negative hfits
          (show places - dropped - 1 ≤ 28 by omega)
        refine .inl ⟨d, hd, by omega, hvalue ▸ Rounds.withSign ?_ negative⟩
        have hplace : places - dropped = places - dropped - 1 + 1 := by omega
        rw [hplace, pow_succ (10 : ℚ)] at hup hdown
        refine rounds_of_near ?_ ?_ (.inr ⟨?_, by decide⟩)
        · push_cast
          linarith
        · push_cast
          linarith
        · rw [pow_succ (10 : ℚ)]
          linarith

/-! ### Sums -/

/-- A sum is the true one as far as decimals go, and has no more places than its operands. -/
theorem add?_cases (a b : Decimal) :
    (∃ d, a.add? b = some d ∧ d.scale ≤ max a.scale b.scale ∧
      Rounds (a.toRat + b.toRat) d.toRat) ∨
    (a.add? b = none ∧ ∀ d : Decimal, |d.toRat| < |a.toRat + b.toRat|) := by
  by_cases ha : a.IsZero
  · refine .inl ⟨b, if_pos ha, Nat.le_max_right .., ?_⟩
    rw [toRat_of_isZero ha, zero_add]
    exact rounds_self _
  by_cases hb : b.IsZero
  · refine .inl ⟨a, by rw [add?, if_neg ha, if_pos hb], Nat.le_max_left .., ?_⟩
    rw [toRat_of_isZero hb, add_zero]
    exact rounds_self _
  have hplaces : max a.scale b.scale ≤ 28 := Nat.max_le.2 ⟨a.scale_le, b.scale_le⟩
  have hleft := a.toRat_eq_unitsAt (Nat.le_max_left a.scale b.scale)
  have hright := b.toRat_eq_unitsAt (Nat.le_max_right a.scale b.scale)
  rw [hleft, hright, ← add_div, ← Int.cast_add, add?, if_neg ha, if_neg hb]
  dsimp only
  generalize max a.scale b.scale = places at hplaces
  generalize a.unitsAt places + b.unitsAt places = sum
  rw [← withSign_natAbs, abs_withSign _ (by positivity)]
  exact fit?_cases sum.natAbs hplaces (sum < 0)

end Decimal

end SpendingLedger
