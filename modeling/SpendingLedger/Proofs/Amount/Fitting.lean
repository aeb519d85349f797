import SpendingLedger.Proofs.Amount.Canonical
import SpendingLedger.Proofs.Decimal.Sum

/-!
The test of an amount against a cap. What truly fits on top of a total is never refused. What does
not fit may pass where the true sum is no decimal and is rounded down to the cap, but then no
decimal lies between the cap and the true sum; a true sum that is a decimal passes only if it fits.
-/

namespace SpendingLedger.Amount

variable {a : Amount} {total cap : Decimal}

/-- A refusal means that the true sum is over the cap, also where there is no sum. -/
theorem lt_of_addWithin?_eq_none (h : a.addWithin? total cap = none) :
    cap.toRat < total.toRat + a.toRat := by
  have hpos := a.toRat_pos
  rw [addWithin?] at h
  rcases total.add?_cases a.toDecimal with ⟨sum, hsum, -, hrounds⟩ | ⟨-, hlarge⟩
  · rw [hsum] at h
    rw [toRat_toDecimal] at hrounds
    by_contra hle
    have hwithin : sum ≤ cap :=
      (Decimal.le_iff_toRat_le ..).2 (hrounds.ge_of_ge cap (not_lt.1 hle))
    simp [hwithin] at h
  · rw [toRat_toDecimal] at hlarge
    by_contra hle
    have hle := not_lt.1 hle
    rcases le_or_gt 0 (total.toRat + a.toRat) with hnonneg | hneg
    · have := hlarge cap
      rw [abs_of_nonneg hnonneg] at this
      exact absurd (le_abs_self cap.toRat) (by linarith)
    · -- a sum below zero is closer to zero than the total
      have := hlarge total
      rw [abs_of_neg hneg] at this
      exact absurd (neg_le_abs total.toRat) (by linarith)

/-- The new total is the true sum as far as decimals go, and within the cap. -/
theorem of_addWithin?_eq_some {sum : Decimal} (h : a.addWithin? total cap = some sum) :
    Decimal.Rounds (total.toRat + a.toRat) sum.toRat ∧ sum.toRat ≤ cap.toRat ∧
      sum.scale ≤ max total.scale 2 := by
  rw [addWithin?] at h
  rcases total.add?_cases a.toDecimal with ⟨sum', hsum, hscale, hrounds⟩ | ⟨hnone, -⟩
  · rw [hsum] at h
    rw [toRat_toDecimal] at hrounds
    dsimp only at h
    split at h
    · next hle =>
      obtain rfl := Option.some.inj h
      exact ⟨hrounds, (Decimal.le_iff_toRat_le ..).1 hle, hscale⟩
    · contradiction
  · rw [hnone] at h
    contradiction

/-- What fits on top of a total passes the test. What passes it is over the cap by so little that no
decimal up to the true sum is over the cap. So for a true sum that is a decimal the test is exact.
-/
theorem fitsUnder_up_to_decimals (a : Amount) (total cap : Decimal) :
    (total.toRat + a.toRat ≤ cap.toRat → a.FitsUnder total cap) ∧
    (a.FitsUnder total cap →
      ∀ d : Decimal, d.toRat ≤ total.toRat + a.toRat → d.toRat ≤ cap.toRat) ∧
    ((∃ d : Decimal, d.toRat = total.toRat + a.toRat) →
      (a.FitsUnder total cap ↔ total.toRat + a.toRat ≤ cap.toRat)) := by
  have hfits : total.toRat + a.toRat ≤ cap.toRat → a.FitsUnder total cap := by
    intro hle
    by_contra hnot
    have hnone : a.addWithin? total cap = none := by simpa [FitsUnder] using hnot
    exact absurd hle (not_le.2 (lt_of_addWithin?_eq_none hnone))
  have hpasses : a.FitsUnder total cap →
      ∀ d : Decimal, d.toRat ≤ total.toRat + a.toRat → d.toRat ≤ cap.toRat := by
    intro hpass d hd
    obtain ⟨sum, hsum⟩ := Option.isSome_iff_exists.1 hpass
    obtain ⟨hrounds, hle, -⟩ := of_addWithin?_eq_some hsum
    exact (hrounds.le_of_le d hd).trans hle
  refine ⟨hfits, hpasses, fun ⟨d, hd⟩ => ⟨fun hpass => ?_, hfits⟩⟩
  exact hd ▸ hpasses hpass d (le_of_eq hd)

/-- 0.5 on top of the greatest whole number below the largest decimal: no sum has that place, and it
passes under the largest decimal. -/
theorem fitsUnder_up_to_decimals_no_place :
    let top : Decimal := ⟨false, 2 ^ 96 - 1, 0, by decide, by decide⟩
    let total : Decimal := ⟨false, 2 ^ 96 - 2, 0, by decide, by decide⟩
    let a : Amount := ⟨50, by decide, by decide⟩
    total.toRat + a.toRat ≤ top.toRat ∧ a.FitsUnder total top := by
  intro top total a
  have hle : total.toRat + a.toRat ≤ top.toRat := by
    simp only [Decimal.toRat, Decimal.signed, toRat, top, total, a]
    norm_num
  exact ⟨hle, (fitsUnder_up_to_decimals a total top).1 hle⟩

/-- 0.01 passes on top of the largest decimal under a cap of the largest decimal: the sum is rounded
down to it. -/
theorem fitsUnder_over_cap :
    let top : Decimal := ⟨false, 2 ^ 96 - 1, 0, by decide, by decide⟩
    let a : Amount := ⟨1, by decide, by decide⟩
    a.FitsUnder top top ∧ top.toRat < top.toRat + a.toRat := by
  intro top a
  exact ⟨by decide, lt_add_of_pos_right _ a.toRat_pos⟩

end SpendingLedger.Amount
