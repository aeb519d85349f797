import SpendingLedger.Proofs.Decimal.Normal

/-!
Which decimals are amounts. A decimal goes by the number it stands for: it is an amount if that is
positive, in whole hundredths and at most the maximum, and all decimals of one number give the same
amount. Of several reasons to refuse a decimal the first in the order of the checks is named.
-/

namespace SpendingLedger

open Decimal (HasPlaces)

namespace Amount

theorem toRat_maximum : maximum.toRat = 9999999999.99 := by
  simp only [Decimal.toRat, maximum, Decimal.signed, maxHundredths]
  norm_num

theorem toRat_toDecimal (a : Amount) : a.toDecimal.toRat = a.toRat := by
  rw [a.toDecimal_eq, Decimal.toRat_ofHundredths, toRat]

theorem toRat_pos (a : Amount) : 0 < a.toRat := by
  have := a.pos
  rw [toRat]
  positivity

theorem toRat_le (a : Amount) : a.toRat ≤ 9999999999.99 := by
  have hle : (a.hundredths : ℚ) ≤ 999999999999 := by exact_mod_cast a.le_max
  rw [toRat]
  norm_num
  linarith

theorem hasPlaces_toRat (a : Amount) : HasPlaces a.toRat 2 := by
  rw [← toRat_toDecimal]
  exact a.toDecimal.hasPlaces_toRat (Nat.le_refl 2)

theorem toRat_inj {a a' : Amount} (h : a.toRat = a'.toRat) : a = a' := by
  have hundredths : a.hundredths = a'.hundredths := by
    rw [toRat, toRat, div_left_inj' (by norm_num)] at h
    exact_mod_cast h
  cases a
  cases a'
  cases hundredths
  rfl

/-- The text of an amount is that of its decimal. -/
theorem toText_eq (a : Amount) : a.toText = a.toDecimal.toText := by
  have hlength : a.toDecimal.placesText.length = 2 := a.toDecimal.length_placesText
  rw [toText, Decimal.toFixed, Decimal.toText, List.take_of_length_le (Nat.le_of_eq hlength)]
  show Decimal.assemble _ _ (_ ++ []) = _
  rw [List.append_nil]

/-! ### The checks -/

/-- An amount is the decimal without its trailing zeros and then with two places. It is checked to
be positive, to have no more places, and to be at most the maximum, in this order. -/
theorem map_toDecimal_ofDecimal (d : Decimal) :
    (ofDecimal d).map toDecimal =
      if d ≤ .zero then .error (.notPositive d)
      else if 2 < d.normalize.scale then .error (.tooManyPlaces d.normalize.scale)
      else if maximum < d.normalize then .error (.tooLarge d)
      else .ok (d.normalize.rescale 2) := by
  simp only [ofDecimal, Decimal.le_zero_iff]
  split
  · rfl
  next hsign =>
  obtain ⟨hpositive, hzero⟩ := not_or.1 hsign
  have hnegative : d.normalize.negative = false :=
    (Decimal.negative_normalize hzero).trans (eq_false_of_ne_true hpositive)
  have hnonzero : ¬ d.normalize.IsZero := by
    rw [Decimal.normalize, if_neg hzero]
    exact (strip_pos _ (Nat.pos_of_ne_zero hzero)).ne'
  split
  · rfl
  next hplaces =>
  have hlt : maximum < d.normalize ↔
      999999999999 < d.normalize.coefficient * 10 ^ (2 - d.normalize.scale) := by
    rw [Decimal.lt_iff_toRat_lt, toRat_maximum,
      Decimal.toRat_of_not_negative hnegative (Nat.le_of_not_lt hplaces), lt_div_iff₀ (by norm_num)]
    norm_num
    exact_mod_cast Iff.rfl
  simp only [hlt]
  split
  · next hle =>
    rw [if_neg (Nat.not_lt.2 hle), Decimal.rescale_eq hnonzero (Nat.le_of_not_lt hplaces)
      (Nat.lt_of_le_of_lt hle (by decide))]
    simp [Except.map, toDecimal, hnegative]
  · next hle =>
    rw [if_pos (Nat.lt_of_not_le hle)]
    rfl

theorem toRat_of_ofDecimal_eq_ok {d : Decimal} {a : Amount} (h : ofDecimal d = .ok a) :
    a.toRat = d.toRat := by
  rw [ofDecimal] at h
  split at h
  · contradiction
  next hsign =>
  split at h
  · contradiction
  next hplaces =>
  split at h
  · obtain rfl := Except.ok.inj h
    obtain ⟨hpositive, hzero⟩ := not_or.1 hsign
    have hnegative : d.normalize.negative = false :=
      (Decimal.negative_normalize hzero).trans (eq_false_of_ne_true hpositive)
    rw [← d.toRat_normalize,
      Decimal.toRat_of_not_negative hnegative (Nat.le_of_not_lt hplaces), toRat]
    norm_num
  · contradiction

/-- An amount comes from the decimals of its number, and from no others. -/
theorem ofDecimal_eq_ok_iff {d : Decimal} {a : Amount} :
    ofDecimal d = .ok a ↔ a.toRat = d.toRat := by
  refine ⟨toRat_of_ofDecimal_eq_ok, fun h => ?_⟩
  have hpos := a.toRat_pos
  have hle := a.toRat_le
  have hplaces : HasPlaces d.toRat 2 := h ▸ a.hasPlaces_toRat
  have hsteps := map_toDecimal_ofDecimal d
  rw [if_neg, if_neg, if_neg] at hsteps
  · cases hok : ofDecimal d with
    | error e => exact nomatch hok ▸ hsteps
    | ok a' => rw [toRat_inj ((toRat_of_ofDecimal_eq_ok hok).trans h.symm)]
  · rw [Decimal.lt_iff_toRat_lt, toRat_maximum, d.toRat_normalize, ← h]
    exact not_lt.2 hle
  · exact Nat.not_lt.2 ((d.hasPlaces_iff 2).1 hplaces)
  · rw [Decimal.le_iff_toRat_le, Decimal.toRat_zero, ← h]
    exact not_le.2 hpos

/-- Why a decimal is refused. -/
theorem ofDecimal_eq_error_iff {d : Decimal} {e : Refusal} :
    ofDecimal d = .error e ↔
      (e = .notPositive d ∧ d.toRat ≤ 0) ∨
      (e = .tooManyPlaces d.normalize.scale ∧ 0 < d.toRat ∧ ¬ HasPlaces d.toRat 2) ∨
      (e = .tooLarge d ∧ 0 < d.toRat ∧ HasPlaces d.toRat 2 ∧ 9999999999.99 < d.toRat) := by
  have hsteps := map_toDecimal_ofDecimal d
  have hscale : 2 < d.normalize.scale ↔ ¬ HasPlaces d.toRat 2 := by
    rw [d.hasPlaces_iff, Nat.not_le]
  simp only [Decimal.le_iff_toRat_le, Decimal.lt_iff_toRat_lt, Decimal.toRat_zero, toRat_maximum,
    d.toRat_normalize] at hsteps
  have hmap : ofDecimal d = .error e ↔ (ofDecimal d).map toDecimal = .error e := by
    cases ofDecimal d <;> simp [Except.map]
  rw [hmap, hsteps]
  by_cases hpos : d.toRat ≤ 0
  · simp [hpos, not_lt.2 hpos, eq_comm]
  have hpos' : 0 < d.toRat := lt_of_not_ge hpos
  by_cases hplaces : 2 < d.normalize.scale
  · simp [hpos, hpos', hplaces, hscale.1 hplaces, eq_comm]
  have hplaces' : HasPlaces d.toRat 2 := not_not.1 (mt hscale.2 hplaces)
  by_cases hlarge : 9999999999.99 < d.toRat
  · simp [hpos, hpos', hplaces, hplaces', hlarge, eq_comm]
  · simp [hpos, hplaces, hplaces', hlarge]

/-- A decimal is an amount exactly if its number is positive, at most the maximum and in whole
hundredths. The amount has the same number and two places, so it is the same for all decimals of
that number, and it is an amount again. Any other decimal is refused as not positive if it is not,
else for its places if it needs more than two, with the fewest it needs, and else as too large. -/
theorem ofDecimal_canonical (d : Decimal) :
    ((∃ a, ofDecimal d = .ok a) ↔
      0 < d.toRat ∧ d.toRat ≤ 9999999999.99 ∧ ∃ n : ℤ, 100 * d.toRat = n) ∧
    (∀ a, ofDecimal d = .ok a →
      a.toDecimal.toRat = d.toRat ∧ a.toDecimal.scale = 2 ∧ a.toText = a.toDecimal.toText ∧
        ofDecimal a.toDecimal = .ok a ∧ ∀ d', d'.toRat = d.toRat → ofDecimal d' = .ok a) ∧
    ∀ e, ofDecimal d = .error e ↔
      (e = .notPositive d ∧ d.toRat ≤ 0) ∨
      (∃ k, e = .tooManyPlaces k ∧ 0 < d.toRat ∧ 2 < k ∧ IsLeast {k | HasPlaces d.toRat k} k) ∨
      (e = .tooLarge d ∧ 0 < d.toRat ∧ (∃ n : ℤ, 100 * d.toRat = n) ∧
        9999999999.99 < d.toRat) := by
  have hwhole : (∃ n : ℤ, 100 * d.toRat = n) ↔ HasPlaces d.toRat 2 := by
    rw [HasPlaces]
    norm_num
  rw [hwhole]
  refine ⟨⟨?_, fun ⟨hpos, hle, hplaces⟩ => ?_⟩, fun a h => ?_, fun e => ?_⟩
  · rintro ⟨a, h⟩
    rw [← ofDecimal_eq_ok_iff.1 h]
    exact ⟨a.toRat_pos, a.toRat_le, a.hasPlaces_toRat⟩
  · cases h : ofDecimal d with
    | ok a => exact ⟨a, rfl⟩
    | error e =>
      rcases ofDecimal_eq_error_iff.1 h with ⟨-, hneg⟩ | ⟨-, -, hnot⟩ | ⟨-, -, -, hlarge⟩
      · exact absurd hneg (not_le.2 hpos)
      · exact absurd hplaces hnot
      · exact absurd hle (not_le.2 hlarge)
  · have hvalue := ofDecimal_eq_ok_iff.1 h
    refine ⟨a.toRat_toDecimal.trans hvalue, rfl, toText_eq a, ofDecimal_toDecimal a,
      fun d' hd' => ?_⟩
    exact ofDecimal_eq_ok_iff.2 (hvalue.trans hd'.symm)
  · have hfewest (k : Nat) : (2 < k ∧ IsLeast {k | HasPlaces d.toRat k} k) ↔
        k = d.normalize.scale ∧ ¬ HasPlaces d.toRat 2 := by
      have hleast := d.isLeast_scale_normalize
      rw [d.hasPlaces_iff, Nat.not_le]
      constructor
      · rintro ⟨hk, hkleast⟩
        obtain rfl := hkleast.unique hleast
        exact ⟨rfl, hk⟩
      · rintro ⟨rfl, hk⟩
        exact ⟨hk, hleast⟩
    rw [ofDecimal_eq_error_iff]
    refine or_congr_right (or_congr_left ?_)
    constructor
    · rintro ⟨rfl, hpos, hnot⟩
      exact ⟨_, rfl, hpos, (hfewest _).2 ⟨rfl, hnot⟩⟩
    · rintro ⟨k, rfl, hpos, hk⟩
      obtain ⟨rfl, hnot⟩ := (hfewest k).1 hk
      exact ⟨rfl, hpos, hnot⟩

/-- 12.500 and 12.5 are the same amount. -/
theorem ofDecimal_canonical_padded :
    let padded : Decimal := ⟨false, 12500, 3, by decide, by decide⟩
    let short : Decimal := ⟨false, 125, 1, by decide, by decide⟩
    let a : Amount := ⟨1250, by decide, by decide⟩
    ofDecimal padded = .ok a ∧ short.toRat = padded.toRat ∧ ofDecimal short = .ok a := by
  intro padded short a
  have hok : ofDecimal padded = .ok a := by decide
  have hvalue : short.toRat = padded.toRat := by
    simp only [Decimal.toRat, Decimal.signed, short, padded]
    norm_num
  exact ⟨hok, hvalue, ((ofDecimal_canonical padded).2.1 a hok).2.2.2.2 short hvalue⟩

end Amount

end SpendingLedger
