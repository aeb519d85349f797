import SpendingLedger.Proofs.Decimal.Literal
import Mathlib.Algebra.Order.Floor.Semifield
import Mathlib.Data.Rat.Floor

/-!
What the texts of a decimal denote. The text with all its places denotes the decimal. The text with
a given number of places denotes what is left when the further ones are cut off; rescaled to that
many places before, it denotes the nearest number of so many places, the one away from zero for a
half. The two agree if less than half a unit of the last place is cut off.
-/

namespace SpendingLedger.Decimal

open Text (AllDigits value)

/-! ### Texts and numbers -/

/-- A text denotes a number: it is a literal that stands for it. -/
def Denotes (s : String) (q : ℚ) : Prop := ∃ l : Literal, l.text = s ∧ l.toRat = q

/-- The digits of a literal up to its point, and those behind it. -/
theorem Literal.parts_unique {w w' p p' : List Char} (hw : AllDigits w) (hw' : AllDigits w')
    (h : w ++ (if p.isEmpty then [] else '.' :: p) = w' ++ (if p'.isEmpty then [] else '.' :: p')) :
    w = w' ∧ p = p' := by
  have htail (p : List Char) :
      ∀ c ∈ (if p.isEmpty then [] else '.' :: p).head?, c.isDigit = false := by
    intro c hc
    split at hc
    · contradiction
    · obtain rfl := Option.some.inj hc
      rfl
  obtain ⟨htake, hdrop⟩ := Text.takeWhile_allDigits hw _ (htail p)
  obtain ⟨htake', hdrop'⟩ := Text.takeWhile_allDigits hw' _ (htail p')
  rw [h] at htake hdrop
  refine ⟨htake.symm.trans htake', ?_⟩
  have hplaces := hdrop.symm.trans hdrop'
  cases p <;> cases p' <;> simp_all

theorem Literal.text_injective : Function.Injective Literal.text := by
  intro l l' h
  have hchars := String.ofList_injective h
  obtain ⟨negative, whole, places, hwhole, hne, hplaces⟩ := l
  obtain ⟨negative', whole', places', hwhole', hne', hplaces'⟩ := l'
  obtain ⟨c, rest, rfl⟩ := List.exists_cons_of_ne_nil hne
  obtain ⟨c', rest', rfl⟩ := List.exists_cons_of_ne_nil hne'
  have hc : c ≠ '-' := by
    rintro rfl
    exact nomatch hwhole '-' List.mem_cons_self
  have hc' : c' ≠ '-' := by
    rintro rfl
    exact nomatch hwhole' '-' List.mem_cons_self
  dsimp only at hchars
  rw [List.append_assoc, List.append_assoc] at hchars
  have hsign : negative = negative' := by
    cases negative <;> cases negative'
    · rfl
    · exact absurd (List.cons.inj hchars).1 hc
    · exact absurd (List.cons.inj hchars).1.symm hc'
    · rfl
  subst hsign
  obtain ⟨hw, hp⟩ := parts_unique hwhole hwhole' (List.append_cancel_left hchars)
  simp only [hw, hp]

/-- A text denotes one number only. -/
theorem Denotes.unique {s : String} {q r : ℚ} (hq : Denotes s q) (hr : Denotes s r) : q = r := by
  obtain ⟨l, hl, rfl⟩ := hq
  obtain ⟨l', hl', rfl⟩ := hr
  rw [Literal.text_injective (hl.trans hl'.symm)]

theorem value_wholeText_placesText (d : Decimal) :
    value (d.wholeText ++ d.placesText) = d.coefficient := by
  rw [value, Nat.ofDigitChars_append]
  exact (congrArg _ (Text.value_digits _)).trans d.ofDigitChars_placesText

/-- The text of a decimal denotes it. -/
theorem denotes_toText (d : Decimal) : Denotes d.toText d.toRat := by
  refine ⟨⟨d.negative, d.wholeText, d.placesText, d.allDigits_wholeText, d.wholeText_ne_nil,
    d.allDigits_placesText⟩, rfl, ?_⟩
  rw [Literal.toRat, Literal.magnitude, value_wholeText_placesText, d.length_placesText,
    ← toRat_eq_withSign]

/-! ### Fewer places -/

/-- The number without what is behind its `k`-th place. -/
def cutTo (q : ℚ) (k : Nat) : ℚ := withSign (q < 0) (⌊|q| * 10 ^ k⌋₊ / 10 ^ k)

/-- The nearest number of `k` places, the one away from zero for a half. -/
def roundTo (q : ℚ) (k : Nat) : ℚ := withSign (q < 0) (⌊|q| * 10 ^ k + 1 / 2⌋₊ / 10 ^ k)

variable {q r : ℚ} {k : Nat}

theorem withSign_abs (q : ℚ) : withSign (q < 0) |q| = q := by
  rw [withSign]
  by_cases h : q < 0
  · rw [if_pos (decide_eq_true h), abs_of_neg h, neg_neg]
  · rw [if_neg (by simpa using h), abs_of_nonneg (not_lt.1 h)]

/-- Under the sign of a number, a magnitude is as far from the number as the magnitudes are apart.
-/
theorem abs_sub_withSign (q x : ℚ) : |q - withSign (q < 0) x| = |(|q| - x)| := by
  rcases lt_or_ge q 0 with h | h
  · rw [withSign, if_pos (decide_eq_true h), abs_of_neg h, ← abs_neg]
    congr 1
    ring
  · rw [withSign, if_neg (by simpa using h), abs_of_nonneg h]

theorem withSign_injective (negative : Bool) : Function.Injective (withSign negative) := by
  cases negative
  · exact fun _ _ h => h
  · exact fun _ _ h => neg_injective h

/-- Of a number with so few places nothing is cut off, and it is not rounded. -/
theorem eq_of_hasPlaces (h : HasPlaces q k) : cutTo q k = q ∧ roundTo q k = q := by
  obtain ⟨n, hn⟩ := h
  have hpos : (0 : ℚ) < 10 ^ k := by positivity
  have hunits : |q| * 10 ^ k = (n.natAbs : ℚ) := by
    rw [← abs_of_pos hpos, ← abs_mul, mul_comm, hn, ← Int.cast_abs, Int.abs_eq_natAbs,
      Int.cast_natCast]
  have hround : ⌊(n.natAbs : ℚ) + 1 / 2⌋₊ = n.natAbs := by
    rw [Nat.floor_eq_iff (by positivity)]
    constructor <;> norm_num
  constructor
  · rw [cutTo, hunits, Nat.floor_natCast, ← hunits, mul_div_cancel_right₀ _ hpos.ne', withSign_abs]
  · rw [roundTo, hunits, hround, ← hunits, mul_div_cancel_right₀ _ hpos.ne', withSign_abs]

/-- Cutting off is rounding if less than half a unit of the last place is cut off. -/
theorem cutTo_eq_roundTo_iff : cutTo q k = roundTo q k ↔ |q - cutTo q k| < 1 / 2 / 10 ^ k := by
  have hpos : (0 : ℚ) < 10 ^ k := by positivity
  have hnonneg : 0 ≤ |q| * 10 ^ k := by positivity
  have hfloor := Nat.floor_le hnonneg
  have hcut : 0 ≤ |q| - ⌊|q| * 10 ^ k⌋₊ / 10 ^ k := by
    rw [sub_nonneg, div_le_iff₀ hpos]
    exact hfloor
  rw [cutTo, roundTo, abs_sub_withSign, abs_of_nonneg hcut, (withSign_injective _).eq_iff,
    div_left_inj' hpos.ne', Nat.cast_inj, eq_comm, Nat.floor_eq_iff (by positivity),
    lt_div_iff₀ hpos, sub_mul, div_mul_cancel₀ _ hpos.ne']
  constructor
  · rintro ⟨-, hlt⟩
    linarith
  · intro hlt
    exact ⟨by linarith, by linarith⟩

/-- What is positive and greater than a number stays greater when places of the number are cut off.
-/
theorem cutTo_lt (h : q < r) (hr : 0 < r) : cutTo q k < r := by
  have hpos : (0 : ℚ) < 10 ^ k := by positivity
  have hnonneg : (0 : ℚ) ≤ ⌊|q| * 10 ^ k⌋₊ / 10 ^ k := by positivity
  rw [cutTo, withSign]
  split
  · linarith
  · next hsign =>
    have hq : 0 ≤ q := not_lt.1 (by simpa using hsign)
    refine lt_of_le_of_lt ?_ h
    rw [abs_of_nonneg hq, div_le_iff₀ hpos]
    exact Nat.floor_le (by positivity)

/-- A number is not rounded past a greater one of so few places that is positive. -/
theorem roundTo_le (h : q < r) (hr : 0 < r) (hplaces : HasPlaces r k) : roundTo q k ≤ r := by
  have hpos : (0 : ℚ) < 10 ^ k := by positivity
  have hnonneg : (0 : ℚ) ≤ ⌊|q| * 10 ^ k + 1 / 2⌋₊ / 10 ^ k := by positivity
  rw [roundTo, withSign]
  split
  · linarith
  · next hsign =>
    have hq : 0 ≤ q := not_lt.1 (by simpa using hsign)
    obtain ⟨n, hn⟩ := hplaces
    have hunits : q * 10 ^ k < n := by
      rw [← hn, mul_comm]
      exact mul_lt_mul_of_pos_left h hpos
    have hn₀ : 0 ≤ n := by
      have : (0 : ℚ) ≤ n := by rw [← hn]; positivity
      exact_mod_cast this
    obtain ⟨m, rfl⟩ := Int.eq_ofNat_of_zero_le hn₀
    rw [Int.cast_natCast] at hn hunits
    have hfloor : ⌊q * 10 ^ k + 1 / 2⌋₊ ≤ m := by
      rw [← Nat.lt_succ_iff, Nat.floor_lt (by positivity)]
      push_cast
      linarith
    rw [abs_of_nonneg hq, div_le_iff₀ hpos, mul_comm r, hn]
    exact_mod_cast hfloor

/-! ### Texts with fewer places -/

/-- The sign of a decimal is that of its number, but for a zero. -/
theorem withSign_negative (d : Decimal) {x : ℚ} (h : d.toRat = 0 → x = 0) :
    withSign d.negative x = withSign (d.toRat < 0) x := by
  by_cases hzero : d.toRat = 0
  · rw [h hzero]
    simp [withSign]
  · have hpos : 0 < (d.coefficient : ℚ) / 10 ^ d.scale := by
      rw [← abs_toRat]
      exact abs_pos.2 hzero
    congr 1
    rw [toRat_eq_withSign, withSign]
    cases d.negative
    · simpa using hpos.le
    · simpa using hpos

/-- The first digits of a row of digits. -/
theorem value_take {cs : List Char} (h : AllDigits cs) (n : Nat) :
    value (cs.take n) = value cs / 10 ^ (cs.length - n) := by
  have hdrop : value (cs.drop n) < 10 ^ (cs.length - n) := by
    rw [← List.length_drop]
    exact Text.value_lt fun c hc => h c (List.mem_of_mem_drop hc)
  have hvalue : value cs = 10 ^ (cs.length - n) * value (cs.take n) + value (cs.drop n) := by
    conv_lhs => rw [← List.take_append_drop n cs]
    rw [value, Nat.ofDigitChars_append, Nat.ofDigitChars_eq_ofDigitChars_zero, List.length_drop]
    rfl
  rw [hvalue, Nat.mul_add_div (Nat.pow_pos (by decide)), Nat.div_eq_of_lt hdrop, Nat.add_zero]

/-- The digits of a decimal up to the `k`-th place, zeros where it has none. -/
theorem value_toFixed (d : Decimal) (k : Nat) :
    value (d.wholeText ++ (d.placesText.take k ++ List.replicate (k - d.scale) '0')) =
      d.coefficient * 10 ^ k / 10 ^ d.scale := by
  have hdigits : AllDigits (d.wholeText ++ d.placesText) := fun c hc =>
    (List.mem_append.1 hc).elim (d.allDigits_wholeText c) (d.allDigits_placesText c)
  have htake := value_take hdigits (d.wholeText.length + k)
  rw [List.take_length_add_append, List.length_append, Nat.add_sub_add_left, d.length_placesText,
    value_wholeText_placesText] at htake
  rw [← List.append_assoc, value, Nat.ofDigitChars_append, Nat.ofDigitChars_replicate_zero]
  show 10 ^ (k - d.scale) * value (d.wholeText ++ d.placesText.take k) = _
  rw [htake]
  rcases Nat.le_total k d.scale with hle | hle
  · obtain ⟨j, hj⟩ := Nat.exists_eq_add_of_le hle
    rw [hj, Nat.sub_eq_zero_of_le (Nat.le_add_right ..), Nat.add_sub_cancel_left, Nat.pow_zero,
      Nat.one_mul, Nat.add_comm, Nat.pow_add, Nat.mul_div_mul_right _ _ (Nat.pow_pos (by decide))]
  · obtain ⟨j, rfl⟩ := Nat.exists_eq_add_of_le hle
    rw [Nat.sub_eq_zero_of_le hle, Nat.add_sub_cancel_left, Nat.pow_zero, Nat.div_one, Nat.pow_add,
      Nat.mul_left_comm, Nat.mul_div_cancel_left _ (Nat.pow_pos (by decide)), Nat.mul_comm]

/-- Shown with `k` places, a decimal is cut off. -/
theorem denotes_toFixed (d : Decimal) (k : Nat) : Denotes (d.toFixed k) (cutTo d.toRat k) := by
  refine ⟨⟨d.negative, d.wholeText, _, d.allDigits_wholeText, d.wholeText_ne_nil, ?_⟩, rfl, ?_⟩
  · intro c hc
    rcases List.mem_append.1 hc with hc | hc
    · exact d.allDigits_placesText c (List.mem_of_mem_take hc)
    · rw [List.eq_of_mem_replicate hc]
      rfl
  · have hlength : (d.placesText.take k ++ List.replicate (k - d.scale) '0').length = k := by
      rw [List.length_append, List.length_take, List.length_replicate, d.length_placesText]
      omega
    have hfloor : ⌊|d.toRat| * 10 ^ k⌋₊ = d.coefficient * 10 ^ k / 10 ^ d.scale := by
      rw [abs_toRat, div_mul_eq_mul_div]
      exact_mod_cast Nat.floor_div_eq_div (K := ℚ) (d.coefficient * 10 ^ k) (10 ^ d.scale)
    rw [Literal.toRat, Literal.magnitude, value_toFixed, hlength, ← hfloor, withSign_negative,
      cutTo]
    intro hzero
    simp [hzero]

theorem extend_value (n c s : Nat) :
    ((extend n c s).1 : ℚ) / 10 ^ (extend n c s).2 = c / 10 ^ s := by
  induction n generalizing c s with
  | zero => rfl
  | succ n ih =>
    rw [extend]
    split
    · rw [ih]
      push_cast
      rw [pow_succ]
      field_simp
    · rfl

theorem floor_add_half (c k : Nat) : ⌊(c : ℚ) / 10 ^ (k + 1) + 1 / 2⌋₊ = roundAway c k := by
  have hsum : (c : ℚ) / 10 ^ (k + 1) + 1 / 2 =
      ((c + 5 * 10 ^ k : Nat) : ℚ) / (10 ^ (k + 1) : Nat) := by
    push_cast
    rw [pow_succ]
    field_simp
    ring
  rw [hsum, Nat.floor_div_eq_div, roundAway]

/-- Rescaled to `target` places, a decimal is rounded. -/
theorem toRat_rescale (d : Decimal) (target : Fin 29) :
    (d.rescale target).toRat = roundTo d.toRat target := by
  by_cases hzero : d.IsZero
  · have hvalue := toRat_of_isZero hzero
    have hround : roundTo 0 target = 0 := (eq_of_hasPlaces ⟨0, by simp⟩).2
    rw [hvalue, hround, rescale, if_pos hzero]
    exact toRat_of_isZero rfl
  by_cases hlt : target.val < d.scale
  · obtain ⟨j, hj⟩ := Nat.exists_eq_add_of_lt hlt
    have hhigh : |d.toRat| * 10 ^ target.val = d.coefficient / 10 ^ (j + 1) := by
      rw [abs_toRat, hj, Nat.add_assoc, pow_add]
      field_simp
    have hplaces : d.scale - target - 1 = j := by omega
    rw [roundTo, hhigh, floor_add_half, toRat_eq_withSign, rescale, if_neg hzero, if_pos hlt]
    simp only [hplaces]
    refine d.withSign_negative fun hvalue => ?_
    rw [← abs_eq_zero, abs_toRat, div_eq_zero_iff] at hvalue
    exact absurd (hvalue.resolve_right (by positivity)) (by exact_mod_cast hzero)
  · have hkept := (eq_of_hasPlaces (d.hasPlaces_toRat (Nat.le_of_not_lt hlt))).2
    rw [hkept, toRat_eq_withSign, toRat_eq_withSign, rescale, if_neg hzero, if_neg hlt]
    simp only [extend_value]

end SpendingLedger.Decimal
