import SpendingLedger.Proofs.Decimal.Rounding

/-!
Literals, digits with or without a point and a sign, of any length. A literal is read as a decimal
that it may be rounded to, so one that stands for a decimal is read as that. It is refused only if
it is larger than every decimal.
-/

namespace SpendingLedger.Decimal

open Text (AllDigits value)

/-- A text of digits with at most one point between two of them. -/
structure Literal where
  negative : Bool
  whole : List Char
  places : List Char
  whole_digits : AllDigits whole
  whole_ne_nil : whole ≠ []
  places_digits : AllDigits places

namespace Literal

/-- The characters of a literal; the point appears only before at least one place. -/
def text (l : Literal) : String := assemble l.negative l.whole l.places

/-- The magnitude that the digits stand for. -/
def magnitude (l : Literal) : ℚ := value (l.whole ++ l.places) / 10 ^ l.places.length

/-- The number that a literal stands for. -/
def toRat (l : Literal) : ℚ := withSign l.negative l.magnitude

theorem magnitude_nonneg (l : Literal) : 0 ≤ l.magnitude := by
  rw [magnitude]
  positivity

end Literal

/-! ### Digits that do not fit -/

namespace Scan

/-- What may be made of digits that stand for `x`: a decimal that `x` may be rounded to, or nothing
if no decimal is as large. -/
def Approximates (x : ℚ) : Option (Nat × Nat) → Prop
  | some (c, k) => c < 2 ^ 96 ∧ k ≤ 28 ∧ Rounds x (c / 10 ^ k)
  | none => 2 ^ 96 - 1 < x

/-- A whole part that does not fit is refused. -/
theorem run_eq_none {cs : List Char} (h : AllDigits cs) (rest : List Char) (st : Scan)
    (hpoint : st.pointSeen = false) (hfull : st.full = false) (hlt : st.coefficient < limit)
    (hge : limit ≤ Nat.ofDigitChars 10 cs st.coefficient) : run (cs ++ rest) st = none := by
  induction cs generalizing st with
  | nil => exact absurd hlt (Nat.not_lt.2 hge)
  | cons c cs ih =>
    have hdigit := Text.digit?_of_isDigit (h c List.mem_cons_self)
    rw [Nat.ofDigitChars_cons] at hge
    rw [List.cons_append, run, hfull, hdigit]
    simp only [Bool.false_eq_true, ↓reduceIte, hpoint, Bool.false_and]
    split
    · next hnext =>
      refine ih (fun c hc => h c (List.mem_cons_of_mem _ hc)) _ hpoint ?_ hnext hge
      simp only [push, hpoint, Bool.false_and]
    · rfl

/-- Rounding on the first digit that is dropped, where there is no room for it. The digits stand for
`x`, and `digit` is the first behind those that the coefficient holds. -/
theorem roundOn_approximates {st : Scan} {digit : Nat} {x : ℚ} (hfits : st.coefficient < limit)
    (hscale : st.scale ≤ 28) (hfull : 28 ≤ st.scale ∨ limit ≤ 10 * st.coefficient + digit)
    (hdigit : digit < 10) (hlow : st.coefficient + digit / 10 ≤ x * 10 ^ st.scale)
    (hhigh : x * 10 ^ st.scale < st.coefficient + (digit + 1) / 10) :
    Approximates x (st.roundOn digit) := by
  have hnine : (digit : ℚ) ≤ 9 := by exact_mod_cast Nat.le_of_lt_succ hdigit
  have hmany : limit ≤ 10 * st.coefficient + digit →
      (2 ^ 96 - 1 : ℚ) < x * 10 ^ (st.scale + 1) := by
    intro hge
    have hge' : (2 ^ 96 : ℚ) ≤ 10 * st.coefficient + digit := by exact_mod_cast hge
    rw [pow_succ (10 : ℚ)]
    linarith
  rw [roundOn]
  split
  · next hdown =>
    have hzero : (0 : ℚ) ≤ digit := digit.cast_nonneg
    refine ⟨hfits, hscale, rounds_of_near (by linarith) (by linarith) ?_⟩
    exact hfull.imp_right fun hge => ⟨hmany hge, by simp only [limit] at hge; omega⟩
  next hup =>
  have hfive : (5 : ℚ) ≤ digit := by exact_mod_cast Nat.le_of_not_lt hup
  split
  · next hnext =>
    refine ⟨hnext, hscale, rounds_of_near ?_ ?_ (hfull.imp_right fun hge => ?_)⟩
    · push_cast
      linarith
    · push_cast
      linarith
    · exact ⟨hmany hge, by simp only [limit] at hge; omega⟩
  next hcarry =>
  -- the carry out of the last bit
  have hlast : st.coefficient = 2 ^ 96 - 1 := by simp only [limit] at hfits hcarry; omega
  rw [hlast] at hlow hhigh ⊢
  push_cast at hlow hhigh
  split
  · next hwhole =>
    rw [hwhole, pow_zero, mul_one] at hlow
    show (2 ^ 96 - 1 : ℚ) < x
    linarith
  · next hplace =>
    obtain ⟨k, hk⟩ := Nat.exists_eq_succ_of_ne_zero hplace
    rw [hk, Nat.succ_eq_add_one, pow_succ (10 : ℚ)] at hlow hhigh
    rw [hk, Nat.succ_sub_one]
    refine ⟨by decide, by omega, rounds_of_near ?_ ?_ (.inr ⟨?_, by decide⟩)⟩
    · norm_num
      linarith
    · norm_num
      linarith
    · rw [Nat.succ_sub_one, pow_succ (10 : ℚ)]
      linarith

theorem isTail_of_allDigits {cs : List Char} (h : AllDigits cs) : isTail cs = true := by
  refine List.all_eq_true.2 fun c hc => ?_
  rw [Text.isSome_digit?, h c hc, Bool.true_or]

/-- Where a digit does not fit, it and those behind it stand for less than one unit. -/
theorem dropped_bounds {cs : List Char} (h : AllDigits cs) (coefficient digit scale : Nat) :
    let x : ℚ := Nat.ofDigitChars 10 cs (10 * coefficient + digit) / 10 ^ (scale + (cs.length + 1))
    coefficient + (digit : ℚ) / 10 ≤ x * 10 ^ scale ∧
      x * 10 ^ scale < coefficient + ((digit : ℚ) + 1) / 10 := by
  intro x
  have hpos : (0 : ℚ) < 10 ^ cs.length := by positivity
  have hlt : (value cs : ℚ) < 10 ^ cs.length := by exact_mod_cast Text.value_lt h
  have hnonneg : (0 : ℚ) ≤ value cs := (value cs).cast_nonneg
  have hx : x * 10 ^ scale = coefficient + (digit + value cs / 10 ^ cs.length) / 10 := by
    simp only [x]
    rw [Nat.ofDigitChars_eq_ofDigitChars_zero, show Nat.ofDigitChars 10 cs 0 = value cs from rfl,
      pow_add, pow_succ]
    push_cast
    field_simp
    ring
  rw [hx]
  constructor
  · have : (0 : ℚ) ≤ value cs / 10 ^ cs.length := by positivity
    linarith
  · have : (value cs : ℚ) / 10 ^ cs.length < 1 := (div_lt_one hpos).2 hlt
    linarith

/-- Reading places: as many as there is room for, and the rest is rounded away. -/
theorem run_places {cs : List Char} (h : AllDigits cs) (st : Scan) (hseen : st.digitSeen = true)
    (hpoint : st.pointSeen = true) (hfits : st.coefficient < limit) (hscale : st.scale ≤ 28)
    (hfull : st.full = decide (28 ≤ st.scale)) :
    Approximates (Nat.ofDigitChars 10 cs st.coefficient / 10 ^ (st.scale + cs.length))
      (run cs st) := by
  induction cs generalizing st with
  | nil =>
    rw [run, if_pos hseen]
    exact ⟨hfits, hscale, rounds_self _⟩
  | cons c cs ih =>
    have hcs : AllDigits cs := fun c hc => h c (List.mem_cons_of_mem _ hc)
    have hisDigit := h c List.mem_cons_self
    obtain ⟨hlow, hhigh⟩ := dropped_bounds hcs st.coefficient (c.toNat - '0'.toNat) st.scale
    have hlt := Text.digit_lt_ten hisDigit
    rw [Nat.ofDigitChars_cons, List.length_cons, run, Text.digit?_of_isDigit hisDigit]
    generalize c.toNat - '0'.toNat = digit at *
    by_cases hroom : 28 ≤ st.scale
    · have hst : st.full = true := hfull.trans (decide_eq_true hroom)
      simp only [hst, ↓reduceIte, isTail_of_allDigits hcs]
      exact roundOn_approximates hfits hscale (.inl hroom) hlt hlow hhigh
    · have hst : st.full = false := hfull.trans (decide_eq_false hroom)
      simp only [hst, Bool.false_eq_true, ↓reduceIte, hpoint, isTail_of_allDigits hcs,
        Bool.and_self]
      split
      · next hnext =>
        have hplace : (st.push (10 * st.coefficient + digit)).scale = st.scale + 1 := if_pos hpoint
        have hpush := ih hcs (st.push (10 * st.coefficient + digit)) rfl hpoint hnext
          (by omega) (by simp only [push, hpoint, Bool.true_and, ↓reduceIte, maxScale])
        rwa [hplace, Nat.add_right_comm] at hpush
      · next hnext =>
        exact roundOn_approximates hfits hscale (.inr (Nat.le_of_not_lt hnext)) hlt hlow hhigh

end Scan

/-! ### Reading a literal -/

/-- The digits of a literal give what its magnitude may be rounded to. -/
theorem Literal.run_start (l : Literal) :
    Scan.Approximates l.magnitude
      (Scan.run (l.whole ++ if l.places.isEmpty then [] else '.' :: l.places) .start) := by
  have hdigits : Nat.ofDigitChars 10 l.places (value l.whole) = value (l.whole ++ l.places) :=
    (Nat.ofDigitChars_append 0).symm
  rcases Nat.lt_or_ge (value l.whole) limit with hfits | hlarge
  · obtain ⟨wide, hrun⟩ := Scan.run_whole l.whole_digits l.whole_ne_nil
      (if l.places.isEmpty then [] else '.' :: l.places) hfits
    rw [hrun]
    cases hempty : l.places.isEmpty with
    | true =>
      rw [List.isEmpty_iff] at hempty
      rw [magnitude, hempty, List.append_nil]
      exact ⟨hfits, Nat.zero_le _, rounds_self _⟩
    | false =>
      have hplaces := Scan.run_places l.places_digits
        ⟨true, true, value l.whole, 0, false, wide⟩ rfl rfl hfits (Nat.zero_le _) rfl
      rw [hdigits, Nat.zero_add] at hplaces
      exact hplaces
  · rw [Scan.run_eq_none l.whole_digits _ .start rfl rfl (by decide) hlarge]
    have hge : limit * 10 ^ l.places.length ≤ value (l.whole ++ l.places) := by
      rw [← hdigits, Nat.ofDigitChars_eq_ofDigitChars_zero, Nat.mul_comm]
      exact (Nat.mul_le_mul_left _ hlarge).trans (Nat.le_add_right ..)
    have hge' : (2 ^ 96 : ℚ) * 10 ^ l.places.length ≤ value (l.whole ++ l.places) := by
      exact_mod_cast hge
    show (2 ^ 96 - 1 : ℚ) < l.magnitude
    rw [magnitude, lt_div_iff₀ (by positivity)]
    exact lt_of_lt_of_le (mul_lt_mul_of_pos_right (by norm_num) (by positivity)) hge'

/-- A text without an exponent is not read as one with an exponent. -/
theorem readScientific?_eq_none {cs : List Char} (h : ∀ c ∈ cs, c ≠ 'e' ∧ c ≠ 'E') :
    readScientific? cs = none := by
  have hdrop : cs.dropWhile (fun c => !(c == 'e' || c == 'E')) = [] := by
    rw [← List.append_nil cs, List.dropWhile_append_of_pos fun c hc => by simp [h c hc]]
    rfl
  simp only [readScientific?, hdrop]

theorem Literal.mem_text {l : Literal} {c : Char} (h : c ∈ l.text.toList) :
    c.isDigit = true ∨ c = '-' ∨ c = '.' := by
  simp only [text, assemble, String.toList_ofList, List.mem_append] at h
  rcases h with (h | h) | h
  · split at h
    · exact .inr (.inl (List.mem_singleton.1 h))
    · contradiction
  · exact .inl (l.whole_digits c h)
  · split at h
    · contradiction
    · rcases List.mem_cons.1 h with hpoint | h
      · exact .inr (.inr hpoint)
      · exact .inl (l.places_digits c h)

/-- A literal is read as a decimal that its number may be rounded to. If it is not read, no decimal
is as large. -/
theorem read?_literal_cases (l : Literal) :
    (∃ d, read? l.text.toList = some d ∧ Rounds l.toRat d.toRat) ∨
    (read? l.text.toList = none ∧ ∀ d : Decimal, |d.toRat| < |l.toRat|) := by
  have hrun := l.run_start
  have hplain := readPlain?_assemble l.negative l.whole_digits l.whole_ne_nil l.places
  have hnoExponent : readScientific? l.text.toList = none := by
    refine readScientific?_eq_none fun c hc => ?_
    rcases Literal.mem_text hc with hdigit | rfl | rfl
    · constructor <;> (rintro rfl; contradiction)
    · decide
    · decide
  rw [read?, hnoExponent, Literal.text, hplain]
  cases hscan : Scan.run (l.whole ++ if l.places.isEmpty then [] else '.' :: l.places) .start with
  | some read =>
    obtain ⟨c, k⟩ := read
    rw [hscan] at hrun
    obtain ⟨hc, hk, hrounds⟩ := hrun
    obtain ⟨d, hd, -, hvalue⟩ := ofParts?_of_lt l.negative hc hk
    refine .inl ⟨d, ?_, ?_⟩
    · rw [Option.bind_some, hd]
      rfl
    · rw [hvalue]
      exact hrounds.withSign l.negative
  | none =>
    rw [hscan] at hrun
    refine .inr ⟨rfl, fun d => d.abs_toRat_le.trans_lt ?_⟩
    rw [Literal.toRat, abs_withSign _ l.magnitude_nonneg]
    exact hrun

end SpendingLedger.Decimal
