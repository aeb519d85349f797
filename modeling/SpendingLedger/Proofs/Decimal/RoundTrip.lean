import SpendingLedger.Amount
import SpendingLedger.Decimal.Printer
import SpendingLedger.Proofs.Text.Digits
import Mathlib.Tactic.Linarith

/-!
Every decimal is read back from its text with the places it has, and every amount from the text of
its decimal. Only a zero loses its minus sign.
-/

namespace SpendingLedger

namespace Decimal

open Text (AllDigits value digits paddedDigits)

namespace Scan

theorem le_ofDigitChars (cs : List Char) (start : Nat) : start ≤ Nat.ofDigitChars 10 cs start := by
  rw [Nat.ofDigitChars_eq_ofDigitChars_zero]
  have : 1 ≤ 10 ^ cs.length := Nat.one_le_pow _ _ (by decide)
  nlinarith

/-- Reading digits that fit: they are appended to the coefficient, and past the point each is a
place. -/
theorem run_append {cs : List Char} (h : AllDigits cs) (rest : List Char) (st : Scan)
    (hlt : Nat.ofDigitChars 10 cs st.coefficient < limit)
    (hplaces : st.pointSeen = true → st.scale + cs.length ≤ maxScale)
    (hscale : st.pointSeen = false → st.scale = 0) (hfull : st.full = true → cs = []) :
    ∃ full wide, run (cs ++ rest) st = run rest {
      digitSeen := st.digitSeen || !cs.isEmpty
      pointSeen := st.pointSeen
      coefficient := Nat.ofDigitChars 10 cs st.coefficient
      scale := st.scale + if st.pointSeen then cs.length else 0
      full, wide } ∧ (full = true → st.full = true ∨ st.pointSeen = true) := by
  induction cs generalizing st with
  | nil => exact ⟨st.full, st.wide, by simp, .inl⟩
  | cons c cs ih =>
    have hnotFull : st.full = false := by
      cases hst : st.full with
      | false => rfl
      | true => exact nomatch hfull hst
    have hdigit := Text.digit?_of_isDigit (h c List.mem_cons_self)
    rw [Nat.ofDigitChars_cons] at hlt
    have hnext := Nat.lt_of_le_of_lt (le_ofDigitChars cs _) hlt
    obtain ⟨full, wide, hrun, hwhy⟩ := ih (fun c hc => h c (List.mem_cons_of_mem _ hc))
      (st.push (10 * st.coefficient + (c.toNat - '0'.toNat))) hlt
      (fun hpoint => by
        have hpoint' : st.pointSeen = true := hpoint
        have := hplaces hpoint
        simp only [push, hpoint', ↓reduceIte, List.length_cons] at this ⊢
        omega)
      (fun hpoint => by
        have hpoint' : st.pointSeen = false := hpoint
        simp only [push, hpoint', Bool.false_eq_true, ↓reduceIte])
      (fun hfull => by
        simp only [push, Bool.and_eq_true, decide_eq_true_eq] at hfull
        obtain ⟨hpoint, hle⟩ := hfull
        have := hplaces hpoint
        rw [if_pos hpoint] at hle
        rw [List.length_cons] at this
        exact List.length_eq_zero_iff.1 (by omega))
    refine ⟨full, wide, ?_, fun hfull => .inr ?_⟩
    · have hplace : (st.push (10 * st.coefficient + (c.toNat - '0'.toNat))).scale +
          (if st.pointSeen then cs.length else 0) =
          st.scale + if st.pointSeen then (c :: cs).length else 0 := by
        cases hpoint : st.pointSeen with
        | false => simp [push, hpoint, hscale hpoint]
        | true => simp [push, hpoint, Nat.add_assoc, Nat.add_comm 1]
      rw [List.cons_append, run, hnotFull, hdigit]
      simp only [Bool.false_eq_true, ↓reduceIte, hnext, hrun, Nat.ofDigitChars_cons,
        List.isEmpty_cons, Bool.not_false, Bool.or_true]
      rw [← hplace]
      rfl
    · rcases hwhy hfull with hpush | hpoint
      · simp only [push, Bool.and_eq_true] at hpush
        exact hpush.1
      · exact hpoint

/-- A whole part that fits is its number. -/
theorem run_whole {cs : List Char} (h : AllDigits cs) (hne : cs ≠ []) (rest : List Char)
    (hlt : value cs < limit) :
    ∃ wide, run (cs ++ rest) .start = run rest ⟨true, false, value cs, 0, false, wide⟩ := by
  obtain ⟨full, wide, hrun, hfull⟩ := run_append h rest .start hlt nofun (fun _ => rfl) nofun
  have hnotFull : full = false := by
    cases full with
    | false => rfl
    | true => rcases hfull rfl with h | h <;> exact nomatch h
  have hseen : cs.isEmpty = false := by simpa using hne
  refine ⟨wide, hrun.trans ?_⟩
  simp only [start, value, hnotFull, hseen, Bool.not_false, Bool.or_true, Bool.false_eq_true,
    ↓reduceIte, Nat.add_zero]

end Scan

/-! ### Decimals -/

theorem length_placesText (d : Decimal) : d.placesText.length = d.scale := by
  rw [placesText]
  split
  · next h => exact h.symm
  · next h =>
    exact Text.length_paddedDigits (Nat.pos_of_ne_zero h) (Nat.mod_lt _ (Nat.pow_pos (by decide)))

theorem allDigits_placesText (d : Decimal) : AllDigits d.placesText := by
  rw [placesText]
  split
  · nofun
  · exact Text.allDigits_paddedDigits _ _

/-- Whole part and places together are the coefficient. -/
theorem ofDigitChars_placesText (d : Decimal) :
    Nat.ofDigitChars 10 d.placesText (d.coefficient / 10 ^ d.scale) = d.coefficient := by
  rw [Nat.ofDigitChars_eq_ofDigitChars_zero, length_placesText]
  have hvalue : Nat.ofDigitChars 10 d.placesText 0 = d.coefficient % 10 ^ d.scale := by
    rw [placesText]
    split
    · next h => rw [h, Nat.pow_zero, Nat.mod_one, Nat.ofDigitChars_nil]
    · exact Text.value_paddedDigits ..
  rw [hvalue]
  exact Nat.div_add_mod ..

theorem allDigits_wholeText (d : Decimal) : AllDigits d.wholeText := Text.allDigits_digits _

theorem wholeText_ne_nil (d : Decimal) : d.wholeText ≠ [] := Text.digits_ne_nil _

/-- The digits of a decimal and the point between them give its coefficient and its places. -/
theorem run_start (d : Decimal) :
    Scan.run (d.wholeText ++ if d.placesText.isEmpty then [] else '.' :: d.placesText) .start =
      some (d.coefficient, d.scale) := by
  have hwhole : value d.wholeText = d.coefficient / 10 ^ d.scale := Text.value_digits _
  have hplaces := d.ofDigitChars_placesText
  have hlength := d.length_placesText
  have hfits : d.coefficient < limit := d.coefficient_lt
  obtain ⟨wide, hrun⟩ := Scan.run_whole d.allDigits_wholeText d.wholeText_ne_nil
    (if d.placesText.isEmpty then [] else '.' :: d.placesText)
    (hwhole ▸ Nat.lt_of_le_of_lt (Nat.div_le_self ..) hfits)
  rw [hrun, hwhole]
  cases hempty : d.placesText.isEmpty with
  | true =>
    rw [List.isEmpty_iff] at hempty
    rw [hempty] at hplaces hlength
    rw [Nat.ofDigitChars_nil] at hplaces
    show some (d.coefficient / 10 ^ d.scale, 0) = some (d.coefficient, d.scale)
    rw [hplaces, ← hlength]
    rfl
  | false =>
    have hpoint : Scan.run ('.' :: d.placesText)
        ⟨true, false, d.coefficient / 10 ^ d.scale, 0, false, wide⟩ =
        Scan.run d.placesText ⟨true, true, d.coefficient / 10 ^ d.scale, 0, false, wide⟩ := rfl
    obtain ⟨full', wide', hrun', -⟩ := Scan.run_append d.allDigits_placesText []
      ⟨true, true, d.coefficient / 10 ^ d.scale, 0, false, wide⟩ (by rw [hplaces]; exact hfits)
      (fun _ => by rw [hlength, Nat.zero_add]; exact d.scale_le) nofun nofun
    rw [List.append_nil] at hrun'
    show Scan.run ('.' :: d.placesText) _ = _
    rw [hpoint, hrun', Scan.run, hplaces, hlength]
    simp

/-- Behind its sign a text is read by its digits. -/
theorem readPlain?_assemble (negative : Bool) {whole : List Char} (h : AllDigits whole)
    (hne : whole ≠ []) (places : List Char) :
    readPlain? (assemble negative whole places).toList =
      (Scan.run (whole ++ if places.isEmpty then [] else '.' :: places) .start).bind
        fun read => ofParts? negative read.1 read.2 := by
  rw [assemble, String.toList_ofList, List.append_assoc]
  generalize (if places.isEmpty then [] else '.' :: places) = tail
  obtain ⟨c, rest, rfl⟩ := List.exists_cons_of_ne_nil hne
  have hc : c.isDigit = true := h c List.mem_cons_self
  cases negative with
  | true => rfl
  | false =>
    show readPlain? (c :: (rest ++ tail)) = _
    rw [readPlain?]
    · rfl
    · intro rest' heq
      exact nomatch (List.cons.inj heq).1 ▸ hc
    · intro rest' heq
      exact nomatch (List.cons.inj heq).1 ▸ hc

/-- A decimal as it is read: zero has no minus sign. -/
def asRead (d : Decimal) : Decimal := { d with negative := d.negative && d.coefficient != 0 }

theorem asRead_eq_self_iff {d : Decimal} : d.asRead = d ↔ ¬(d.negative = true ∧ d.IsZero) := by
  obtain ⟨negative, coefficient, scale, _, _⟩ := d
  cases negative <;> simp [asRead, IsZero]

/-- The text of a decimal is read with the digits and places that it shows. -/
theorem ofString?_toText_eq (d : Decimal) : ofString? d.toText = some d.asRead := by
  have hparts : ofParts? d.negative d.coefficient d.scale = some d.asRead := by
    rw [ofParts?, dif_pos ⟨d.coefficient_lt, d.scale_le⟩]
    rfl
  rw [ofString?, read?, toText, readPlain?_assemble _ d.allDigits_wholeText d.wholeText_ne_nil,
    run_start, Option.bind_some, hparts]
  rfl

/-- A decimal is read back from its text, unless it is a zero with a minus sign. -/
theorem ofString?_toText {d : Decimal} (h : d.negative = true → ¬d.IsZero) :
    ofString? d.toText = some d := by
  rw [ofString?_toText_eq, asRead_eq_self_iff.2 fun hzero => h hzero.1 hzero.2]

end Decimal

/-! ### Amounts -/

theorem Decimal.strip_mul (c s : Nat) : (strip c s).1 * 10 ^ (s - (strip c s).2) = c := by
  induction s generalizing c with
  | zero => simp [strip]
  | succ s ih =>
    rw [strip]
    split
    · next h =>
      have hle := (strip_le (c / 10) s).2
      rw [Nat.succ_sub hle, Nat.pow_succ, ← Nat.mul_assoc, ih]
      omega
    · simp

theorem Amount.ofDecimal_toDecimal (a : Amount) : ofDecimal a.toDecimal = .ok a := by
  have hpos := a.pos
  have hzero : ¬a.toDecimal.IsZero := by
    show a.hundredths ≠ 0
    omega
  have hsign : ¬(a.toDecimal.negative = true ∨ a.toDecimal.IsZero) := by
    rintro (h | h)
    · contradiction
    · exact hzero h
  have hcoefficient : a.toDecimal.normalize.coefficient = (Decimal.strip a.hundredths 2).1 := by
    rw [Decimal.normalize, if_neg hzero]
    rfl
  have hscale : a.toDecimal.normalize.scale = (Decimal.strip a.hundredths 2).2 := by
    rw [Decimal.normalize, if_neg hzero]
    rfl
  have hvalue : a.toDecimal.normalize.coefficient * 10 ^ (2 - a.toDecimal.normalize.scale) =
      a.hundredths := by
    rw [hcoefficient, hscale, Decimal.strip_mul]
  have hplaces : ¬2 < a.toDecimal.normalize.scale := by
    rw [hscale]
    exact Nat.not_lt.2 (Decimal.strip_le ..).2
  have hle := a.le_max
  rw [ofDecimal, dif_neg hsign, if_neg hplaces, dif_pos (by omega)]
  simp only [hvalue]

/-- An amount is read back from the text of its decimal. -/
theorem Amount.ofScalar_toText (a : Amount) : ofScalar (.text a.toDecimal.toText) = .ok a := by
  have hread : Decimal.ofString? a.toDecimal.toText = some a.toDecimal :=
    Decimal.ofString?_toText nofun
  have hdecimal : Json.Scalar.decimal (.text a.toDecimal.toText) = .ok a.toDecimal := by
    rw [Json.Scalar.decimal, Json.Scalar.decimal.ofText, hread]
  simp only [ofScalar, hdecimal, Bind.bind, Except.bind, ofDecimal_toDecimal]
  rfl

end SpendingLedger
