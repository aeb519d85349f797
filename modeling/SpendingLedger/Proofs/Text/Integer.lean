import SpendingLedger.Proofs.Text.Digits

/-!
Which texts are whole numbers. The readers accept an optional sign and digits after it, and exactly
those of them that stand for a number of the range.
-/

namespace SpendingLedger.Text

/-- The digits that stand for `n`, at least one. -/
def IsMagnitude (cs : List Char) (n : Nat) : Prop := cs ≠ [] ∧ AllDigits cs ∧ value cs = n

instance (cs : List Char) (n : Nat) : Decidable (IsMagnitude cs n) :=
  inferInstanceAs (Decidable (_ ∧ _ ∧ _))

/-- A natural number as it may be written: digits with or without a plus sign. -/
inductive IsNatural : List Char → Nat → Prop
  | unsigned {cs : List Char} {n : Nat} (h : IsMagnitude cs n) : IsNatural cs n
  | plus {cs : List Char} {n : Nat} (h : IsMagnitude cs n) : IsNatural ('+' :: cs) n

/-- A whole number as it may be written: digits with or without a sign. -/
inductive IsInteger : List Char → Int → Prop
  | unsigned {cs : List Char} {n : Nat} (h : IsMagnitude cs n) : IsInteger cs n
  | plus {cs : List Char} {n : Nat} (h : IsMagnitude cs n) : IsInteger ('+' :: cs) n
  | minus {cs : List Char} {n : Nat} (h : IsMagnitude cs n) : IsInteger ('-' :: cs) (-n)

theorem ofDigitChars_ge (cs : List Char) (n : Nat) : n ≤ Nat.ofDigitChars 10 cs n := by
  induction cs generalizing n with
  | nil => simp
  | cons c cs ih =>
    rw [Nat.ofDigitChars_cons]
    have := ih (10 * n + (c.toNat - '0'.toNat))
    omega

theorem readDigits_eq_ok_iff {bound : Nat} {excess : IntegerFault} {n m : Nat} {cs : List Char}
    (hn : n ≤ bound) : readDigits bound excess n cs = .ok m ↔
      AllDigits cs ∧ Nat.ofDigitChars 10 cs n = m ∧ m ≤ bound := by
  induction cs generalizing n with
  | nil =>
    simp only [readDigits, Except.ok.injEq, Nat.ofDigitChars_nil]
    exact ⟨fun h => ⟨nofun, h, h ▸ hn⟩, fun h => h.2.1⟩
  | cons c cs ih =>
    rw [readDigits, Nat.ofDigitChars_cons]
    cases hc : c.isDigit with
    | false =>
      rw [digit?_eq_none hc]
      refine ⟨nofun, fun h => ?_⟩
      rw [h.1 c List.mem_cons_self] at hc
      contradiction
    | true =>
      have hall : AllDigits (c :: cs) ↔ AllDigits cs :=
        List.forall_mem_cons.trans (and_iff_right hc)
      rw [digit?_of_isDigit hc, hall]
      by_cases hle : 10 * n + (c.toNat - '0'.toNat) ≤ bound
      · simp only [hle, ↓reduceIte]
        exact ih hle
      · simp only [hle, ↓reduceIte]
        refine ⟨nofun, fun h => ?_⟩
        have := ofDigitChars_ge cs (10 * n + (c.toNat - '0'.toNat))
        omega

theorem readMagnitude_eq_ok_iff {bound : Nat} {excess : IntegerFault} {n : Nat} {cs : List Char} :
    readMagnitude bound excess cs = .ok n ↔ IsMagnitude cs n ∧ n ≤ bound := by
  rw [readMagnitude, IsMagnitude]
  cases cs with
  | nil => exact ⟨nofun, fun h => absurd rfl h.1.1⟩
  | cons c cs =>
    rw [List.isEmpty_cons, if_neg Bool.false_ne_true, readDigits_eq_ok_iff (Nat.zero_le _)]
    simp only [ne_eq, reduceCtorEq, not_false_eq_true, true_and, value, and_assoc]

theorem bind_pure_eq_ok_iff {α β ε : Type} {x : Except ε α} {f : α → β} {b : β} :
    (do return f (← x) : Except ε β) = .ok b ↔ ∃ a, x = .ok a ∧ f a = b := by
  cases x with
  | error e => exact ⟨nofun, fun ⟨_, h, _⟩ => nomatch h⟩
  | ok a => exact ⟨fun h => ⟨a, rfl, Except.ok.inj h⟩, fun ⟨_, rfl, h⟩ => congrArg _ h⟩

theorem IsMagnitude.isDigit_head {c : Char} {cs : List Char} {n : Nat}
    (h : IsMagnitude (c :: cs) n) : c.isDigit = true :=
  h.2.1 c List.mem_cons_self

/-! ### Natural numbers -/

theorem isNatural_plus_iff {cs : List Char} {n : Nat} :
    IsNatural ('+' :: cs) n ↔ IsMagnitude cs n := by
  constructor
  · intro h
    cases h with
    | unsigned h => exact absurd h.isDigit_head (by decide)
    | plus h => exact h
  · exact .plus

theorem isNatural_unsigned_iff {cs : List Char} (hplus : ∀ rest, cs ≠ '+' :: rest) {n : Nat} :
    IsNatural cs n ↔ IsMagnitude cs n := by
  constructor
  · intro h
    cases h with
    | unsigned h => exact h
    | plus => exact absurd rfl (hplus _)
  · exact .unsigned

/-- A text stands for one number at most. -/
theorem IsNatural.unique {cs : List Char} {n m : Nat} (hn : IsNatural cs n)
    (hm : IsNatural cs m) : n = m := by
  by_cases hplus : ∃ rest, cs = '+' :: rest
  · obtain ⟨rest, rfl⟩ := hplus
    exact (isNatural_plus_iff.1 hn).2.2.symm.trans (isNatural_plus_iff.1 hm).2.2
  · have hplus' : ∀ rest, cs ≠ '+' :: rest := fun rest h => hplus ⟨rest, h⟩
    exact ((isNatural_unsigned_iff hplus').1 hn).2.2.symm.trans
      ((isNatural_unsigned_iff hplus').1 hm).2.2

/-- Exactly the texts of natural numbers up to the bound are read, as the numbers they stand for. -/
theorem readNat_eq_ok_iff {bound : Nat} {cs : List Char} {n : Nat} :
    readNat bound cs = .ok n ↔ IsNatural cs n ∧ n ≤ bound := by
  rw [readNat.eq_def]
  split
  · refine ⟨nofun, fun ⟨h, _⟩ => ?_⟩
    cases h with
    | unsigned h => exact absurd rfl h.1
  · rw [readMagnitude_eq_ok_iff, isNatural_plus_iff]
  · next hplus => rw [readMagnitude_eq_ok_iff, isNatural_unsigned_iff hplus]

/-! ### Whole numbers with a sign -/

theorem not_isInteger_nil {i : Int} : ¬ IsInteger [] i := by
  intro h
  cases h with
  | unsigned h => exact h.1 rfl

theorem isInteger_plus_iff {cs : List Char} {i : Int} :
    IsInteger ('+' :: cs) i ↔ ∃ n, IsMagnitude cs n ∧ (n : Int) = i := by
  constructor
  · intro h
    cases h with
    | unsigned h => exact absurd h.isDigit_head (by decide)
    | plus h => exact ⟨_, h, rfl⟩
  · rintro ⟨n, h, rfl⟩
    exact .plus h

theorem isInteger_minus_iff {cs : List Char} {i : Int} :
    IsInteger ('-' :: cs) i ↔ ∃ n, IsMagnitude cs n ∧ -(n : Int) = i := by
  constructor
  · intro h
    cases h with
    | unsigned h => exact absurd h.isDigit_head (by decide)
    | minus h => exact ⟨_, h, rfl⟩
  · rintro ⟨n, h, rfl⟩
    exact .minus h

theorem isInteger_unsigned_iff {c : Char} {cs : List Char} (hplus : c ≠ '+') (hminus : c ≠ '-')
    {i : Int} : IsInteger (c :: cs) i ↔ ∃ n, IsMagnitude (c :: cs) n ∧ (n : Int) = i := by
  constructor
  · intro h
    cases h with
    | unsigned h => exact ⟨_, h, rfl⟩
    | plus => contradiction
    | minus => contradiction
  · rintro ⟨n, h, rfl⟩
    exact .unsigned h

theorem ofNat_eq_iff {n : Nat} {i : Int64} :
    n ≤ 2 ^ 63 - 1 ∧ Int64.ofNat n = i ↔ (n : Int) = i.toInt := by
  constructor
  · rintro ⟨hn, rfl⟩
    exact (Int64.toInt_ofNat_of_lt (by omega)).symm
  · intro h
    have := i.toInt_lt
    have hn : n ≤ 2 ^ 63 - 1 := by omega
    refine ⟨hn, Int64.toInt_inj.1 ?_⟩
    rw [Int64.toInt_ofNat_of_lt (by omega), h]

theorem ofInt_neg_eq_iff {n : Nat} {i : Int64} :
    n ≤ 2 ^ 63 ∧ Int64.ofInt (-n) = i ↔ -(n : Int) = i.toInt := by
  constructor
  · rintro ⟨hn, rfl⟩
    exact (Int64.toInt_ofInt_of_le (by omega) (by omega)).symm
  · intro h
    have := i.le_toInt
    have hn : n ≤ 2 ^ 63 := by omega
    refine ⟨hn, Int64.toInt_inj.1 ?_⟩
    rw [Int64.toInt_ofInt_of_le (by omega) (by omega), h]

/-- Exactly the texts of whole numbers of 64 bits are read, as the numbers they stand for. -/
theorem readInt64_eq_ok_iff {cs : List Char} {i : Int64} :
    readInt64 cs = .ok i ↔ IsInteger cs i.toInt := by
  rw [readInt64.eq_def]
  split
  · exact ⟨nofun, fun h => absurd h not_isInteger_nil⟩
  · simp only [bind_pure_eq_ok_iff, readMagnitude_eq_ok_iff, isInteger_plus_iff, and_assoc,
      ofNat_eq_iff]
  · simp only [bind_pure_eq_ok_iff, readMagnitude_eq_ok_iff, isInteger_minus_iff, and_assoc,
      ofInt_neg_eq_iff]
  · next hnil hplus hminus =>
    obtain ⟨c, rest, rfl⟩ := List.exists_cons_of_ne_nil hnil
    have hc : c ≠ '+' := by
      rintro rfl
      exact hplus rest rfl
    have hc' : c ≠ '-' := by
      rintro rfl
      exact hminus rest rfl
    simp only [bind_pure_eq_ok_iff, readMagnitude_eq_ok_iff, isInteger_unsigned_iff hc hc',
      and_assoc, ofNat_eq_iff]

end SpendingLedger.Text
