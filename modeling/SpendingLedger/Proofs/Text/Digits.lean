import SpendingLedger.Text.Integer
import SpendingLedger.Text.Blank

/-!
Digits as written and as read. The digits of a number, with or without zeros in front, are digit
characters that stand for that number.
-/

namespace SpendingLedger.Text

def AllDigits (cs : List Char) : Prop := ∀ c ∈ cs, c.isDigit = true

instance (cs : List Char) : Decidable (AllDigits cs) :=
  decidable_of_iff (cs.all Char.isDigit = true) List.all_eq_true

/-- The number that digit characters stand for. -/
def value (cs : List Char) : Nat := Nat.ofDigitChars 10 cs 0

theorem digit?_of_isDigit {c : Char} (h : c.isDigit = true) :
    digit? c = some (c.toNat - '0'.toNat) := by
  have hc : '0' ≤ c ∧ c ≤ '9' := by
    simpa [Char.isDigit, Char.le_def, UInt32.le_iff_toNat_le] using h
  rw [digit?, if_pos hc]

theorem digit?_eq_none {c : Char} (h : c.isDigit = false) : digit? c = none := by
  have hc : ¬('0' ≤ c ∧ c ≤ '9') := by
    intro hc
    have : c.isDigit = true := by
      simpa [Char.isDigit, Char.le_def, UInt32.le_iff_toNat_le] using hc
    rw [this] at h
    contradiction
  rw [digit?, if_neg hc]

theorem isSome_digit? (c : Char) : (digit? c).isSome = c.isDigit := by
  cases h : c.isDigit with
  | true => rw [digit?_of_isDigit h]; rfl
  | false => rw [digit?_eq_none h]; rfl

theorem isBlank_of_isDigit {c : Char} (h : c.isDigit = true) : isBlank c = false := by
  have hc : 48 ≤ c.toNat ∧ c.toNat ≤ 57 := by
    simpa [Char.isDigit, UInt32.le_iff_toNat_le] using h
  simp only [isBlank, Bool.or_eq_false_iff, Bool.and_eq_false_iff, decide_eq_false_iff_not,
    beq_eq_false_iff_ne]
  omega

/-- Reading digit by digit gives the number. -/
theorem foldl_filterMap_digit? {cs : List Char} (h : AllDigits cs) (start : Nat) :
    (cs.filterMap digit?).foldl (fun n d => 10 * n + d) start = Nat.ofDigitChars 10 cs start := by
  induction cs generalizing start with
  | nil => simp
  | cons c cs ih =>
    rw [List.filterMap_cons_some (digit?_of_isDigit (h c List.mem_cons_self)), List.foldl_cons,
      ih (fun c hc => h c (List.mem_cons_of_mem _ hc)), Nat.ofDigitChars_cons]

theorem digit_lt_ten {c : Char} (h : c.isDigit = true) : c.toNat - '0'.toNat < 10 := by
  have hc : 48 ≤ c.toNat ∧ c.toNat ≤ 57 := by
    simpa [Char.isDigit, UInt32.le_iff_toNat_le] using h
  show c.toNat - 48 < 10
  omega

/-- A number is less than the first one with more digits. -/
theorem value_lt {cs : List Char} (h : AllDigits cs) : value cs < 10 ^ cs.length := by
  induction cs with
  | nil => decide
  | cons c cs ih =>
    have hc := digit_lt_ten (h c List.mem_cons_self)
    have hcs : value cs < 10 ^ cs.length := ih fun c hc => h c (List.mem_cons_of_mem _ hc)
    rw [value, Nat.ofDigitChars_cons, Nat.ofDigitChars_eq_ofDigitChars_zero, List.length_cons,
      Nat.pow_succ, Nat.mul_zero, Nat.zero_add]
    calc 10 ^ cs.length * (c.toNat - '0'.toNat) + value cs
        < 10 ^ cs.length * (c.toNat - '0'.toNat) + 10 ^ cs.length := Nat.add_lt_add_left hcs _
      _ = 10 ^ cs.length * (c.toNat - '0'.toNat + 1) := (Nat.mul_succ ..).symm
      _ ≤ 10 ^ cs.length * 10 := Nat.mul_le_mul_left _ hc

/-! ### The digits of a number -/

theorem allDigits_digits (n : Nat) : AllDigits (digits n) := fun _ hc =>
  Nat.isDigit_of_mem_toDigits (by decide) (by decide) hc

theorem value_digits (n : Nat) : value (digits n) = n := Nat.ofDigitChars_ten_toDigits

theorem digits_ne_nil (n : Nat) : digits n ≠ [] := Nat.toDigits_ne_nil

theorem length_digits_le {k n : Nat} (hk : 0 < k) (h : n < 10 ^ k) : (digits n).length ≤ k :=
  (Nat.length_toDigits_le_iff (by decide) hk).2 h

theorem allDigits_paddedDigits (width n : Nat) : AllDigits (paddedDigits width n) := by
  intro c hc
  rcases List.mem_append.1 hc with hc | hc
  · rw [List.eq_of_mem_replicate hc]
    rfl
  · exact allDigits_digits n c hc

theorem value_paddedDigits (width n : Nat) : value (paddedDigits width n) = n := by
  rw [value, paddedDigits, Nat.ofDigitChars_append, Nat.ofDigitChars_replicate_zero, Nat.mul_zero]
  exact value_digits n

theorem paddedDigits_ne_nil (width n : Nat) : paddedDigits width n ≠ [] := by
  rw [paddedDigits]
  exact fun h => digits_ne_nil n (List.append_eq_nil_iff.1 h).2

theorem length_paddedDigits {k n : Nat} (hk : 0 < k) (h : n < 10 ^ k) :
    (paddedDigits k n).length = k := by
  have := length_digits_le hk h
  rw [paddedDigits, List.length_append, List.length_replicate]
  omega

theorem AllDigits.isDigit_head {cs rest rest' : List Char} (h : AllDigits cs) (hne : cs ≠ [])
    {c : Char} (heq : cs ++ rest = c :: rest') : c.isDigit = true := by
  obtain ⟨d, tail, rfl⟩ := List.exists_cons_of_ne_nil hne
  obtain ⟨rfl, -⟩ := List.cons.inj heq
  exact h d List.mem_cons_self

/-- Digits stand apart from what follows them if that is no digit. -/
theorem takeWhile_allDigits {cs : List Char} (h : AllDigits cs) (rest : List Char)
    (hrest : ∀ c ∈ rest.head?, c.isDigit = false) :
    (cs ++ rest).takeWhile Char.isDigit = cs ∧ (cs ++ rest).dropWhile Char.isDigit = rest := by
  rw [List.takeWhile_append_of_pos h, List.dropWhile_append_of_pos h]
  cases rest with
  | nil => simp
  | cons c rest =>
    have hc : c.isDigit = false := hrest c rfl
    rw [List.takeWhile_cons_of_neg (by simp [hc]), List.dropWhile_cons_of_neg (by simp [hc]),
      List.append_nil]
    exact ⟨rfl, rfl⟩

end SpendingLedger.Text
