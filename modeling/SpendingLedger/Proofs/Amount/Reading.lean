import SpendingLedger.Proofs.Amount.Canonical
import SpendingLedger.Proofs.Decimal.Literal
import SpendingLedger.Proofs.Event.Grammar

/-!
Amounts read from literals of any length, in a text or in a JSON string. The digits are made a
decimal before the places are counted. So a literal of more places than an amount has may be read as
an amount all the same, but only if it stands for no decimal and is less than `10 ^ (-18)` off.
-/

namespace SpendingLedger

/-! ### White space -/

namespace Text

theorem trimStart_eq_self {cs : List Char} (h : ∀ c ∈ cs, isBlank c = false) :
    trimStart cs = cs := by
  cases cs with
  | nil => rfl
  | cons c cs =>
    rw [trimStart, List.dropWhile_cons_of_neg (by simp [h c List.mem_cons_self])]

/-- White space on either side is no part of a text. -/
theorem trim_append {before cs after : List Char} (hbefore : ∀ c ∈ before, isBlank c = true)
    (hafter : ∀ c ∈ after, isBlank c = true) (hcs : ∀ c ∈ cs, isBlank c = false) :
    trim (before ++ cs ++ after) = cs := by
  have hstart : trimStart (before ++ cs ++ after) = trimStart (cs ++ after) := by
    rw [List.append_assoc, trimStart, List.dropWhile_append_of_pos hbefore, trimStart]
  have hend : trimStart (after.reverse ++ cs.reverse) = cs.reverse := by
    rw [trimStart, List.dropWhile_append_of_pos fun c hc => hafter c (List.mem_reverse.1 hc)]
    exact trimStart_eq_self fun c hc => hcs c (List.mem_reverse.1 hc)
  rw [trim, hstart]
  cases cs with
  | nil =>
    have hnothing : trimStart ([] ++ after) = [] := by
      rw [List.nil_append, ← List.append_nil after, trimStart, List.dropWhile_append_of_pos hafter]
      rfl
    rw [hnothing]
    rfl
  | cons c cs =>
    have hkept : trimStart (c :: cs ++ after) = c :: cs ++ after := by
      rw [trimStart, List.cons_append,
        List.dropWhile_cons_of_neg (by simp [hcs c List.mem_cons_self])]
    rw [hkept, List.reverse_append, hend, List.reverse_reverse]

end Text

namespace Amount

open Decimal (Literal HasPlaces Rounds)

variable {l : Literal} {a : Amount}

/-- White space around a literal does not matter. -/
theorem ofText_literal (l : Literal) (before after : List Char)
    (hbefore : ∀ c ∈ before, Text.isBlank c = true)
    (hafter : ∀ c ∈ after, Text.isBlank c = true) :
    ofText (String.ofList (before ++ l.text.toList ++ after)) =
      (Decimal.read? l.text.toList).map ofDecimal := by
  rw [ofText, String.toList_ofList, Text.trim_append hbefore hafter]
  intro c hc
  rcases Literal.mem_text hc with hdigit | rfl | rfl
  · exact Text.isBlank_of_isDigit hdigit
  · decide
  · decide

/-- A JSON string is read as its text. -/
theorem parseScalar_eq_ok_iff {cs : List Char} {s : String} (h : Json.tokens cs = [.text s]) :
    Json.parseScalar ofScalar cs = .ok a ↔
      (Decimal.read? s.toList).map ofDecimal = some (.ok a) := by
  have hscalar : Json.parseScalar ofScalar cs = .ok a ↔ ofScalar (.text s) = .ok a := by
    rw [Json.parseScalar, h]
    show (ofScalar (.text s) >>= fun v => Json.complete (v, [])) = .ok a ↔ _
    simp only [Json.bind_eq_ok_iff, Json.complete, Except.ok.injEq, exists_eq_right]
  rw [hscalar, ofScalar_eq_ok_iff, Json.Scalar.decimal, Json.Scalar.decimal.ofText,
    Decimal.ofString?]
  cases Decimal.read? s.toList with
  | none => simp
  | some d => simp

theorem tokens_quoted_alone (s : String) : Json.tokens (Json.quoted s) = [.text s] := by
  rw [← List.append_nil (Json.quoted s), Json.tokens_quoted, Json.tokens]

/-! ### What is read -/

/-- An amount has room for 18 places, so there are decimals next to it. -/
theorem exists_neighbours (a : Amount) :
    (∃ d : Decimal, d.toRat = a.toRat + 1 / 10 ^ 18) ∧
      ∃ d : Decimal, d.toRat = a.toRat - 1 / 10 ^ 18 := by
  have hpos := a.pos
  have hfits : a.hundredths * 10 ^ 16 + 1 < 2 ^ 96 := by
    have := a.le_max
    omega
  constructor
  · refine ⟨⟨false, a.hundredths * 10 ^ 16 + 1, 18, hfits, by decide⟩, ?_⟩
    simp only [Decimal.toRat, Decimal.signed, toRat]
    push_cast
    ring
  · refine ⟨⟨false, a.hundredths * 10 ^ 16 - 1, 18, by omega, by decide⟩, ?_⟩
    simp only [Decimal.toRat, Decimal.signed, toRat]
    push_cast [Nat.cast_sub (show 1 ≤ a.hundredths * 10 ^ 16 by omega)]
    ring

/-- An amount that a number may be rounded to is less than one unit of the 18th place off. -/
theorem abs_sub_lt_of_rounds {q : ℚ} (h : Rounds q a.toRat) : |a.toRat - q| < 1 / 10 ^ 18 := by
  obtain ⟨⟨above, habove⟩, below, hbelow⟩ := a.exists_neighbours
  rw [abs_sub_lt_iff]
  constructor
  · by_contra hfar
    have := h.ge_of_ge below (by rw [hbelow]; linarith)
    rw [hbelow] at this
    linarith
  · by_contra hfar
    have := h.le_of_le above (by rw [habove]; linarith)
    rw [habove] at this
    linarith

/-- Numbers of hundredths that come near an amount are decimals. -/
theorem exists_decimal_of_near {q : ℚ} (hq : HasPlaces q 2) (hnear : |a.toRat - q| < 1 / 10 ^ 18) :
    ∃ d : Decimal, d.toRat = q := by
  obtain ⟨n, hn⟩ := hq
  have hpos : 1 / 100 ≤ a.toRat := by
    have : (1 : ℚ) ≤ a.hundredths := by exact_mod_cast a.pos
    rw [toRat]
    linarith
  have hle := a.toRat_le
  obtain ⟨hlow, hhigh⟩ := abs_sub_lt_iff.1 hnear
  have hnonneg : 0 ≤ n := by
    have : (0 : ℚ) ≤ n := by
      rw [← hn]
      linarith
    exact_mod_cast this
  obtain ⟨m, rfl⟩ := Int.eq_ofNat_of_zero_le hnonneg
  rw [Int.cast_natCast] at hn
  have hfits : m < 2 ^ 96 := by
    have hm : (m : ℚ) < 2 ^ 96 := by linarith
    exact_mod_cast hm
  refine ⟨.ofHundredths m hfits, ?_⟩
  rw [Decimal.toRat_ofHundredths]
  linarith

/-- An amount read from a literal is the number of the literal as far as decimals go, and is less
than `10 ^ (-18)` off. It is that number exactly if the number has no more than two places. So of
the literals that stand for a decimal just those are read that stand for an amount, and as that. -/
theorem reading_up_to_decimals (l : Literal) (a : Amount) (before after : List Char)
    {cs : List Char} (hbefore : ∀ c ∈ before, Text.isBlank c = true)
    (hafter : ∀ c ∈ after, Text.isBlank c = true) (hcs : Json.tokens cs = [.text l.text]) :
    (Json.parseScalar ofScalar cs = .ok a ↔
      ofText (String.ofList (before ++ l.text.toList ++ after)) = some (.ok a)) ∧
    (ofText (String.ofList (before ++ l.text.toList ++ after)) = some (.ok a) →
      Rounds l.toRat a.toRat ∧ |a.toRat - l.toRat| < 1 / 10 ^ 18 ∧
        (a.toRat = l.toRat ↔ HasPlaces l.toRat 2)) ∧
    ((∃ d : Decimal, d.toRat = l.toRat) →
      (ofText (String.ofList (before ++ l.text.toList ++ after)) = some (.ok a) ↔
        a.toRat = l.toRat)) := by
  rw [parseScalar_eq_ok_iff hcs, ofText_literal l _ _ hbefore hafter]
  refine ⟨Iff.rfl, fun h => ?_, fun ⟨d, hd⟩ => ?_⟩
  · obtain ⟨read, hread, hok⟩ := Option.map_eq_some_iff.1 h
    rcases Decimal.read?_literal_cases l with ⟨read', hread', hrounds⟩ | ⟨hnone, -⟩
    · obtain rfl : read' = read := Option.some.inj (hread'.symm.trans hread)
      rw [← ofDecimal_eq_ok_iff.1 hok] at hrounds
      have hnear := abs_sub_lt_of_rounds hrounds
      refine ⟨hrounds, hnear, fun heq => heq ▸ a.hasPlaces_toRat, fun hplaces => ?_⟩
      obtain ⟨d, hd⟩ := exists_decimal_of_near hplaces hnear
      exact hrounds.eq_of_toRat_eq hd
    · rw [hnone] at hread
      contradiction
  · rcases Decimal.read?_literal_cases l with ⟨read, hread, hrounds⟩ | ⟨-, hlarge⟩
    · rw [hread, Option.map_some, Option.some.injEq, ofDecimal_eq_ok_iff,
        hrounds.eq_of_toRat_eq hd]
    · exact absurd (hlarge d) (by rw [hd]; exact lt_irrefl _)

/-- 400 with 40 zeros behind the point and a blank before it is read as 400, in a JSON string too.
-/
theorem reading_up_to_decimals_zeros :
    let l : Literal := ⟨false, ['4', '0', '0'], List.replicate 40 '0', by decide, by decide,
      by decide⟩
    let a : Amount := ⟨40000, by decide, by decide⟩
    ofText (String.ofList ([' '] ++ l.text.toList ++ [])) = some (.ok a) ∧
      Json.parseScalar ofScalar (Json.quoted l.text) = .ok a := by
  intro l a
  have hvalue : a.toRat = l.toRat := by
    have hdigits : Text.value (l.whole ++ l.places) = 400 * 10 ^ 40 := by decide
    simp only [toRat, Literal.toRat, Literal.magnitude, hdigits, Decimal.withSign, a, l,
      List.length_replicate]
    norm_num
  obtain ⟨hjson, -, hexact⟩ := reading_up_to_decimals l a [' '] []
    (List.forall_mem_singleton.2 rfl) (List.forall_mem_nil _) (tokens_quoted_alone l.text)
  have hread := (hexact ⟨a.toDecimal, a.toRat_toDecimal.trans hvalue⟩).2 hvalue
  exact ⟨hread, hjson.2 hread⟩

/-- 0.01000000000000000000000000000000001 is read as 0.01. -/
theorem reading_over_precise :
    let l : Literal := ⟨false, ['0'], '0' :: '1' :: List.replicate 32 '0' ++ ['1'], by decide,
      by decide, by decide⟩
    let a : Amount := ⟨1, by decide, by decide⟩
    ofText l.text = some (.ok a) ∧ Json.parseScalar ofScalar (Json.quoted l.text) = .ok a ∧
      a.toRat ≠ l.toRat := by
  intro l a
  have hread : (Decimal.read? l.text.toList).map ofDecimal = some (.ok a) := by
    simp only [Literal.text, Decimal.assemble, String.toList_ofList, l, a]
    decide
  refine ⟨?_, (parseScalar_eq_ok_iff (tokens_quoted_alone l.text)).2 hread, fun heq => ?_⟩
  · have htext := ofText_literal l [] [] (List.forall_mem_nil _) (List.forall_mem_nil _)
    rw [List.nil_append, List.append_nil, String.ofList_toList] at htext
    rw [htext, hread]
  · have hdigits : Text.value (l.whole ++ l.places) = 10 ^ 33 + 1 := by decide
    simp only [toRat, Literal.toRat, Literal.magnitude, hdigits, Decimal.withSign, a, l] at heq
    norm_num at heq

end Amount

end SpendingLedger
