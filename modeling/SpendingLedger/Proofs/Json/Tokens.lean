import SpendingLedger.Json.Printer
import SpendingLedger.Proofs.Text.Digits
import Mathlib.Tactic.IntervalCases

/-!
The tokens of printed scalars. A scalar is read back from its token, and what stands behind it is
left as it is; behind a number that must not go on with it.
-/

namespace SpendingLedger.Json

open Text (digits digit?)

/-! ### Strings -/

/-- The piece that a character is written as. -/
def piece (c : Char) : Piece :=
  if c.toNat < 0x20 ∧ c ∉ ['\x08', '\x0c', '\n', '\r', '\t'] then .unit c.toNat else .plain c

theorem hexUnit?_hexChar : ∀ n < 0x20,
    hexUnit? '0' '0' (hexChar (n / 16)) (hexChar (n % 16)) = some n := by decide

theorem scanText_plain {c : Char} (hquote : c ≠ '"') (hback : c ≠ '\\') (hle : ¬c.toNat < 0x20)
    (rest : List Char) (done : List Piece) :
    scanText (c :: rest) done = scanText rest (.plain c :: done) := by
  rw [scanText]
  · simp [hle, hback]
  all_goals grind

theorem scanText_escape (c : Char) (rest : List Char) (done : List Piece) :
    scanText (escape c ++ rest) done = scanText rest (piece c :: done) := by
  by_cases hquote : c = '"'
  · subst hquote
    rfl
  by_cases hback : c = '\\'
  · subst hback
    rfl
  by_cases hletter : c ∈ ['\x08', '\x0c', '\n', '\r', '\t']
  · simp only [List.mem_cons, List.not_mem_nil, or_false] at hletter
    rcases hletter with rfl | rfl | rfl | rfl | rfl <;> rfl
  have hnone : c ≠ '\x08' ∧ c ≠ '\x0c' ∧ c ≠ '\n' ∧ c ≠ '\r' ∧ c ≠ '\t' := by
    simpa using hletter
  obtain ⟨h₁, h₂, h₃, h₄, h₅⟩ := hnone
  by_cases hcontrol : c.toNat < 0x20
  · have hunit := hexUnit?_hexChar c.toNat hcontrol
    have hescape : escape c =
        ['\\', 'u', '0', '0', hexChar (c.toNat / 16), hexChar (c.toNat % 16)] := by
      simp [escape, hquote, hback, h₁, h₂, h₃, h₄, h₅, hcontrol]
    rw [hescape, piece, if_pos ⟨hcontrol, hletter⟩]
    simp only [List.cons_append, List.nil_append, scanText, hunit]
  · have hescape : escape c = [c] := by
      simp [escape, hquote, hback, h₁, h₂, h₃, h₄, h₅, hcontrol]
    rw [hescape, piece, if_neg (fun h => hcontrol h.1), List.singleton_append,
      scanText_plain hquote hback hcontrol]

theorem scanText_flatMap_escape (cs rest : List Char) (done : List Piece) :
    scanText (cs.flatMap escape ++ '"' :: rest) done =
      some (done.reverse ++ cs.map piece, rest) := by
  induction cs generalizing done with
  | nil => simp [scanText]
  | cons c cs ih =>
    rw [List.flatMap_cons, List.append_assoc, scanText_escape, ih, List.reverse_cons,
      List.append_assoc, List.map_cons, List.singleton_append]

/-- A code unit that is no surrogate stands for itself, whatever follows it. -/
theorem join?_unit {a : Nat} (h : a < 0x20) (rest : List Piece) :
    join? (.unit a :: rest) = (join? rest).map (Char.ofNat a :: ·) := by
  have hleading : isLeading a = false := by
    rw [isLeading]
    simp only [Bool.and_eq_false_iff, decide_eq_false_iff_not]
    omega
  have htrailing : isTrailing a = false := by
    rw [isTrailing]
    simp only [Bool.and_eq_false_iff, decide_eq_false_iff_not]
    omega
  rcases rest with _ | ⟨_ | b, rest⟩ <;> simp [join?, hleading, htrailing]

theorem join?_map_piece (cs : List Char) : join? (cs.map piece) = some cs := by
  induction cs with
  | nil => rfl
  | cons c cs ih =>
    rw [List.map_cons, piece]
    split
    · next h => rw [join?_unit h.1, ih, Option.map_some, Char.ofNat_toNat]
    · rw [join?, ih, Option.map_some]

/-- A string is read back from its quoted text. -/
theorem tokens_quoted (s : String) (rest : List Char) :
    tokens (quoted s ++ rest) = .text s :: tokens rest := by
  have hscan : scanText (s.toList.flatMap escape ++ '"' :: rest) [] =
      some (s.toList.map piece, rest) := scanText_flatMap_escape ..
  have hnext : nextToken '"' (s.toList.flatMap escape ++ '"' :: rest) = (.text s, rest) := by
    rw [nextToken]
    simp only [Char.reduceBEq, Bool.false_eq_true, ↓reduceIte, hscan, textToken, join?_map_piece,
      String.ofList_toList]
  have hquoted : quoted s ++ rest = '"' :: (s.toList.flatMap escape ++ '"' :: rest) := by
    simp [quoted]
  rw [hquoted, tokens, if_neg (by decide), hnext]

/-! ### Numbers -/

theorem isDigit_eq : isDigit = Char.isDigit := funext Text.isSome_digit?

/-- What may follow a number: nothing that it could go on with. -/
def EndsNumber (rest : List Char) : Prop :=
  ∀ c ∈ rest.head?, c.isDigit = false ∧ c ≠ '.' ∧ c ≠ 'e' ∧ c ≠ 'E'

/-- The number that the digits of `n` are, with a minus sign or without. -/
def numeralOf (negative : Bool) (n : Nat) : Numeral :=
  ⟨negative, (digits n).filterMap digit?, [], none⟩

theorem ofDigits_numeralOf (negative : Bool) (n : Nat) :
    Numeral.ofDigits (numeralOf negative n).whole = n :=
  (Text.foldl_filterMap_digit? (Text.allDigits_digits n) 0).trans (Text.value_digits n)

/-- Only zero is written with a zero in front. -/
theorem exists_digits_eq_cons {n : Nat} (h : 0 < n) :
    ∃ d ds, (digits n).filterMap digit? = d :: ds ∧ d ≠ 0 := by
  induction n using Nat.strongRecOn with
  | ind n ih =>
    have hdigit (k : Nat) (hk : k < 10) : [Nat.digitChar k].filterMap digit? = [k] := by
      interval_cases k <;> rfl
    rw [digits, Nat.toDigits_eq_if (by decide)]
    split
    · next hlt => exact ⟨n, [], hdigit n hlt, by omega⟩
    · next hge =>
      obtain ⟨d, ds, heq, hd⟩ := ih (n / 10) (by omega) (by omega)
      refine ⟨d, ds ++ [n % 10], ?_, hd⟩
      rw [List.filterMap_append, hdigit _ (Nat.mod_lt _ (by decide)),
        show (Nat.toDigits 10 (n / 10)).filterMap digit? = d :: ds from heq, List.cons_append]

theorem isWhole_digits (n : Nat) : isWhole ((digits n).filterMap digit?) = true := by
  rcases Nat.eq_zero_or_pos n with rfl | hpos
  · rfl
  · obtain ⟨d, ds, heq, hd⟩ := exists_digits_eq_cons hpos
    rw [heq]
    cases ds with
    | nil => rfl
    | cons d' ds => simpa [isWhole] using hd

theorem scanNumeral_digits (negative : Bool) (n : Nat) {rest : List Char} (h : EndsNumber rest) :
    scanNumeral negative (digits n ++ rest) = some (numeralOf negative n, rest) := by
  obtain ⟨htake, hdrop⟩ := Text.takeWhile_allDigits (Text.allDigits_digits n) rest
    (fun c hc => (h c hc).1)
  have hleading : leadingDigits (digits n ++ rest) = (digits n).filterMap digit? := by
    rw [leadingDigits, isDigit_eq, htake]
  have hafter : afterDigits (digits n ++ rest) = rest := by
    rw [afterDigits, isDigit_eq, hdrop]
  have hplaces : scanPlaces? rest = some ([], rest) := by
    cases rest with
    | nil => rfl
    | cons c rest =>
      rw [scanPlaces?]
      intro rest' heq
      exact (h c rfl).2.1 (List.cons.inj heq).1
  have hexponent : scanExponent? rest = some (none, rest) := by
    cases rest with
    | nil => rfl
    | cons c rest =>
      obtain ⟨-, -, he, hE⟩ := h c rfl
      simp [scanExponent?, he, hE]
  rw [scanNumeral, hleading, hafter, if_pos (isWhole_digits n), hplaces]
  simp only [hexponent]
  rfl

/-- The token of a number starts with its first character, so it is told from the other tokens. -/
theorem nextToken_digit {c : Char} (h : c.isDigit = true) (rest : List Char) :
    nextToken c rest = numberToken (scanNumeral false (c :: rest)) := by
  have hne (d : Char) (hd : d.isDigit = false) : (c == d) = false := by
    rw [beq_eq_false_iff_ne]
    rintro rfl
    rw [h] at hd
    contradiction
  simp only [nextToken, hne '\x7b' rfl, hne '\x7d' rfl, hne '[' rfl, hne ']' rfl, hne ',' rfl,
    hne ':' rfl, hne 'n' rfl, hne 't' rfl, hne 'f' rfl, hne '"' rfl, hne '-' rfl,
    Bool.false_eq_true, ↓reduceIte]

theorem isSpace_of_isDigit {c : Char} (h : c.isDigit = true) : isSpace c = false := by
  have hne (d : Char) (hd : d.isDigit = false) : (c == d) = false := by
    rw [beq_eq_false_iff_ne]
    rintro rfl
    rw [h] at hd
    contradiction
  simp only [isSpace, hne ' ' rfl, hne '\n' rfl, hne '\t' rfl, hne '\r' rfl, Bool.or_self]

theorem tokens_digits (n : Nat) {rest : List Char} (h : EndsNumber rest) :
    tokens (digits n ++ rest) = .number (numeralOf false n) :: tokens rest := by
  obtain ⟨c, cs, hdigits⟩ := List.exists_cons_of_ne_nil (Text.digits_ne_nil n)
  have hc : c.isDigit = true := Text.allDigits_digits n c (hdigits ▸ List.mem_cons_self)
  have hscan := scanNumeral_digits false n h
  rw [hdigits, List.cons_append] at hscan ⊢
  rw [tokens, if_neg (by simp [isSpace_of_isDigit hc]), nextToken_digit hc, hscan]
  rfl

theorem tokens_minus_digits (n : Nat) {rest : List Char} (h : EndsNumber rest) :
    tokens ('-' :: digits n ++ rest) = .number (numeralOf true n) :: tokens rest := by
  have hscan := scanNumeral_digits true n h
  have hnext :
      nextToken '-' (digits n ++ rest) = numberToken (scanNumeral true (digits n ++ rest)) :=
    rfl
  rw [List.cons_append, tokens, if_neg (by decide), hnext, hscan]
  rfl

/-! ### Scalars -/

namespace Scalar

/-- Whether a scalar is written without loss: no binary number, and a number with a minus sign
only if it has one. -/
def IsExact : Scalar → Prop
  | .number (.negative i) => i < 0
  | .number (.real _) => False
  | _ => True

def token : Scalar → Token
  | .null => .null
  | .bool b => .bool b
  | .text s => .text s
  | .number (.natural n) => .number (numeralOf false n.toNat)
  | .number (.negative i) => .number (numeralOf true i.toInt.natAbs)
  | .number (.real _) => .invalid

theorem tokens_print {v : Scalar} (hv : v.IsExact) {rest : List Char} (h : EndsNumber rest) :
    tokens (v.print ++ rest) = v.token :: tokens rest := by
  cases v with
  | null => rw [print, List.cons_append, tokens]; rfl
  | bool b => cases b <;> rw [print, List.cons_append, tokens] <;> rfl
  | text s => exact tokens_quoted s rest
  | number n =>
    cases n with
    | natural n => exact tokens_digits n.toNat h
    | negative i =>
      have hneg : i.toInt < 0 := Int64.lt_iff_toInt_lt.1 hv
      rw [print, Number.print, Text.signedDigits, if_pos hneg]
      exact tokens_minus_digits _ h
    | real => exact absurd hv id

theorem value?_numeralOf_natural (n : UInt64) :
    (numeralOf false n.toNat).value? = some (.natural n) := by
  have hlt : n.toNat < 2 ^ 64 := n.toNat_lt
  rw [Numeral.value?, ofDigits_numeralOf]
  simp only [numeralOf, List.isEmpty_nil, Option.isNone_none, Bool.and_self, ↓reduceIte,
    Bool.not_false, hlt, decide_true, UInt64.ofNat_toNat]

theorem value?_numeralOf_negative {i : Int64} (h : i < 0) :
    (numeralOf true i.toInt.natAbs).value? = some (.negative i) := by
  have hneg : i.toInt < 0 := Int64.lt_iff_toInt_lt.1 h
  have hle : i.toInt.natAbs ≤ 2 ^ 63 := by
    have := i.le_toInt
    omega
  have hpos : 0 < i.toInt.natAbs := by omega
  have hvalue : -(i.toInt.natAbs : Int) = i.toInt := by omega
  rw [Numeral.value?, ofDigits_numeralOf]
  simp only [numeralOf, List.isEmpty_nil, Option.isNone_none, Bool.and_self, ↓reduceIte,
    Bool.not_true, Bool.false_and, Bool.false_eq_true, hpos, hle, decide_true, hvalue,
    Int64.ofInt_toInt]

/-- A scalar is read back from its token. -/
theorem scalar_token {v : Scalar} (hv : v.IsExact) : v.token.scalar = .ok v := by
  cases v with
  | null | bool | text => rfl
  | number n =>
    cases n with
    | natural n => rw [token, Token.scalar, value?_numeralOf_natural]
    | negative i => rw [token, Token.scalar, value?_numeralOf_negative hv]
    | real => exact absurd hv id

end Scalar

end SpendingLedger.Json
