import SpendingLedger.Instances
import SpendingLedger.Rounding

/-!
Decimal numbers of at most 96 bits of digits and 28 places. The number of places is part of a
value, so `1.0` and `1.00` differ as records and agree in order. A sum keeps the places of the
finer operand as long as the digits fit, and otherwise drops the fewest places that make them
fit, a half going to the even neighbour.
-/

namespace SpendingLedger

/-- A decimal number: `coefficient` divided by ten to the power `scale`, with a sign. Zero may
carry a minus sign, which only a change of scale leaves behind. -/
structure Decimal where
  negative : Bool
  coefficient : Nat
  scale : Nat
  coefficient_lt : coefficient < 2 ^ 96
  scale_le : scale ≤ 28
deriving DecidableEq

namespace Decimal

/-- The first coefficient that does not fit. -/
def limit : Nat := 2 ^ 96

/-- The largest number of places. -/
def maxScale : Nat := 28

theorem two_le_maxScale : 2 ≤ maxScale := by decide

instance : Inhabited Decimal := ⟨⟨false, 0, 0, by decide, by decide⟩⟩

/-- The decimal with these parts, if they fit. Zero gets no minus sign. -/
def ofParts? (negative : Bool) (coefficient scale : Nat) : Option Decimal :=
  if h : coefficient < 2 ^ 96 ∧ scale ≤ 28 then
    some ⟨negative && coefficient != 0, coefficient, scale, h.1, h.2⟩
  else none

/-- Zero without places. -/
def zero : Decimal := ⟨false, 0, 0, by decide, by decide⟩

/-- A whole number of at most 64 bits. -/
def ofUInt64 (n : UInt64) : Decimal :=
  ⟨false, n.toNat, 0, Nat.lt_trans n.toNat_lt (by decide), by decide⟩

/-- A signed whole number of at most 64 bits. -/
def ofInt64 (i : Int64) : Decimal :=
  ⟨i.toInt < 0, i.toInt.natAbs, 0, by
    have h₁ := i.le_toInt
    have h₂ := i.toInt_lt
    omega, by decide⟩

/-- Whether the number is zero. -/
def IsZero (d : Decimal) : Prop := d.coefficient = 0

instance (d : Decimal) : Decidable d.IsZero := inferInstanceAs (Decidable (d.coefficient = 0))

/-- The coefficient with its sign. -/
def signed (d : Decimal) : Int :=
  if d.negative then -(d.coefficient : Int) else d.coefficient

/-- The number counted in units of the `places`-th place, for `places` at least the scale. -/
def unitsAt (d : Decimal) (places : Nat) : Int :=
  d.signed * 10 ^ (places - d.scale)

/-- Decimals are ordered by value: `1.0 ≤ 1.00` and `1.00 ≤ 1.0`. -/
instance : LE Decimal where
  le a b := a.unitsAt (max a.scale b.scale) ≤ b.unitsAt (max a.scale b.scale)

instance : LT Decimal where
  lt a b := a.unitsAt (max a.scale b.scale) < b.unitsAt (max a.scale b.scale)

instance (a b : Decimal) : Decidable (a ≤ b) :=
  inferInstanceAs (Decidable (a.unitsAt (max a.scale b.scale) ≤ b.unitsAt (max a.scale b.scale)))

instance (a b : Decimal) : Decidable (a < b) :=
  inferInstanceAs (Decidable (a.unitsAt (max a.scale b.scale) < b.unitsAt (max a.scale b.scale)))

/-- The number `n` at `scale` places with the fewest places dropped that make its digits fit.
Where rounding fills the last bit, one more place goes. -/
def fit? (negative : Bool) (n scale : Nat) : Option Decimal := do
  let dropped ← (List.range (scale + 1)).find? (fun t => n / 10 ^ t < limit)
  let rounded := halfEven n (10 ^ dropped)
  if rounded < limit then
    ofParts? negative rounded (scale - dropped)
  else if scale = dropped then
    none
  else
    ofParts? negative (halfEven rounded 10) (scale - dropped - 1)

/-- The sum, unless it is too large. A zero leaves the other operand as it is. -/
def add? (a b : Decimal) : Option Decimal :=
  if a.IsZero then some b
  else if b.IsZero then some a
  else
    let places := max a.scale b.scale
    let sum := a.unitsAt places + b.unitsAt places
    fit? (sum < 0) sum.natAbs places

/-- Drops trailing zeros among `scale` places. -/
def strip : (coefficient scale : Nat) → Nat × Nat
  | c, 0 => (c, 0)
  | c, s + 1 => if c % 10 = 0 then strip (c / 10) s else (c, s + 1)

theorem strip_le (c s : Nat) : (strip c s).1 ≤ c ∧ (strip c s).2 ≤ s := by
  induction s generalizing c with
  | zero => simp [strip]
  | succ s ih =>
    rw [strip]
    split
    · have := ih (c / 10)
      omega
    · simp

/-- The same value with the fewest places. -/
def normalize (d : Decimal) : Decimal :=
  if d.IsZero then zero
  else
    ⟨d.negative, (strip d.coefficient d.scale).1, (strip d.coefficient d.scale).2,
      Nat.lt_of_le_of_lt (strip_le ..).1 d.coefficient_lt,
      Nat.le_trans (strip_le ..).2 d.scale_le⟩

/-- Appends zeros while they fit, at most `steps` of them. -/
def extend : (steps coefficient scale : Nat) → Nat × Nat
  | 0, c, s => (c, s)
  | n + 1, c, s => if c * 10 < limit then extend n (c * 10) (s + 1) else (c, s)

theorem extend_lt (n c s : Nat) (h : c < 2 ^ 96) :
    (extend n c s).1 < 2 ^ 96 ∧ (extend n c s).2 ≤ s + n := by
  induction n generalizing c s with
  | zero => exact ⟨h, Nat.le_refl _⟩
  | succ n ih =>
    rw [extend]
    split
    · next hc =>
      have := ih (c * 10) (s + 1) hc
      omega
    · exact ⟨h, by simp⟩

/-- Rounds away `k + 1` digits, a half upward. -/
def roundAway (c k : Nat) : Nat := (c + 5 * 10 ^ k) / 10 ^ (k + 1)

theorem roundAway_lt {c : Nat} (k : Nat) (h : c < 2 ^ 96) : roundAway c k < 2 ^ 96 := by
  have hp : 0 < 10 ^ k := Nat.pow_pos (by decide)
  rw [roundAway, Nat.div_lt_iff_lt_mul (Nat.pow_pos (by decide)),
    show 10 ^ (k + 1) = 10 ^ k * 10 from rfl]
  generalize 10 ^ k = p at hp ⊢
  omega

/-- The value at `target` places (at most 28). Fewer places round a half away from zero; more
places are appended as long as the digits fit. The sign stays, also that of a zero. -/
def rescale (d : Decimal) (target : Fin 29) : Decimal :=
  if d.IsZero then
    ⟨d.negative, 0, target, by decide, by omega⟩
  else if target.val < d.scale then
    ⟨d.negative, roundAway d.coefficient (d.scale - target - 1), target,
      roundAway_lt _ d.coefficient_lt, by omega⟩
  else
    have h := extend_lt (target - d.scale) d.coefficient d.scale d.coefficient_lt
    ⟨d.negative, (extend (target - d.scale) d.coefficient d.scale).1,
      (extend (target - d.scale) d.coefficient d.scale).2, h.1,
      by have := d.scale_le; omega⟩

end Decimal

end SpendingLedger
