import SpendingLedger.Json.Record
import SpendingLedger.Text.Blank

/-!
Amounts of money: positive, in whole hundredths, up to 9999999999.99. An amount has one form: read
as a decimal it has two places.
-/

namespace SpendingLedger

/-- A positive amount, counted in hundredths. -/
structure Amount where
  hundredths : Nat
  pos : 0 < hundredths
  le_max : hundredths ≤ 999999999999
deriving DecidableEq

namespace Amount

/-- The greatest amount in hundredths. -/
def maxHundredths : Nat := 999999999999

def maximum : Decimal := ⟨false, maxHundredths, 2, by decide, by decide⟩

/-- Why a decimal is no amount. -/
inductive Refusal where
  | notPositive (value : Decimal)
  | tooManyPlaces (places : Nat)
  | tooLarge (value : Decimal)
deriving DecidableEq

def Refusal.message : Refusal → String
  | .notPositive value => s!"Amount must be positive (got {value.toText})"
  | .tooManyPlaces places =>
    s!"Amount has too many decimal places (max 2, got {Text.ofInt places})"
  | .tooLarge _ => s!"Amount exceeds maximum allowed value ({maximum.toText})"

def toDecimal (a : Amount) : Decimal :=
  ⟨false, a.hundredths, 2, Nat.lt_of_le_of_lt a.le_max (by decide), by decide⟩

theorem strip_pos {c : Nat} (s : Nat) (h : 0 < c) : 0 < (Decimal.strip c s).1 := by
  induction s generalizing c with
  | zero => exact h
  | succ s ih =>
    rw [Decimal.strip]
    split
    · exact ih (by omega)
    · exact h

/-- The amount that a decimal stands for. Trailing zeros do not count as places. -/
def ofDecimal (d : Decimal) : Except Refusal Amount :=
  if h₀ : d.negative ∨ d.IsZero then .error (.notPositive d)
  else if 2 < d.normalize.scale then .error (.tooManyPlaces d.normalize.scale)
  else if h : d.normalize.coefficient * 10 ^ (2 - d.normalize.scale) ≤ 999999999999 then
    .ok ⟨d.normalize.coefficient * 10 ^ (2 - d.normalize.scale), by
      have hc : ¬d.IsZero := fun hz => h₀ (.inr hz)
      have : 0 < d.normalize.coefficient := by
        simp only [Decimal.normalize, hc, ↓reduceIte]
        exact strip_pos _ (Nat.pos_of_ne_zero hc)
      exact Nat.mul_pos this (Nat.pow_pos (by decide)), h⟩
  else .error (.tooLarge d)

/-- The amount that a text stands for, white space around it aside. `none` if it is no decimal. -/
def ofText (s : String) : Option (Except Refusal Amount) :=
  (Decimal.read? (Text.trim s.toList)).map ofDecimal

def toText (a : Amount) : String := a.toDecimal.toFixed 2

/-- The new total if this amount may be added to `total` under `cap`, the cap included. A sum that
is no decimal is over every cap. -/
def addWithin? (a : Amount) (total cap : Decimal) : Option Decimal :=
  match total.add? a.toDecimal with
  | some sum => if sum ≤ cap then some sum else none
  | none => none

/-- Whether this amount may be added to `total` under `cap`. -/
def FitsUnder (a : Amount) (total cap : Decimal) : Prop := (a.addWithin? total cap).isSome

instance (a : Amount) (total cap : Decimal) : Decidable (a.FitsUnder total cap) :=
  inferInstanceAs (Decidable ((a.addWithin? total cap).isSome = true))

def ofScalar (v : Json.Scalar) : Except Json.Fault Amount := do
  match ofDecimal (← v.decimal) with
  | .ok a => return a
  | .error e => throw (.refused e.message)

def toJson (a : Amount) : Json := Json.text a.toDecimal.toText

end Amount

/-- The cap on what a user may spend in all: 1000.00. -/
def defaultCap : Decimal := ⟨false, 100000, 2, by decide, by decide⟩

end SpendingLedger
