import SpendingLedger.Instances

/-!
Whole numbers in decimal notation, written and read. Reading is into a bounded range; the cause of
a refusal is the first one met from left to right: at each character a wrong digit comes before a
value out of range.
-/

namespace SpendingLedger.Text

/-- The decimal digits of a number, most significant first. -/
def digits (n : Nat) : List Char := Nat.toDigits 10 n

/-- The digits of a number, with zeros in front up to `width` digits. -/
def paddedDigits (width n : Nat) : List Char :=
  List.replicate (width - (digits n).length) '0' ++ digits n

/-- The digits of a whole number, with a minus sign if it is negative. -/
def signedDigits (i : Int) : List Char :=
  if i < 0 then '-' :: digits i.natAbs else digits i.natAbs

def ofInt (i : Int) : String := String.ofList (signedDigits i)

/-- Why a text is no whole number of the range asked for. -/
inductive IntegerFault where
  | empty
  | invalidDigit
  | tooLarge
  | tooSmall
deriving DecidableEq, Repr

def IntegerFault.message : IntegerFault → String
  | .empty => "cannot parse integer from empty string"
  | .invalidDigit => "invalid digit found in string"
  | .tooLarge => "number too large to fit in target type"
  | .tooSmall => "number too small to fit in target type"

/-- The value of a decimal digit. -/
def digit? (c : Char) : Option Nat :=
  if '0' ≤ c ∧ c ≤ '9' then some (c.toNat - '0'.toNat) else none

/-- Reads digits onto `value`, refusing with `excess` once it passes `bound`. -/
def readDigits (bound : Nat) (excess : IntegerFault) : (value : Nat) → List Char →
    Except IntegerFault Nat
  | value, [] => .ok value
  | value, c :: rest =>
    match digit? c with
    | none => .error .invalidDigit
    | some d =>
      let next := 10 * value + d
      if next ≤ bound then readDigits bound excess next rest else .error excess

/-- Digits that must be there: a sign alone is a wrong digit. -/
def readMagnitude (bound : Nat) (excess : IntegerFault) (cs : List Char) :
    Except IntegerFault Nat :=
  if cs.isEmpty then .error .invalidDigit else readDigits bound excess 0 cs

/-- A natural number up to `bound`. A leading plus sign is allowed. -/
def readNat (bound : Nat) : List Char → Except IntegerFault Nat
  | [] => .error .empty
  | '+' :: rest => readMagnitude bound .tooLarge rest
  | cs => readMagnitude bound .tooLarge cs

/-- A whole number of 64 bits with an optional sign. -/
def readInt64 : List Char → Except IntegerFault Int64
  | [] => .error .empty
  | '+' :: rest => do
    let n ← readMagnitude (2 ^ 63 - 1) .tooLarge rest
    return Int64.ofNat n
  | '-' :: rest => do
    let n ← readMagnitude (2 ^ 63) .tooSmall rest
    return Int64.ofInt (-n)
  | cs => do
    let n ← readMagnitude (2 ^ 63 - 1) .tooLarge cs
    return Int64.ofNat n

end SpendingLedger.Text
