import SpendingLedger.Binary64
import SpendingLedger.Decimal.Reader
import SpendingLedger.Json.Token

/-!
JSON values, and why a text is not the value asked for. A whole number that fits 64 bits stays
exact; every other number is the binary one that its digits and exponent lead to.
-/

namespace SpendingLedger

namespace Json

/-- Why a text could not be read as asked. -/
inductive Fault where
  /-- The text is no JSON up to the place where reading stopped. -/
  | malformed
  /-- A value has another shape or lies outside the range asked for. -/
  | mismatch
  | missing (name : String)
  | duplicate (name : String)
  /-- A value of the right shape is refused for the reason given. -/
  | refused (reason : String)
deriving DecidableEq, Repr

/-- What is wrong with the members of a record, in words. -/
def Fault.message? : Fault → Option String
  | .missing name => some s!"missing field `{name}`"
  | .duplicate name => some s!"duplicate field `{name}`"
  | .refused reason => some reason
  | .malformed | .mismatch => none

/-- A fault in words, or else its kind. -/
def Fault.summary (f : Fault) : String :=
  f.message?.getD (match f with | .malformed => "Syntax" | _ => "Data")

/-- A number: a natural one, a negative whole one, or any other. -/
inductive Number where
  | natural (n : UInt64)
  | negative (i : Int64)
  | real (x : Binary64)
deriving DecidableEq, Repr

/-- A value without parts. -/
inductive Scalar where
  | null
  | bool (b : Bool)
  | number (n : Number)
  | text (s : String)
deriving DecidableEq, Repr

end Json

/-- A JSON value. The members of an object stand in the order of the text. -/
inductive Json where
  | scalar (s : Json.Scalar)
  | array (items : List Json)
  | object (members : List (String × Json))

namespace Json

def text (s : String) : Json := .scalar (.text s)

def natural (n : UInt64) : Json := .scalar (.number (.natural n))

def integer (i : Int64) : Json :=
  .scalar (.number (if 0 ≤ i then .natural i.toUInt64 else .negative i))

def truth (b : Bool) : Json := .scalar (.bool b)

/-! ### Numbers as written -/

namespace Numeral

/-- Appends digits to a significand as long as it stays within 64 bits; the digits left over. -/
def absorb : (significand : Nat) → List Nat → Nat × List Nat
  | n, [] => (n, [])
  | n, d :: rest => if 10 * n + d < 2 ^ 64 then absorb (10 * n + d) rest else (n, d :: rest)

/-- The number that digits stand for. -/
def ofDigits (digits : List Nat) : Nat := digits.foldl (fun n d => 10 * n + d) 0

/-- The exponent as written, zero without one. -/
def power (n : Numeral) : Int :=
  match n.exponent with
  | none => 0
  | some (negative, digits) => if negative then -(ofDigits digits : Int) else ofDigits digits

/-- The nearest binary number by significand and power of ten: digits past 64 bits count only as
places. `none` if it is too large. -/
def real? (n : Numeral) : Option Binary64 := do
  let (whole, spare) := absorb 0 n.whole
  let (significand, unread) := absorb whole n.places
  let shift : Int := spare.length + unread.length - n.places.length + n.power
  let x ← (← Binary64.ofRatio? significand 1).shift? shift
  return if n.negative then x.neg else x

/-- The value of a number: exact if it is written as a whole number of 64 bits other than a
negative zero. `none` if it is too large. -/
def value? (n : Numeral) : Option Number :=
  let whole := ofDigits n.whole
  if n.places.isEmpty && n.exponent.isNone then
    if !n.negative && whole < 2 ^ 64 then some (.natural (UInt64.ofNat whole))
    else if n.negative && 0 < whole && whole ≤ 2 ^ 63 then some (.negative (Int64.ofInt (-whole)))
    else n.real?.map .real
  else n.real?.map .real

end Numeral

/-- The value of a token that stands for a value without parts. The start of an array or object
is out of place there but no fault of the text. -/
def Token.scalar : Token → Except Fault Scalar
  | .null => .ok .null
  | .bool b => .ok (.bool b)
  | .text s => .ok (.text s)
  | .number n =>
    match n.value? with
    | some v => .ok (.number v)
    | none => .error .malformed
  | .openArray | .openObject => .error .mismatch
  | _ => .error .malformed

/-! ### Scalars as the values of a program -/

namespace Scalar

/-- A whole number of 64 bits with a sign. -/
def int64 : Scalar → Except Fault Int64
  | .number (.natural n) =>
    if n.toNat < 2 ^ 63 then .ok (Int64.ofNat n.toNat) else .error .mismatch
  | .number (.negative i) => .ok i
  | _ => .error .mismatch

/-- A whole number of 64 bits without a sign. -/
def uint64 : Scalar → Except Fault UInt64
  | .number (.natural n) => .ok n
  | _ => .error .mismatch

def string : Scalar → Except Fault String
  | .text s => .ok s
  | _ => .error .mismatch

def truth : Scalar → Except Fault Bool
  | .bool b => .ok b
  | _ => .error .mismatch

/-- A decimal: a whole number is exact, a text is read as a decimal, and any other number by its
shortest text. -/
def decimal : Scalar → Except Fault Decimal
  | .number (.natural n) => .ok (.ofUInt64 n)
  | .number (.negative i) => .ok (.ofInt64 i)
  | .number (.real x) => ofText x.toText
  | .text s => ofText s
  | _ => .error .mismatch
where
  /-- Reads a decimal without looking for white space around it. -/
  ofText (s : String) : Except Fault Decimal :=
    match Decimal.ofString? s with
    | some d => .ok d
    | none => .error .mismatch

end Scalar

end Json

end SpendingLedger
