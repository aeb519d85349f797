import SpendingLedger.Decimal.Basic
import SpendingLedger.Text.Integer

/-!
Reading a decimal: an optional sign, digits with at most one point and at least one digit, and
underscores between them after the first digit. A whole part that does not fit is refused. Places
that do not fit are dropped, a half upward on the first of them; those behind it need only be
digits or underscores. An underscore may itself stand where the first place is dropped: in a wide
coefficient it is passed over, in any other it drops the rest. Where all that fails, a text with
`e` or `E` is read as a decimal times a power of ten of at most 28 in magnitude.
-/

namespace SpendingLedger.Decimal

open Text (digit?)

/-- Where the reading of a decimal stands. -/
structure Scan where
  digitSeen : Bool
  pointSeen : Bool
  coefficient : Nat
  scale : Nat
  /-- The next character stands where places end. -/
  full : Bool
  /-- The coefficient has left the range of one machine word, with a margin. -/
  wide : Bool
deriving DecidableEq

namespace Scan

def start : Scan := ⟨false, false, 0, 0, false, false⟩

/-- From here on coefficients count as wide. -/
def wideFrom : Nat := (2 ^ 64 - 1) / 10 - 255

/-- Rounds on the first digit that is dropped. A carry out of the last bit costs one place. -/
def roundOn (st : Scan) (digit : Nat) : Option (Nat × Nat) :=
  if digit < 5 then some (st.coefficient, st.scale)
  else if st.coefficient + 1 < limit then some (st.coefficient + 1, st.scale)
  else if st.scale = 0 then none
  else some ((st.coefficient + 5) / 10, st.scale - 1)

/-- Whether what follows a dropped place is made of digits and underscores. -/
def isTail (cs : List Char) : Bool := cs.all (fun c => (digit? c).isSome || c == '_')

/-- Takes in a digit that fits. -/
def push (st : Scan) (coefficient : Nat) : Scan :=
  let scale := if st.pointSeen then st.scale + 1 else 0
  { digitSeen := true
    pointSeen := st.pointSeen
    coefficient
    scale
    full := st.pointSeen && maxScale ≤ scale
    wide := wideFrom ≤ st.coefficient }

/-- Coefficient and scale of the characters that remain. An underscore where places end drops the
rest, but in a wide coefficient it is passed over. -/
def run : List Char → Scan → Option (Nat × Nat)
  | [], st => if st.digitSeen then some (st.coefficient, st.scale) else none
  | c :: rest, st =>
    if st.full then
      match digit? c with
      | some d => if isTail rest then st.roundOn d else none
      | none =>
        if c != '_' then none
        else if st.wide then run rest st
        else if isTail rest then st.roundOn 0
        else none
    else
      match digit? c with
      | some d =>
        let next := 10 * st.coefficient + d
        if next < limit then run rest (st.push next)
        else if st.pointSeen && isTail rest then st.roundOn d
        else none
      | none =>
        if c == '.' && !st.pointSeen then run rest { st with pointSeen := true }
        else if c == '_' && st.digitSeen then run rest st
        else none

end Scan

def readPlain? (cs : List Char) : Option Decimal := do
  let (negative, body) := match cs with
    | '-' :: rest => (true, rest)
    | '+' :: rest => (false, rest)
    | _ => (false, cs)
  let (coefficient, scale) ← Scan.run body .start
  ofParts? negative coefficient scale

/-- The number divided by ten to the power `k`, with places rounded away that would pass 28. -/
def shiftRight (d : Decimal) (k : Fin 29) : Decimal :=
  if h : d.scale + k ≤ 28 then
    { d with scale := d.scale + k, scale_le := h }
  else
    { d.rescale (28 - k) with scale := 28, scale_le := by decide }

/-- The number times ten to the power `k`: places are used up first, then zeros are appended. -/
def shiftLeft? (d : Decimal) (k : Nat) : Option Decimal :=
  if k ≤ d.scale then
    some { d with scale := d.scale - k, scale_le := by have := d.scale_le; omega }
  else do
    let grown ← ofParts? d.negative (d.coefficient * 10 ^ (k - d.scale)) 0
    return grown.normalize

def readScientific? (cs : List Char) : Option Decimal :=
  let isMark (c : Char) : Bool := c == 'e' || c == 'E'
  match cs.dropWhile (fun c => !isMark c) with
  | [] => none
  | _ :: exponent => do
    let base ← readPlain? (cs.takeWhile (fun c => !isMark c))
    match exponent with
    | '-' :: magnitude =>
      let k ← (Text.readNat (2 ^ 32 - 1) magnitude).toOption
      if h : k < 29 then return base.shiftRight ⟨k, h⟩ else none
    | magnitude =>
      let k ← (Text.readNat (2 ^ 32 - 1) magnitude).toOption
      if k < 29 then base.shiftLeft? k else none

def read? (cs : List Char) : Option Decimal := readPlain? cs <|> readScientific? cs

def ofString? (s : String) : Option Decimal := read? s.toList

end SpendingLedger.Decimal
