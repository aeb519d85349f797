import SpendingLedger.Rounding
import SpendingLedger.Decimal.Printer

/-!
Finite binary floating-point numbers of 64 bits, computed exactly on natural numbers: rounding of
a ratio to the nearest number (a half to the even significand), products, quotients and sums, and
the shortest text that reads back.
-/

namespace SpendingLedger

/-- A finite number `mantissa * 2 ^ exponent` with a sign. The operations below keep
`mantissa < 2 ^ 53` and `-1074 ≤ exponent`, and the mantissa full unless the exponent is least. -/
structure Binary64 where
  negative : Bool
  mantissa : Nat
  exponent : Int
deriving DecidableEq, Repr

namespace Binary64

def minExponent : Int := -1074

/-- The greatest exponent of a full mantissa. -/
def maxExponent : Int := 971

/-- The ratio `num / den` counted in units of two to the power `e`, as a ratio again. -/
def scaled (num den : Nat) (e : Int) : Nat × Nat :=
  if 0 ≤ e then (num, den * 2 ^ e.toNat) else (num * 2 ^ (-e).toNat, den)

/-- The nonnegative number nearest to `num / den`, or `none` beyond the greatest one. -/
def ofRatio? (num den : Nat) : Option Binary64 :=
  if num = 0 then some ⟨false, 0, minExponent⟩
  else
    -- the quotient at this exponent lies between `2 ^ 52` and `2 ^ 54`
    let guess : Int := (num.log2 : Int) - den.log2 - 53
    let (n, d) := scaled num den guess
    let e := max minExponent (if n / d < 2 ^ 53 then guess else guess + 1)
    let (n, d) := scaled num den e
    let m := halfEven n d
    let (m, e) := if m = 2 ^ 53 then (2 ^ 52, e + 1) else (m, e)
    if maxExponent < e then none else some ⟨false, m, e⟩

def ratio (x : Binary64) : Nat × Nat :=
  if 0 ≤ x.exponent then (x.mantissa * 2 ^ x.exponent.toNat, 1)
  else (x.mantissa, 2 ^ (-x.exponent).toNat)

def neg (x : Binary64) : Binary64 := { x with negative := !x.negative }

/-- The product of two magnitudes. -/
def mul? (x y : Binary64) : Option Binary64 :=
  ofRatio? (x.ratio.1 * y.ratio.1) (x.ratio.2 * y.ratio.2)

/-- The quotient of two magnitudes, the second not zero. -/
def div? (x y : Binary64) : Option Binary64 :=
  ofRatio? (x.ratio.1 * y.ratio.2) (x.ratio.2 * y.ratio.1)

/-- The sum of two magnitudes. -/
def add? (x y : Binary64) : Option Binary64 :=
  ofRatio? (x.ratio.1 * y.ratio.2 + y.ratio.1 * x.ratio.2) (x.ratio.2 * y.ratio.2)

def powTen? (k : Nat) : Option Binary64 := ofRatio? (10 ^ k) 1

/-- The greatest power of ten in range. -/
def maxPower : Nat := 308

/-- `x` times ten to the power `e`, by one multiplication or division when the power is in range.
A smaller power is reached by dividing by the greatest one first. `none` beyond the greatest
number. -/
def shift? (x : Binary64) (e : Int) : Option Binary64 :=
  if e.natAbs ≤ maxPower then do
    let p ← powTen? e.natAbs
    if 0 ≤ e then x.mul? p else x.div? p
  else if x.mantissa = 0 then some x
  else if _h : 0 ≤ e then none
  else do
    let p ← powTen? maxPower
    shift? (← x.div? p) (e + maxPower)
termination_by e.natAbs
decreasing_by
  simp only [maxPower] at *
  omega

/-! ### The shortest text that reads back -/

/-- Twice the number and its neighbours' midpoints: the decimals strictly between `low` and `high`
(in units of `unit`) read back as the number, and the ends too when `closed`. -/
structure Cell where
  low : Nat
  value : Nat
  high : Nat
  unit : Int
  closed : Bool

/-- The reals that round to the magnitude of `x`, in quarters of its last place. -/
def cell (x : Binary64) : Cell where
  low := 4 * x.mantissa - (if x.mantissa = 2 ^ 52 ∧ minExponent < x.exponent then 1 else 2)
  value := 4 * x.mantissa
  high := 4 * x.mantissa + 2
  unit := x.exponent - 2
  closed := x.mantissa % 2 == 0

/-- Whether `q` times ten to the power `p` reads back; both sides counted over one denominator. -/
def Cell.holds (c : Cell) (q : Nat) (p : Int) : Bool :=
  let grid := q * 10 ^ p.toNat * 2 ^ (-c.unit).toNat
  let common (n : Nat) : Nat := n * 2 ^ c.unit.toNat * 10 ^ (-p).toNat
  if c.closed then common c.low ≤ grid && grid ≤ common c.high
  else common c.low < grid && grid < common c.high

/-- The multiple of ten to the power `p` nearest to the value among those that read back; of two
equally near ones the greater. -/
def Cell.nearest? (c : Cell) (p : Int) : Option Nat :=
  let num := c.value * 2 ^ c.unit.toNat * 10 ^ (-p).toNat
  let den := 10 ^ p.toNat * 2 ^ (-c.unit).toNat
  let below := num / den
  match c.holds below p, c.holds (below + 1) p with
  | true, true => some (if 2 * (num % den) < den then below else below + 1)
  | true, false => some below
  | false, true => some (below + 1)
  | false, false => none

/-- Digits `q` and a power of ten `p`: the coarsest decimal that reads back as the magnitude. -/
def shortest (x : Binary64) : Nat × Int :=
  let bits : Int := x.mantissa.log2 + x.exponent
  let top : Int := bits * 30103 / 100000 + 2
  let powers := (List.range 24).map (fun (i : Nat) => top - i)
  (powers.findSome? (fun p => (x.cell.nearest? p).map (fun q => (q, p)))).getD (0, 0)

/-- The shortest text that reads back, in positional notation, without a point if it is whole. -/
def toText (x : Binary64) : String :=
  if x.mantissa = 0 then Decimal.assemble x.negative ['0'] []
  else
    let (q, p) := x.shortest
    if 0 ≤ p then
      Decimal.assemble x.negative (Text.digits (q * 10 ^ p.toNat)) []
    else
      let places := (-p).toNat
      Decimal.assemble x.negative (Text.digits (q / 10 ^ places))
        (Text.paddedDigits places (q % 10 ^ places))

end Binary64

end SpendingLedger
