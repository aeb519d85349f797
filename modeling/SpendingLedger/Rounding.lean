/-!
Rounding a quotient of natural numbers to a whole number.
-/

namespace SpendingLedger

/-- The quotient rounded to the nearest whole number, a half to the even one. -/
def halfEven (n d : Nat) : Nat :=
  let q := n / d
  let r := n % d
  if d < 2 * r ∨ (d = 2 * r ∧ q % 2 = 1) then q + 1 else q

end SpendingLedger
