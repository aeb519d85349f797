import SpendingLedger.Decimal.Basic
import SpendingLedger.Text.Integer

/-!
The text of a decimal: its digits with a point before the last `scale` of them. `toText` keeps
the scale of the value, `toFixed` shows a given number of places by cutting off or appending
digits, without rounding.
-/

namespace SpendingLedger.Decimal

open Text (digits paddedDigits)

/-- The part before the point. -/
def wholeText (d : Decimal) : List Char := digits (d.coefficient / 10 ^ d.scale)

/-- The places after the point, without the point. -/
def placesText (d : Decimal) : List Char :=
  if d.scale = 0 then [] else paddedDigits d.scale (d.coefficient % 10 ^ d.scale)

/-- Joins sign, whole part and places; the point appears only before at least one place. -/
def assemble (negative : Bool) (whole places : List Char) : String :=
  String.ofList ((if negative then ['-'] else []) ++ whole
    ++ (if places.isEmpty then [] else '.' :: places))

def toText (d : Decimal) : String := assemble d.negative d.wholeText d.placesText

/-- The text of a decimal with exactly `places` places: further ones are cut off, missing ones
are zeros. -/
def toFixed (d : Decimal) (places : Nat) : String :=
  assemble d.negative d.wholeText
    (d.placesText.take places ++ List.replicate (places - d.scale) '0')

instance : ToString Decimal := ⟨toText⟩

end SpendingLedger.Decimal
