/-!
Percent encoding: a percent sign and two hexadecimal digits stand for a byte, everything else for
its own bytes.
-/

namespace SpendingLedger.Text

/-- The value of a hexadecimal digit, given as a byte. -/
def hexByte? (b : UInt8) : Option UInt8 :=
  if 0x30 ≤ b ∧ b ≤ 0x39 then some (b - 0x30)
  else if 0x41 ≤ b ∧ b ≤ 0x46 then some (b - 0x37)
  else if 0x61 ≤ b ∧ b ≤ 0x66 then some (b - 0x57)
  else none

/-- The bytes that an encoded text stands for. A percent sign without two digits stands for
itself. -/
def percentDecode : List UInt8 → List UInt8
  | 0x25 :: a :: b :: rest =>
    match hexByte? a, hexByte? b with
    | some x, some y => (x * 16 + y) :: percentDecode rest
    | _, _ => 0x25 :: percentDecode (a :: b :: rest)
  | b :: rest => b :: percentDecode rest
  | [] => []

/-- The text that an encoded text stands for, if its bytes are UTF-8. -/
def percentDecoded? (s : String) : Option String :=
  String.fromUTF8? ⟨(percentDecode s.toUTF8.toList).toArray⟩

end SpendingLedger.Text
