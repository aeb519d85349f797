import SpendingLedger.Text.Integer
import SpendingLedger.Timestamp.Basic

/-!
The text of an instant in RFC 3339 and universal time. Years outside 0 to 9999 have a sign; the
fraction of a second has the fewest of 0, 3, 6 or 9 places that lose nothing.
-/

namespace SpendingLedger.Timestamp

open Text (paddedDigits)

/-- A year with at least four digits. -/
def yearText (year : Int) : List Char :=
  let digits := paddedDigits 4 year.natAbs
  if 0 ≤ year ∧ year ≤ 9999 then digits else (if year < 0 then '-' else '+') :: digits

/-- The fraction of a second with its point. -/
def fractionText (nanos : Nat) : List Char :=
  if nanos = 0 then []
  else if nanos % 1000000 = 0 then '.' :: paddedDigits 3 (nanos / 1000000)
  else if nanos % 1000 = 0 then '.' :: paddedDigits 6 (nanos / 1000)
  else '.' :: paddedDigits 9 nanos

/-- A date with dashes. -/
def dateText (d : Date) : List Char :=
  yearText d.year ++ '-' :: paddedDigits 2 d.month ++ '-' :: paddedDigits 2 d.day

/-- A time of day with colons. A leap second is written as the second that follows the one it is
counted with, as 60 after 59. -/
def timeText (t : TimeOfDay) : List Char :=
  paddedDigits 2 t.hour ++ ':' :: paddedDigits 2 t.minute ++
    ':' :: paddedDigits 2 (t.second + t.nanos / 1000000000) ++
    fractionText (t.nanos % 1000000000)

def print (t : Timestamp) : List Char := dateText t.date ++ 'T' :: timeText t.time ++ ['Z']

def toText (t : Timestamp) : String := String.ofList t.print

end SpendingLedger.Timestamp
