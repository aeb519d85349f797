import SpendingLedger.Instances

/-!
Instants in universal time: a date of the Gregorian calendar, extended to all years in range, and
a time of day to the nanosecond. A leap second is counted with the second before it, which then has
a thousand million nanoseconds or more. Clocks have them after second 59; a time of day may have one
after any second.
-/

namespace SpendingLedger

/-- Whether a year has a 29th of February. -/
def isLeapYear (year : Int) : Bool :=
  year % 4 == 0 && (year % 100 != 0 || year % 400 == 0)

/-- The number of days of a month, counted from 1. -/
def daysInMonth (year : Int) (month : Nat) : Nat :=
  if month == 2 then (if isLeapYear year then 29 else 28)
  else if month == 4 || month == 6 || month == 9 || month == 11 then 30
  else 31

/-- A day of the calendar, in the years that dates can have. -/
structure Date where
  year : Int
  month : Nat
  day : Nat
  year_mem : -262143 ≤ year ∧ year ≤ 262142
  month_mem : 1 ≤ month ∧ month ≤ 12
  day_mem : 1 ≤ day ∧ day ≤ daysInMonth year month
deriving DecidableEq

namespace Date

/-- The date with these numbers, if there is one. -/
def of? (year : Int) (month day : Nat) : Option Date :=
  if h : (-262143 ≤ year ∧ year ≤ 262142) ∧ (1 ≤ month ∧ month ≤ 12) ∧
      (1 ≤ day ∧ day ≤ daysInMonth year month) then
    some ⟨year, month, day, h.1, h.2.1, h.2.2⟩
  else none

def next? (d : Date) : Option Date :=
  of? d.year d.month (d.day + 1) <|> of? d.year (d.month + 1) 1 <|> of? (d.year + 1) 1 1

def previous? (d : Date) : Option Date :=
  if 1 < d.day then of? d.year d.month (d.day - 1)
  else if 1 < d.month then of? d.year (d.month - 1) (daysInMonth d.year (d.month - 1))
  else of? (d.year - 1) 12 31

end Date

structure TimeOfDay where
  hour : Nat
  minute : Nat
  second : Nat
  nanos : Nat
  hour_lt : hour < 24
  minute_lt : minute < 60
  second_lt : second < 60
  nanos_lt : nanos < 2000000000
deriving DecidableEq

/-- The time with these numbers, if there is one. A second 60 is the leap second after 59. -/
def TimeOfDay.of? (hour minute second nanos : Nat) : Option TimeOfDay :=
  let (second, nanos) := if second = 60 then (59, nanos + 1000000000) else (second, nanos)
  if h : hour < 24 ∧ minute < 60 ∧ second < 60 ∧ nanos < 2000000000 then
    some ⟨hour, minute, second, nanos, h.1, h.2.1, h.2.2.1, h.2.2.2⟩
  else none

/-- An instant in universal time. -/
structure Timestamp where
  date : Date
  time : TimeOfDay
deriving DecidableEq

namespace Timestamp

/-- The start of the year 1970. -/
def epoch : Timestamp where
  date := ⟨1970, 1, 1, by decide, by decide, by decide⟩
  time := ⟨0, 0, 0, 0, by decide, by decide, by decide, by decide⟩

instance : Inhabited Timestamp := ⟨epoch⟩

/-- The instant at which clocks `offset` minutes ahead of universal time show this date and time,
for offsets of less than a day. -/
def ofLocal? (date : Date) (time : TimeOfDay) (offset : Int) : Option Timestamp := do
  let minutes : Int := time.hour * 60 + time.minute - offset
  let date ←
    if minutes < 0 then date.previous?
    else if minutes < 1440 then some date
    else date.next?
  let minutes := (minutes % 1440).toNat
  let time ← TimeOfDay.of? (minutes / 60) (minutes % 60) time.second time.nanos
  return ⟨date, time⟩

end Timestamp

end SpendingLedger
