import SpendingLedger.Text.Blank
import SpendingLedger.Text.Integer
import SpendingLedger.Timestamp.Basic

/-!
Reading an instant in a relaxed form of RFC 3339: numbers need no leading zeros, white space may
stand before a number, a dash or a colon and around the offset, a year may have a sign and then any
number of digits, `t` or a space may divide date and time, and the offset may be `UTC` or lack its
colon. Digits of a second beyond the ninth place are dropped.
-/

namespace SpendingLedger.Timestamp

open Text (digit? trimStart)

def isDecimal (c : Char) : Bool := (digit? c).isSome

def valueOf (digits : List Char) : Nat :=
  (digits.filterMap digit?).foldl (fun n d => 10 * n + d) 0

/-- Reads a number of one to `width` digits. -/
def number? (width : Nat) (cs : List Char) : Option (Nat × List Char) :=
  let digits := (cs.take width).takeWhile isDecimal
  if digits.isEmpty then none else some (valueOf digits, cs.drop digits.length)

/-- Reads a year: up to four digits, or a sign and any number of them. -/
def year? (cs : List Char) : Option (Int × List Char) := do
  match trimStart cs with
  | '-' :: rest => let (n, rest) ← number? rest.length rest; return (-n, rest)
  | '+' :: rest => let (n, rest) ← number? rest.length rest; return (n, rest)
  | rest => let (n, rest) ← number? 4 rest; return (n, rest)

/-- Reads a number of one or two digits after white space. -/
def pair? (cs : List Char) : Option (Nat × List Char) := number? 2 (trimStart cs)

/-- Reads a character after white space. -/
def mark? (c : Char) (cs : List Char) : Option (List Char) :=
  match trimStart cs with
  | d :: rest => if d == c then some rest else none
  | [] => none

def date? (cs : List Char) : Option (Date × List Char) := do
  let (year, cs) ← year? cs
  let (month, cs) ← pair? (← mark? '-' cs)
  let (day, cs) ← pair? (← mark? '-' cs)
  return (← Date.of? year month day, cs)

/-- Reads the fraction of a second, in nanoseconds. Without a point it is zero. -/
def fraction? (cs : List Char) : Option (Nat × List Char) :=
  match cs with
  | '.' :: rest =>
    let digits := rest.takeWhile isDecimal
    if digits.isEmpty then none
    else
      some (valueOf (digits.take 9) * 10 ^ (9 - digits.length), rest.dropWhile isDecimal)
  | _ => some (0, cs)

def time? (cs : List Char) : Option (TimeOfDay × List Char) := do
  let (hour, cs) ← pair? cs
  let (minute, cs) ← pair? (← mark? ':' cs)
  let (second, cs) ← pair? (← mark? ':' cs)
  let (nanos, cs) ← fraction? cs
  return (← TimeOfDay.of? hour minute second nanos, cs)

/-- Reads exactly two digits. -/
def twoDigits? (cs : List Char) : Option (Nat × List Char) :=
  match cs with
  | a :: b :: rest => do return (10 * (← digit? a) + (← digit? b), rest)
  | _ => none

/-- Reads hours and minutes of an offset, with any colons and white space between them. -/
def span? (cs : List Char) : Option (Nat × List Char) := do
  let (hours, cs) ← twoDigits? cs
  let (minutes, cs) ← twoDigits? (cs.dropWhile (fun c => c == ':' || Text.isBlank c))
  if minutes < 60 ∧ hours < 24 then return (hours * 60 + minutes, cs) else none

/-- Reads an offset from universal time, in minutes. -/
def offset? (cs : List Char) : Option (Int × List Char) :=
  match cs with
  | 'Z' :: rest | 'z' :: rest => some (0, rest)
  | '+' :: rest => (span? rest).map (fun (n, rest) => ((n : Int), rest))
  | '-' :: rest | '\u2212' :: rest => (span? rest).map (fun (n, rest) => (-(n : Int), rest))
  | a :: b :: c :: rest =>
    if [a, b, c].map Char.toUpper == ['U', 'T', 'C'] then some (0, rest) else none
  | _ => none

def read? (cs : List Char) : Option Timestamp := do
  let (date, cs) ← date? cs
  match cs with
  | [] => none
  | c :: cs =>
    if c == 't' || c == 'T' || c == ' ' then
      let (time, cs) ← time? cs
      let (offset, cs) ← offset? (trimStart cs)
      if (trimStart cs).isEmpty then ofLocal? date time offset else none
    else none

end SpendingLedger.Timestamp
