import SpendingLedger.Binary64

/-!
Lengths of time, counted in nanoseconds.
-/

namespace SpendingLedger

structure Span where
  nanos : Nat
deriving DecidableEq, Repr

namespace Span

instance : Inhabited Span := ⟨⟨0⟩⟩

def ofSeconds (n : Nat) : Span := ⟨n * 1000000000⟩

def ofMillis (n : Nat) : Span := ⟨n * 1000000⟩

/-- Whole seconds, cut off. -/
def wholeSeconds (s : Span) : Nat := s.nanos / 1000000000

/-- Whole thousandths of a second, cut off. -/
def wholeMillis (s : Span) : Nat := s.nanos / 1000000

/-- The digits after the point without trailing zeros, and the point before them. -/
def fraction (places n : Nat) : List Char :=
  match ((Text.paddedDigits places n).reverse.dropWhile (· == '0')).reverse with
  | [] => []
  | digits => '.' :: digits

/-- The span in units of ten to the power `places` nanoseconds, exactly. -/
def inUnit (s : Span) (places : Nat) : List Char :=
  Text.digits (s.nanos / 10 ^ places) ++ fraction places (s.nanos % 10 ^ places)

/-- The text of a span in the largest unit of which it holds at least one, or else in
nanoseconds. -/
def toText (s : Span) : String :=
  String.ofList <|
    if 1000000000 ≤ s.nanos then s.inUnit 9 ++ ['s']
    else if 1000000 ≤ s.nanos then s.inUnit 6 ++ ['m', 's']
    else if 1000 ≤ s.nanos then s.inUnit 3 ++ ['µ', 's']
    else s.inUnit 0 ++ ['n', 's']

/-- The seconds of a span as a binary number: whole seconds and the rest are each rounded, then
their sum. -/
def seconds? (s : Span) : Option Binary64 := do
  let whole ← Binary64.ofRatio? s.wholeSeconds 1
  let rest ← Binary64.ofRatio? (s.nanos % 1000000000) 1000000000
  whole.add? rest

end Span

end SpendingLedger
