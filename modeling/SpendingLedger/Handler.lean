import SpendingLedger.Statistics

/-!
What messages are handed to: the statistics, or verdicts laid out for them beforehand, one for each
message; when these are used up, messages count as done.
-/

namespace SpendingLedger

structure Handler where
  statistics : Statistics := {}
  /-- Verdicts to be given in place of those of the statistics. -/
  verdicts : Option (List Verdict) := none

namespace Handler

def count (h : Handler) (d : Delivery) : Verdict × List Notice × Handler :=
  let handled := h.statistics.handle d
  (handled.verdict, [handled.notice], { h with statistics := handled.statistics })

/-- Handles a message: its verdict, what to report, and the handler afterwards. -/
def handle (h : Handler) (d : Delivery) : Verdict × List Notice × Handler :=
  match h.verdicts with
  | none => h.count d
  | some [] => (.done, [], h)
  | some (v :: rest) => (v, [], { h with verdicts := some rest })

end Handler

end SpendingLedger
