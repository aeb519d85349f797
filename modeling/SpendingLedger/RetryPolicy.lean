import SpendingLedger.Delivery

/-!
How often a failing message is handed out before it is set aside.
-/

namespace SpendingLedger

/-- What came of handling a message. -/
inductive Verdict where
  | done
  /-- Handling may succeed another time. -/
  | transient (reason : String)
  /-- Handling can never succeed. -/
  | permanent (reason : String)
deriving DecidableEq, Repr

/-- A failure in words; nothing for success. -/
def Verdict.message? : Verdict → Option String
  | .done => none
  | .transient reason => some s!"Transient failure: {reason}"
  | .permanent reason => some s!"Permanent failure: {reason}"

/-- A bound on the deliveries of a message; without one it is handed out for ever. -/
structure RetryPolicy where
  limit : Option UInt32
deriving DecidableEq, Repr

namespace RetryPolicy

def unbounded : RetryPolicy := ⟨none⟩

/-- At most `n` deliveries, and at least one. -/
def bounded (n : UInt32) : RetryPolicy := ⟨some (max n 1)⟩

/-- At most `n` deliveries; zero stands for no bound. -/
def ofLimit (n : UInt32) : RetryPolicy := if n = 0 then unbounded else bounded n

def standard : RetryPolicy := bounded 5

/-- Whether a message that failed on delivery `count` has had its last chance. -/
def IsExhausted (p : RetryPolicy) (count : UInt32) : Prop :=
  match p.limit with
  | none => False
  | some n => n ≤ count

instance (p : RetryPolicy) (count : UInt32) : Decidable (p.IsExhausted count) := by
  unfold IsExhausted
  split <;> infer_instance

/-- How a message is settled that was handled on delivery `count`. -/
def settlement (p : RetryPolicy) (count : UInt32) : Verdict → Settlement
  | .done => .acknowledge
  | .permanent reason => .setAside reason
  | .transient reason =>
    if p.IsExhausted count then
      .setAside s!"gave up after {Text.ofInt count.toNat} deliveries: {reason}"
    else .requeue

end RetryPolicy

end SpendingLedger
