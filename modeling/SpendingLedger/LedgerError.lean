import SpendingLedger.Amount
import SpendingLedger.Span
import SpendingLedger.UserId

/-!
Why an operation on the ledger failed.
-/

namespace SpendingLedger

/-- Why the store of the ledger gave no result. -/
inductive StoreFault where
  | unavailable
  | database
  /-- A row on record breaks a rule of the domain. -/
  | invalidRow (reason : String)
deriving DecidableEq, Repr

/-- The wording of a store fault. What a database says is not repeated. -/
def StoreFault.message : StoreFault → String
  | .unavailable => "Store unavailable"
  | .database => "Database error"
  | .invalidRow reason => s!"Invalid row data: {reason}"

/-- Why an operation failed. -/
inductive LedgerError where
  | invalidAmount (reason : String)
  | invalidUser (value : Int64)
  | unauthorized (reason : String)
  /-- The amount would take the user's total over the cap. -/
  | capExceeded (total requested cap : Decimal)
  | store (fault : StoreFault)
  /-- The store did not answer within the time given. -/
  | timedOut (budget : Span)
  /-- The store did not answer, and no time was set. -/
  | unanswered
deriving DecidableEq

namespace LedgerError

def message : LedgerError → String
  | invalidAmount reason => s!"Invalid amount: {reason}"
  | invalidUser value => UserId.refusal value
  | unauthorized reason => s!"Unauthorized: {reason}"
  | capExceeded total requested cap =>
    s!"Total amount exceeds maximum: current total {total.toFixed 2}, requested " ++
      s!"{requested.toFixed 2}, max {cap.toFixed 2}"
  | store fault => fault.message
  | timedOut budget => s!"Operation timed out after {budget.toText}"
  | unanswered => "Operation not answered"

/-- Whether the request itself was malformed. -/
def IsValidation : LedgerError → Prop
  | invalidAmount _ | invalidUser _ => True
  | _ => False

instance : DecidablePred IsValidation := fun e => by
  cases e <;> unfold IsValidation <;> infer_instance

/-- The error of a decimal that is no amount. -/
def ofRefusal (r : Amount.Refusal) : LedgerError := invalidAmount r.message

end LedgerError

end SpendingLedger
