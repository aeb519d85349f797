import SpendingLedger.LedgerError
import SpendingLedger.Notice
import SpendingLedger.Web.Message

/-!
Requests that are answered with an error, and how the answer looks.
-/

namespace SpendingLedger.Web

inductive Problem where
  | invalidRequest (reason : String)
  | missingHeader (name : String)
  | invalidHeader (name reason : String)
  | notFound (what : String)
  | ledger (e : LedgerError)
deriving DecidableEq

namespace Problem

def message : Problem → String
  | invalidRequest reason => s!"Invalid request: {reason}"
  | missingHeader name => s!"Missing required header: {name}"
  | invalidHeader name reason => s!"Invalid header {name}: {reason}"
  | notFound what => s!"Not found: {what}"
  | ledger (.store _) => "Storage error"
  | ledger (.timedOut _) | ledger .unanswered => "Operation timed out"
  | ledger e => e.message

def status : Problem → Nat
  | missingHeader _ => 401
  | notFound _ => 404
  | ledger (.unauthorized _) => 403
  | ledger (.store _) => 500
  | ledger (.timedOut _) | ledger .unanswered => 504
  | _ => 400

def code : Problem → String
  | invalidRequest _ => "invalid_request"
  | missingHeader _ => "missing_header"
  | invalidHeader .. => "invalid_header"
  | notFound _ => "not_found"
  | ledger (.invalidAmount _) => "invalid_amount"
  | ledger (.invalidUser _) => "invalid_user_id"
  | ledger (.unauthorized _) => "unauthorized"
  | ledger (.capExceeded ..) => "capacity_exceeded"
  | ledger (.store _) => "store_error"
  | ledger (.timedOut _) | ledger .unanswered => "timeout"

/-- What the problem is about. -/
def details? : Problem → Option String
  | invalidRequest reason => some reason
  | missingHeader name => some name
  | invalidHeader name _ => some name
  | notFound what => some what
  | ledger (.invalidAmount reason) => some reason
  | ledger (.invalidUser value) => some (Text.ofInt value.toInt)
  | ledger (.unauthorized reason) => some reason
  | ledger _ => none

/-- A sum of money with two places, as far as its digits allow. -/
def money (d : Decimal) : Json :=
  Json.text (d.rescale ⟨2, Nat.lt_succ_of_le Decimal.two_le_maxScale⟩).toText

/-- The sums behind a refusal for lack of room. -/
def sums : Problem → List (String × Json)
  | ledger (.capExceeded total _ cap) =>
    [("current_total", money total), ("max_allowed", money cap)]
  | _ => []

/-- The response to a request with a problem. -/
def response (p : Problem) : Response where
  status := p.status
  body := .json (.object ([("error", .text p.message), ("error_code", .text p.code)] ++
    (p.details?.map (fun d => ("details", Json.text d))).toList ++ p.sums))

/-- What is reported of a problem. -/
def notices : Problem → List Notice
  | ledger (.store _) => [.storeFailed]
  | _ => []

variable {m : Type → Type} [Monad m] [Reporting m]

def answer (p : Problem) : m Response := do
  p.notices.forM Reporting.report
  return p.response

end Problem

end SpendingLedger.Web
