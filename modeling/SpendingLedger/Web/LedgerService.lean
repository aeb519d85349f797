import SpendingLedger.Accounting
import SpendingLedger.Text.Blank
import SpendingLedger.Web.MediaType
import SpendingLedger.Web.Problem

/-!
The ledger over HTTP. Every path but `/health` first asks who is calling; the caller then acts for
itself only. Requests are reported as they arrive and as they are completed.
-/

namespace SpendingLedger.Web.LedgerService

/-! ### Callers -/

/-- The header that names the caller. -/
def userHeader : String := "X-User-Id"

/-- The header that says how many milliseconds the request may take. -/
def timeoutHeader : String := "X-Request-Timeout-Ms"

/-- A header that can be read as text. -/
def readable? (value : Option String) : Option String := value.filter isReadable

/-- The caller of a request. -/
def caller (r : Request) : Except Problem UserId :=
  match readable? (r.header? (lowerCase userHeader)) with
  | none => .error (.missingHeader userHeader)
  | some value =>
    match Text.readInt64 (Text.trim value.toList) with
    | .error fault => .error (.invalidHeader userHeader fault.message)
    | .ok n =>
      match UserId.of? n with
      | some u => .ok u
      | none => .error (.invalidHeader userHeader (UserId.refusal n))

/-- The time a request may take. -/
def budget (standard : Span) (r : Request) : Except Problem Span :=
  match r.header? (lowerCase timeoutHeader) with
  | none => .ok standard
  | some value =>
    let millis := (readable? (some value)).bind
      (fun v => (Text.readNat (2 ^ 64 - 1) (Text.trim v.toList)).toOption)
    match millis.filter (0 < ·) with
    | some n => .ok (.ofMillis n)
    | none => .error (.invalidHeader timeoutHeader "expected positive milliseconds")

/-- Who asks and how long it may take. -/
def identify (standard : Span) (r : Request) : Except Problem Context := do
  let user ← caller r
  return { caller := some user, budget := some (← budget standard r) }

/-! ### What is asked for -/

/-- What a response is made of when a request does not get as far as the ledger. -/
inductive Refusal where
  | problem (p : Problem)
  /-- A bare status. -/
  | bare (status : Nat)

/-- The user that a query names. -/
def queriedUser (r : Request) : Except Refusal Int64 :=
  match queryValues "user_id" r.query with
  | [] => .error (.problem (.invalidRequest "user_id query parameter required"))
  | [value] =>
    match value.map (fun v => Text.readInt64 (Text.trim v.toList)) with
    | some (.ok n) => .ok n
    | _ => .error (.problem (.invalidRequest "invalid user_id"))
  | _ => .error (.bare 400)

/-- A body may have this many bytes. -/
def maxBodySize : Nat := 2097152

/-- The transaction that bytes ask for. What follows the JSON value is not looked at. -/
def readEntry (body : ByteArray) : Except Refusal Command :=
  match Command.record.ofTokens (Json.tokens (Json.textOfLooseBytes body)) with
  | .ok (c, _) => .ok c
  | .error .malformed => .error (.bare 400)
  | .error _ => .error (.bare 422)

/-- The transaction that a request asks for. -/
def requestedEntry (r : Request) : Except Refusal Command :=
  match readable? (r.header? "content-type") with
  | some type =>
    if MediaType.isJson type then
      if r.body.size ≤ maxBodySize then readEntry r.body else .error (.bare 413)
    else .error (.bare 415)
  | none => .error (.bare 415)

/-! ### Routes -/

inductive Operation where
  | create
  | list
  | pay
  | total
deriving DecidableEq, Repr

inductive Route where
  | operation (o : Operation)
  | methodNotAllowed
  | notFound
deriving DecidableEq, Repr

/-- The operation that the head of a path is asked of, if there is one. -/
def readOperation? (path : String) : Option Operation :=
  if path == "/transactions" then some .list
  else if path == "/transactions/total" then some .total
  else none

/-- The operation that is sent to a path, if there is one. -/
def writeOperation? (path : String) : Option Operation :=
  if path == "/transactions" then some .create
  else if path == "/transactions/pay" then some .pay
  else none

/-- Where a request goes by its method and path. -/
def route (method path : String) : Route :=
  let found := if method == "GET" || method == "HEAD" then readOperation? path
    else if method == "POST" then writeOperation? path
    else none
  match found with
  | some o => .operation o
  | none =>
    if (readOperation? path).isSome || (writeOperation? path).isSome then .methodNotAllowed
    else .notFound

variable {m : Type → Type} [Monad m] [Bookkeeping m] [Announcing m] [Reporting m]

/-- Answers with a refusal. -/
def refuse : Refusal → m Response
  | .problem p => p.answer
  | .bare status => return .bare status

/-- Answers with the result of an operation. -/
def conclude {α : Type} (render : α → Response) : Except LedgerError α → m Response
  | .ok v => return render v
  | .error e => (Problem.ledger e).answer

/-- Carries out an operation. -/
def perform (cap : Decimal) (context : Context) (r : Request) : Operation → m Response
  | .create =>
    match requestedEntry r with
    | .error e => refuse e
    | .ok command => do
      conclude (fun t => ⟨201, .json t.toJson⟩) (← Accounting.create cap context command)
  | .list =>
    match queriedUser r with
    | .error e => refuse e
    | .ok user => do
      conclude (fun ts => .ok (.array (ts.map Transaction.toJson)))
        (← Accounting.list context user)
  | .pay =>
    match queriedUser r with
    | .error e => refuse e
    | .ok user => do
      conclude (fun p => .ok (.object [("message", .text "All transactions paid"),
        ("paid_count", .natural p.paidCount)])) (← Accounting.pay context user)
  | .total =>
    match queriedUser r with
    | .error e => refuse e
    | .ok user => do
      conclude (fun total => .ok (.object [("user_id", .integer user),
        ("current_total", .text total.toText), ("max_allowed", .text cap.toText)]))
        (← Accounting.total context user)

/-- Answers a request of a known caller. -/
def dispatch (cap : Decimal) (context : Context) (r : Request) : m Response :=
  match route r.method r.path with
  | .operation o => perform cap context r o
  | .methodNotAllowed => return .bare 405
  | .notFound => return .bare 404

/-- Answers a request for anything but the state of health. -/
def answer (cap : Decimal) (standard : Span) (r : Request) : m Response := do
  let response ← match identify standard r with
    | .error p => p.answer
    | .ok context => dispatch cap context r
  if r.method == "HEAD" && (readOperation? r.path).isSome then return response.withoutBody
  else return response

/-- The state of health, which needs no caller. -/
def health (method : String) : Response :=
  if method == "GET" then ⟨200, .text "OK"⟩
  else if method == "HEAD" then ⟨200, .text ""⟩
  else .bare 405

def respond (cap : Decimal) (standard : Span) (r : Request) : m Response := do
  if r.path == "/health" then return health r.method
  else
    Reporting.report (.requestArrived r.method r.uri)
    let response ← answer cap standard r
    Reporting.report (.requestCompleted r.method r.uri (statusText response.status))
    return response

end SpendingLedger.Web.LedgerService
