import SpendingLedger.Book
import SpendingLedger.Notice

/-!
The operations on the ledger: record a transaction, list, pay, and total. Each first checks what it
is given (the amount before the user, the user before the caller), then asks the store once, and
announces what it changed.
-/

namespace SpendingLedger

/-- Who asks, if that is known, and how long the store may take. -/
structure Context where
  caller : Option UserId := none
  budget : Option Span := none

/-- What a store says to a call: its answer, or nothing. -/
inductive StoreReply (α : Type) where
  | answered (r : Except StoreFault α)
  | silent

/-- Programs that keep a book. -/
class Bookkeeping (m : Type → Type) where
  insert : Entry → (cap : Decimal) → m (StoreReply Insertion)
  rowsOf : UserId → m (StoreReply (List Transaction))
  total : UserId → m (StoreReply Decimal)
  markPaid : UserId → m (StoreReply UInt64)

/-- Programs that have a clock and can set off the announcement of an event. -/
class Announcing (m : Type → Type) where
  now : m Timestamp
  announce : Event → m Unit

namespace Accounting

/-- The user of that number, if the caller may act for that user. -/
def authorize (context : Context) (user : UserId) : Except LedgerError Unit :=
  match context.caller with
  | none => .ok ()
  | some caller =>
    if caller = user then .ok ()
    else .error (.unauthorized
      s!"user {caller.toText} cannot access transactions of user {user.toText}")

/-- The user an operation is about. -/
def subject (context : Context) (value : Int64) : Except LedgerError UserId :=
  match UserId.of? value with
  | none => .error (.invalidUser value)
  | some user => do
    authorize context user
    return user

/-- The entry a command asks for. -/
def entryOf (context : Context) (c : Command) : Except LedgerError Entry :=
  match Amount.ofDecimal c.amount with
  | .error r => .error (.ofRefusal r)
  | .ok amount => do
    let user ← subject context c.user
    return ⟨user, amount, c.description⟩

/-- The result of a store call within the time given. An answer counts however late it is. -/
def within {α : Type} (context : Context) : StoreReply α → Except LedgerError α
  | .answered (.ok v) => .ok v
  | .answered (.error f) => .error (.store f)
  | .silent =>
    match context.budget with
    | some budget => .error (.timedOut budget)
    | none => .error .unanswered

variable {m : Type → Type} [Monad m] [Bookkeeping m] [Announcing m] [Reporting m]

/-- Records a transaction if it keeps the user's total within the cap. -/
def create (cap : Decimal) (context : Context) (c : Command) :
    m (Except LedgerError Transaction) := do
  match entryOf context c with
  | .error e => return .error e
  | .ok entry =>
    match within context (← Bookkeeping.insert entry cap) with
    | .error e => return .error e
    | .ok (.capExceeded total) =>
      Reporting.report (.capExceeded entry.user total entry.amount cap)
      return .error (.capExceeded total entry.amount.toDecimal cap)
    | .ok (.recorded t newTotal) =>
      Reporting.report (.transactionCreated { t with user := entry.user } newTotal)
      Announcing.announce (.ofTransaction t (← Announcing.now))
      return .ok t

/-- The transactions of a user, newest first. -/
def list (context : Context) (user : Int64) : m (Except LedgerError (List Transaction)) := do
  match subject context user with
  | .error e => return .error e
  | .ok user => return within context (← Bookkeeping.rowsOf user)

/-- Pays all unpaid transactions of a user. A payment of nothing is not announced. -/
def pay (context : Context) (user : Int64) : m (Except LedgerError Payment) := do
  match subject context user with
  | .error e => return .error e
  | .ok user =>
    match within context (← Bookkeeping.markPaid user) with
    | .error e => return .error e
    | .ok count =>
      Reporting.report (.transactionsPaid user count)
      if 0 < count then
        Announcing.announce (.paid user count (← Announcing.now))
      return .ok ⟨count⟩

/-- What a user has spent in all, paid or not. -/
def total (context : Context) (user : Int64) : m (Except LedgerError Decimal) := do
  match subject context user with
  | .error e => return .error e
  | .ok user => return within context (← Bookkeeping.total user)

end Accounting

end SpendingLedger
