import SpendingLedger.Book
import SpendingLedger.Database.Connection

/-!
The book in a database. The rows are one table; a second one keeps each user's total, and a row is
added in the transaction that raises the total, which does so only within the cap.
-/

namespace SpendingLedger.Database.Book

structure Record where
  id : Int64
  user : Int64
  amount : Decimal
  description : String
  isPaid : Bool
  createdAt : Timestamp
deriving DecidableEq

/-- Reads a row of the table of transactions. -/
def Record.ofRow? : Row → Option Record
  | [id, user, amount, description, isPaid, createdAt] => do
    return {
      id := ← id.int64?
      user := ← user.int64?
      amount := ← amount.decimal?
      description := ← description.text?
      isPaid := ← isPaid.truth?
      createdAt := ← createdAt.time? }
  | _ => none

def Record.toTransaction (r : Record) : Except StoreFault Transaction :=
  let invalid (reason : String) : StoreFault :=
    .invalidRow s!"transaction {Text.ofInt r.id.toInt}: {reason}"
  match UserId.of? r.user with
  | none => .error (invalid (UserId.refusal r.user))
  | some user =>
    match Amount.ofDecimal r.amount with
    | .error e => .error (invalid e.message)
    | .ok amount => .ok ⟨r.id, user, amount, r.description, r.isPaid, r.createdAt⟩

/-! ### Statements -/

/-- Raises the total of a user if it stays within the cap; the new total. -/
def raiseTotal (e : Entry) (cap : Decimal) : Statement where
  text := "INSERT INTO user_totals (user_id, total) SELECT $1, $2 WHERE $2 <= $3 " ++
    "ON CONFLICT (user_id) DO UPDATE SET total = user_totals.total + EXCLUDED.total, " ++
    "updated_at = NOW() WHERE user_totals.total + EXCLUDED.total <= $3 RETURNING total"
  params := [.integer e.user.value.toInt, .numeric e.amount.toDecimal, .numeric cap]

def readTotal (u : UserId) : Statement where
  text := "SELECT COALESCE((SELECT total FROM user_totals WHERE user_id = $1), 0)"
  params := [.integer u.value.toInt]

def addRow (e : Entry) : Statement where
  text := "INSERT INTO transactions (user_id, amount, description, is_paid) " ++
    "VALUES ($1, $2, $3, false) " ++
    "RETURNING id, user_id, amount, description, is_paid, created_at"
  params := [.integer e.user.value.toInt, .numeric e.amount.toDecimal, .text e.description]

/-- Reads the rows of a user, newest first. -/
def selectRows (u : UserId) : Statement where
  text := "SELECT id, user_id, amount, description, is_paid, created_at FROM transactions " ++
    "WHERE user_id = $1 ORDER BY created_at DESC, id DESC"
  params := [.integer u.value.toInt]

def sumRows (u : UserId) : Statement where
  text := "SELECT COALESCE(SUM(amount), 0) FROM transactions WHERE user_id = $1"
  params := [.integer u.value.toInt]

/-- Turns the unpaid rows of a user to paid. -/
def payRows (u : UserId) : Statement where
  text := "UPDATE transactions SET is_paid = true WHERE user_id = $1 AND is_paid = false"
  params := [.integer u.value.toInt]

/-! ### Operations -/

variable {m : Type → Type} [Monad m] [Connection m]

/-- A result of the database as the store gives it. -/
def stored {α : Type} : Except Fault α → Except StoreFault α
  | .ok v => .ok v
  | .error _ => .error .database

/-- What came of raising a total: the new total and the row that was added, or the total that left
no room. -/
inductive Raise where
  | added (newTotal : Decimal) (r : Record)
  | noRoom (total : Decimal)

/-- The statements that add a row, inside a transaction. -/
def raise (e : Entry) (cap : Decimal) : m (Except Fault (Ending Raise)) := do
  match ← fetchFirst? (single? Cell.decimal?) (raiseTotal e cap) with
  | .error f => return .error f
  | .ok none =>
    match ← fetchFirst (single? Cell.decimal?) (readTotal e.user) with
    | .error f => return .error f
    | .ok total => return .ok (.rollback (.noRoom total))
  | .ok (some newTotal) =>
    match ← fetchFirst Record.ofRow? (addRow e) with
    | .error f => return .error f
    | .ok r => return .ok (.commit (.added newTotal r))

/-- What is answered once the transaction is over. The row is looked at only then. -/
def Raise.toInsertion : Raise → Except StoreFault Insertion
  | noRoom total => .ok (.capExceeded total)
  | added newTotal r => do return .recorded (← r.toTransaction) newTotal

/-- Adds a row if its user's total stays within the cap. -/
def insert (e : Entry) (cap : Decimal) : m (Except StoreFault Insertion) := do
  return (stored (← transaction (raise e cap))).bind Raise.toInsertion

/-- The rows of a user, newest first. -/
def rowsOf (u : UserId) : m (Except StoreFault (List Transaction)) := do
  return (stored (← fetchAll Record.ofRow? (selectRows u))).bind
    (fun records => records.mapM Record.toTransaction)

def total (u : UserId) : m (Except StoreFault Decimal) := do
  return stored (← fetchFirst (single? Cell.decimal?) (sumRows u))

/-- Turns the unpaid rows of a user to paid; how many there were. -/
def markPaid (u : UserId) : m (Except StoreFault UInt64) := do
  return stored (← execute (payRows u))

end SpendingLedger.Database.Book
