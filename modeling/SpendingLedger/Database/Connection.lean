import SpendingLedger.Database.Statement

/-!
Talking to a database: single statements, and transactions. A transaction that fails is rolled
back, unless the connection broke, in which case the database does that by itself.
-/

namespace SpendingLedger.Database

/-- Why a statement or transaction gave no result. -/
inductive Fault where
  /-- The statement failed, or its answer is not what was asked for. -/
  | refused
  /-- The connection broke. -/
  | lost
deriving DecidableEq, Repr

/-- Programs that are connected to a database. A connection that broke is made anew. -/
class Connection (m : Type → Type) where
  exchange : Request → m Reply

variable {m : Type → Type} [Monad m] [Connection m] {α : Type}

/-! ### Replies -/

/-- How many rows a reply says were changed. -/
def Reply.count : Reply → Except Fault UInt64
  | rows l => .ok (UInt64.ofNat l.length)
  | affected n => .ok n
  | failure => .error .refused
  | disconnect => .error .lost

def Reply.table : Reply → Except Fault (List Row)
  | rows l => .ok l
  | affected _ => .ok []
  | failure => .error .refused
  | disconnect => .error .lost

def readRow (read : Row → Option α) (r : Row) : Except Fault α :=
  match read r with
  | some v => .ok v
  | none => .error .refused

/-- The values of all rows of a reply. -/
def Reply.all (read : Row → Option α) (r : Reply) : Except Fault (List α) := do
  (← r.table).mapM (readRow read)

/-- The value of the first row of a reply, if there is one. -/
def Reply.first? (read : Row → Option α) (r : Reply) : Except Fault (Option α) := do
  match ← r.table with
  | [] => return none
  | row :: _ => return some (← readRow read row)

/-- The value of the first row of a reply. -/
def Reply.first (read : Row → Option α) (r : Reply) : Except Fault α := do
  match ← r.first? read with
  | some v => return v
  | none => throw .refused

/-! ### Statements -/

/-- Runs a statement; how many rows it changed. -/
def execute (s : Statement) : m (Except Fault UInt64) := do
  return (← Connection.exchange (.statement s)).count

/-- Runs a statement; the values of its rows. -/
def fetchAll (read : Row → Option α) (s : Statement) : m (Except Fault (List α)) := do
  return (← Connection.exchange (.statement s)).all read

/-- Runs a statement; the value of its first row, if there is one. -/
def fetchFirst? (read : Row → Option α) (s : Statement) : m (Except Fault (Option α)) := do
  return (← Connection.exchange (.statement s)).first? read

/-- Runs a statement; the value of its first row. -/
def fetchFirst (read : Row → Option α) (s : Statement) : m (Except Fault α) := do
  return (← Connection.exchange (.statement s)).first read

/-! ### Transactions -/

/-- How a transaction is to end. -/
inductive Ending (α : Type) where
  | commit (v : α)
  | rollback (v : α)
  /-- Rolled back, whether or not the database says that it did so. -/
  | abandon (v : α)

def command (c : Command) : m (Except Fault Unit) := do
  return (← Connection.exchange (.command c)).count.map (fun _ => ())

/-- Gives a transaction up after a fault. -/
def giveUp (f : Fault) : m (Except Fault α) := do
  if f = .refused then
    let _ ← Connection.exchange (m := m) (.command .rollback)
  return .error f

/-- Ends a transaction with a command; the fault of the command is that of the transaction. -/
def conclude (c : Command) (v : α) : m (Except Fault α) := do
  match ← command c with
  | .error f => giveUp f
  | .ok () => return .ok v

def transaction (body : m (Except Fault (Ending α))) : m (Except Fault α) := do
  match ← command .begin with
  | .error f => giveUp f
  | .ok () =>
    match ← body with
    | .error f => giveUp f
    | .ok (.commit v) => conclude .commit v
    | .ok (.rollback v) => conclude .rollback v
    | .ok (.abandon v) =>
      let _ ← Connection.exchange (m := m) (.command .rollback)
      return .ok v

end SpendingLedger.Database
