import SpendingLedger.Database.Connection
import SpendingLedger.Notice

/-!
Housekeeping in a database: handing back messages whose lease has run out, deleting messages
settled long ago, and looking whether the database can be used at all.
-/

namespace SpendingLedger.Database.Maintenance

/-- When housekeeping is done. -/
structure Schedule where
  reclaimInterval : Span := .ofSeconds 5
  purgeInterval : Span := .ofSeconds 3600
  /-- How long settled messages are kept. -/
  retention : Span := .ofSeconds 86400
deriving DecidableEq, Repr

/-! ### Statements -/

/-- Makes messages ready again whose lease has run out. -/
def reclaimLeases : Statement where
  text := "UPDATE broker_messages SET status = 'ready', locked_until = NULL " ++
    "WHERE status = 'in_flight' AND locked_until < NOW()"
  params := []

/-- Deletes messages settled longer ago than the retention. -/
def purgeSettled (retention : Span) : Statement where
  text := "DELETE FROM broker_messages WHERE status IN ('acked', 'dead_lettered') " ++
    "AND settled_at < NOW() - make_interval(secs => $1)"
  params := [.seconds retention]

def ping : Statement := ⟨"SELECT 1", []⟩

/-- Asks whether a table is there. -/
def tableExists (table : String) : Statement where
  text := "SELECT EXISTS ( SELECT 1 FROM information_schema.tables " ++
    "WHERE table_schema = 'public' AND table_name = $1 )"
  params := [.text table]

/-! ### Jobs -/

variable {m : Type → Type} [Monad m] [Connection m] [Reporting m]

/-- Runs a job of one statement, and reports how many rows it touched if there were any. -/
def job (s : Statement) (notice : UInt64 → Notice) : m (Except Fault UInt64) := do
  let outcome ← execute s
  if let .ok n := outcome then
    if 0 < n then
      Reporting.report (notice n)
  return outcome

/-- Hands back messages whose lease has run out; how many. -/
def reclaim : m (Except Fault UInt64) := job reclaimLeases .leasesReclaimed

/-- Deletes messages settled long ago; how many. -/
def purge (retention : Span) : m (Except Fault UInt64) :=
  job (purgeSettled retention) .messagesPurged

structure Report where
  reclaimed : UInt64 := 0
  purged : UInt64 := 0
  errors : List String := []
deriving DecidableEq, Repr

/-- The count of a job in a report, and what is said if it failed. -/
def summary (name : String) : Except Fault UInt64 → UInt64 × List String
  | .ok n => (n, [])
  | .error _ => (0, [s!"{name}: Database error"])

/-- Does all housekeeping once. -/
def runOnce (retention : Span) : m Report := do
  let (reclaimed, reclaimErrors) := summary "Lease reclaim" (← reclaim)
  let (purged, purgeErrors) := summary "Message purge" (← purge retention)
  return { reclaimed, purged, errors := reclaimErrors ++ purgeErrors }

/-- The first round of the schedule, in which every job is due. -/
def start (schedule : Schedule) : m Unit := do
  Reporting.report .schedulerStarted
  if let .error _ := ← purge (m := m) schedule.retention then
    Reporting.report .purgeFailed
  if let .error _ := ← reclaim (m := m) then
    Reporting.report .reclaimFailed

/-! ### Checks -/

/-- Whether the database answers. -/
def verify : m (Except Fault Unit) := do
  return (← execute ping).map (fun _ => ())

/-- The tables that must be there. -/
def requiredTables : List String := ["transactions", "user_totals", "broker_messages"]

/-- Whether the tables are there; the first one missing is reported, and ends the search. -/
def checkTables : List String → m (Except Fault Bool)
  | [] => return .ok true
  | table :: rest => do
    match ← fetchFirst (single? Cell.truth?) (tableExists table) with
    | .error f => return .error f
    | .ok false =>
      Reporting.report (.tableMissing table)
      return .ok false
    | .ok true => checkTables rest

end SpendingLedger.Database.Maintenance
