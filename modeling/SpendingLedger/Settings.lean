import SpendingLedger.Overflow
import SpendingLedger.RetryPolicy
import SpendingLedger.Span
import SpendingLedger.Text.Blank

/-!
Settings, read from named variables. Only the database must be named; everything else has a value
to start from. Numbers may have white space around them. Variables are looked at in a fixed order,
and the first that is wrong is reported; numbers that must not be zero are checked last. Hours are
turned into seconds as they are read, and a program that stops where the seconds do not fit reports
nothing.
-/

namespace SpendingLedger

inductive LogFormat where
  | pretty
  | json
deriving DecidableEq, Repr

/-- Why no settings could be read. -/
inductive SettingsError where
  | missing (name : String)
  | invalid (name : String)
deriving DecidableEq, Repr

def SettingsError.message : SettingsError → String
  | .missing name => s!"Missing environment variable: {name}"
  | .invalid name => s!"Invalid value for environment variable: {name}"

/-- How a queue in a database is used. -/
structure QueueSettings where
  lanes : UInt32 := 16
  /-- The time between two looks at an empty channel. -/
  pollInterval : Span := .ofMillis 200
  /-- How long a receiver keeps a message before it is handed out anew. -/
  lease : Span := .ofSeconds 30
deriving DecidableEq, Repr

structure Settings where
  database : String
  logFormat : LogFormat
  maxConnections : UInt32
  host : String
  ledgerPort : UInt16
  statisticsPort : UInt16
  environment : String
  requestTimeout : Span
  channel : String
  queue : QueueSettings
  /-- Zero stands for no bound. -/
  maxDeliveries : UInt32
  /-- How long settled messages are kept. -/
  retention : Span
  workers : UInt64
deriving DecidableEq, Repr

namespace Settings

/-- Why there are no settings. -/
inductive Failure where
  | refused (e : SettingsError)
  /-- The program has stopped on the way. -/
  | stopped
deriving DecidableEq, Repr

/-- A source of variables. -/
abbrev Source := String → Option String

/-- The number that a variable holds, up to `bound`; `standard` if it is not there. -/
def number (vars : Source) (name : String) (bound standard : Nat) : Except Failure Nat :=
  match vars name with
  | none => .ok standard
  | some raw =>
    match Text.readNat bound (Text.trim raw.toList) with
    | .ok n => .ok n
    | .error _ => .error (.refused (.invalid name))

def number16 (vars : Source) (name : String) (standard : Nat) : Except Failure UInt16 := do
  return UInt16.ofNat (← number vars name (2 ^ 16 - 1) standard)

def number32 (vars : Source) (name : String) (standard : Nat) : Except Failure UInt32 := do
  return UInt32.ofNat (← number vars name (2 ^ 32 - 1) standard)

def number64 (vars : Source) (name : String) (standard : Nat) : Except Failure UInt64 := do
  return UInt64.ofNat (← number vars name (2 ^ 64 - 1) standard)

/-- The format of the log that a variable names. -/
def logFormatOf : Option String → Except Failure LogFormat
  | none | some "pretty" | some "text" => .ok .pretty
  | some "json" => .ok .json
  | some _ => .error (.refused (.invalid "LOG_FORMAT"))

/-- The database that a variable names. -/
def databaseOf : Option String → Except Failure String
  | some name => .ok name
  | none => .error (.refused (.missing "DATABASE_URL"))

/-- The seconds of so many hours, counted in 64 bits. -/
def secondsOf (o : Overflow) (hours : UInt64) : Except Failure UInt64 :=
  match o.product64? hours 3600 with
  | some seconds => .ok seconds
  | none => .error .stopped

/-- The settings as the variables have them. -/
def read (o : Overflow) (vars : Source) : Except Failure Settings := do
  let database ← databaseOf (vars "DATABASE_URL")
  let logFormat ← logFormatOf (vars "LOG_FORMAT")
  let maxConnections ← number32 vars "DATABASE_MAX_CONNECTIONS" 10
  let ledgerPort ← number16 vars "PORT" 3000
  let statisticsPort ← number16 vars "ANALYTICS_PORT" 8083
  let requestTimeout ← number64 vars "REQUEST_TIMEOUT_MS" 5000
  let lanes ← number32 vars "BROKER_LANES" 16
  let pollInterval ← number64 vars "BROKER_POLL_INTERVAL_MS" 200
  let lease ← number64 vars "BROKER_LEASE_SECS" 30
  let maxDeliveries ← number32 vars "BROKER_MAX_DELIVERIES" 5
  let retention ← secondsOf o (← number64 vars "BROKER_RETENTION_HOURS" 24)
  let workers ← number64 vars "ANALYTICS_WORKERS" 4
  return {
    database, logFormat, maxConnections, ledgerPort, statisticsPort, maxDeliveries, workers
    host := (vars "HOST").getD "127.0.0.1"
    environment := (vars "ENVIRONMENT").getD "development"
    requestTimeout := .ofMillis requestTimeout.toNat
    channel := (vars "BROKER_CHANNEL").getD "transactions"
    queue := {
      lanes
      pollInterval := .ofMillis pollInterval.toNat
      lease := .ofSeconds lease.toNat }
    retention := .ofSeconds retention.toNat }

/-- Refuses zero where it makes no sense. -/
def check (s : Settings) : Except Failure Settings :=
  if s.queue.lanes = 0 then .error (.refused (.invalid "BROKER_LANES"))
  else if s.queue.lease.nanos = 0 then .error (.refused (.invalid "BROKER_LEASE_SECS"))
  else if s.queue.pollInterval.nanos = 0 then .error (.refused (.invalid "BROKER_POLL_INTERVAL_MS"))
  else if s.workers = 0 then .error (.refused (.invalid "ANALYTICS_WORKERS"))
  else .ok s

/-- The settings that the variables ask for. -/
def ofSource (o : Overflow) (vars : Source) : Except Failure Settings := do check (← read o vars)

/-- How often a failing message is handed out. -/
def retryPolicy (s : Settings) : RetryPolicy := .ofLimit s.maxDeliveries

end Settings

end SpendingLedger
