import SpendingLedger.Json.Printer
import SpendingLedger.Transaction

/-!
Events: what the ledger announces about its changes, and the envelopes they travel in. An envelope
is a JSON object with a tag and the fields of the event, or an array of them. From a message any
object with a string tag is an envelope; one with a tag that is not known is told apart from one
that is broken.
-/

namespace SpendingLedger

/-- A change of the ledger. -/
inductive Event where
  /-- A transaction was recorded. -/
  | created (transaction : Int64) (user : UserId) (amount : Amount) (description : String)
      (time : Timestamp)
  /-- All unpaid transactions of a user were paid. -/
  | paid (user : UserId) (count : UInt64) (time : Timestamp)
deriving DecidableEq

namespace Event

inductive Kind where
  | created
  | paid
deriving DecidableEq, Repr

def Kind.tag : Kind → String
  | .created => "transaction.created"
  | .paid => "transaction.paid"

def Kind.ofTag? (tag : String) : Option Kind :=
  if tag == Kind.created.tag then some .created
  else if tag == Kind.paid.tag then some .paid
  else none

def kind : Event → Kind
  | created .. => .created
  | paid .. => .paid

def user : Event → UserId
  | created _ user .. => user
  | paid user .. => user

/-- When an event was announced. -/
def time : Event → Timestamp
  | created _ _ _ _ time => time
  | paid _ _ time => time

def ofTransaction (t : Transaction) (now : Timestamp) : Event :=
  .created t.id t.user t.amount t.description now

/-! ### Writing -/

def toJson : Event → Json
  | created id user amount description time =>
    .object [("event_type", .text Kind.created.tag), ("transaction_id", .integer id),
      ("user_id", user.toJson), ("amount", amount.toJson), ("description", .text description),
      ("timestamp", time.toJson)]
  | paid user count time =>
    .object [("event_type", .text Kind.paid.tag), ("user_id", user.toJson),
      ("transactions_paid", .natural count), ("timestamp", time.toJson)]

/-- The envelope of an event. -/
def encode (e : Event) : ByteArray := e.toJson.toText.toUTF8

/-! ### Reading -/

structure Draft where
  transaction : Option Int64 := none
  user : Option UserId := none
  amount : Option Amount := none
  description : Option String := none
  count : Option UInt64 := none
  time : Option Timestamp := none

def userField : Json.Member Draft :=
  .of "user_id" (·.user) (fun s v => { s with user := some v }) UserId.ofScalar

def timeField : Json.Member Draft :=
  .of "timestamp" (·.time) (fun s v => { s with time := some v }) Timestamp.ofScalar

/-- The fields of a `created` event in order. -/
def createdRecord : Json.Record Draft Event where
  members := [
    .of "transaction_id" (·.transaction) (fun s v => { s with transaction := some v })
      Json.Scalar.int64,
    userField,
    .of "amount" (·.amount) (fun s v => { s with amount := some v }) Amount.ofScalar,
    .of "description" (·.description) (fun s v => { s with description := some v })
      Json.Scalar.string,
    timeField]
  others := .ignored
  start := {}
  finish s := do
    return .created (← Json.required "transaction_id" s.transaction)
      (← Json.required "user_id" s.user) (← Json.required "amount" s.amount)
      (← Json.required "description" s.description) (← Json.required "timestamp" s.time)

/-- The fields of a `paid` event in order. -/
def paidRecord : Json.Record Draft Event where
  members := [
    userField,
    .of "transactions_paid" (·.count) (fun s v => { s with count := some v }) Json.Scalar.uint64,
    timeField]
  others := .ignored
  start := {}
  finish s := do
    return .paid (← Json.required "user_id" s.user)
      (← Json.required "transactions_paid" s.count) (← Json.required "timestamp" s.time)

def Kind.record : Kind → Json.Record Draft Event
  | .created => createdRecord
  | .paid => paidRecord

/-- What has been read of an envelope: the tag, and all else as it stands. -/
structure Opened where
  kind : Option Kind := none
  members : List (String × Json) := []
  items : List Json := []

def tagOfScalar (v : Json.Scalar) : Except Json.Fault Kind := do
  match Kind.ofTag? (← v.string) with
  | some k => return k
  | none => throw .mismatch

/-- An envelope whose fields are read by `fields` once the tag is known. -/
def envelopeRecord (fields : Kind → Opened → Except Json.Fault Event) :
    Json.Record Opened Event where
  members := [{ Json.Member.of "event_type" (·.kind) (fun s v => { s with kind := some v })
    tagOfScalar with optional := true }]
  others := .kept (fun s name v => { s with members := s.members ++ [(name, v)] })
    (fun s v => { s with items := s.items ++ [v] })
  start := {}
  finish s := do fields (← Json.required "event_type" s.kind) s

/-- An envelope in the form of an object. -/
def objectRecord : Json.Record Opened Event :=
  envelopeRecord (fun kind s => kind.record.ofMembers s.members)

/-- An envelope in the form of an array. -/
def arrayRecord : Json.Record Opened Event :=
  envelopeRecord (fun kind s => kind.record.ofItems s.items)

/-- Reads an event straight from a text. -/
def parse (cs : List Char) : Except Json.Fault Event :=
  let tokens := Json.tokens cs
  let form := if tokens.head? = some .openArray then arrayRecord else objectRecord
  do Json.complete (← form.ofTokens tokens)

/-- Stores a member in a list sorted by name; of two of one name the later stays. -/
def insertSorted (entry : String × Json) : List (String × Json) → List (String × Json)
  | [] => [entry]
  | e :: rest =>
    if entry.1 < e.1 then entry :: e :: rest
    else if entry.1 = e.1 then entry :: rest
    else e :: insertSorted entry rest

/-- The members of an object in the order of their names, the last of each name. -/
def sortedMembers (members : List (String × Json)) : List (String × Json) :=
  members.foldl (fun sorted entry => insertSorted entry sorted) []

def ofJson : Json → Except Json.Fault Event
  | .object members => objectRecord.ofMembers (sortedMembers members)
  | .array items => arrayRecord.ofItems items
  | .scalar _ => .error .mismatch

/-- The member of an object with this name, the last one if there are several. -/
def member? (name : String) : Json → Option Json
  | .object members => (members.reverse.find? (fun m => m.1 == name)).map (·.2)
  | _ => none

/-- The tag of an envelope, if it is a string. -/
def tag? (v : Json) : Option String :=
  match member? "event_type" v with
  | some (.scalar (.text tag)) => some tag
  | _ => none

end Event

/-- What a message may hold. -/
inductive Envelope where
  | event (e : Event)
  | unknown (tag : String)
deriving DecidableEq

/-- Opens the envelope of a message. -/
def Event.decode (payload : ByteArray) : Except Json.Fault Envelope := do
  let v ← Json.parse (← Json.textOfBytes payload)
  match Event.tag? v with
  | none => return .event (← Event.ofJson v)
  | some tag =>
    if (Event.Kind.ofTag? tag).isSome then return .event (← Event.ofJson v)
    else return .unknown tag

end SpendingLedger
