import SpendingLedger.Decimal.Reader
import SpendingLedger.Span
import SpendingLedger.Timestamp.Reader

/-!
What is sent to a database and what comes back: statements with parameters, commands that begin and
end a transaction, and replies made of rows of cells. A cell is what the database wrote; reading it
as a value may fail.
-/

namespace SpendingLedger.Database

/-- A parameter of a statement. -/
inductive Param where
  | integer (i : Int)
  | numeric (d : Decimal)
  | text (s : String)
  /-- A number of seconds, sent as a binary number. -/
  | seconds (s : Span)
  | bytes (b : ByteArray)
deriving DecidableEq

/-- The digits of a decimal on its way to the database, where zero has no places. -/
def numericText (d : Decimal) : String := if d.IsZero then "0" else d.toText

/-- A statement; `$1` stands for its first parameter. -/
structure Statement where
  text : String
  params : List Param
deriving DecidableEq

/-- The commands around the statements of a transaction. -/
inductive Command where
  | begin
  | commit
  | rollback
deriving DecidableEq, Repr

/-- The text of a command. -/
def Command.text : Command → String
  | begin => "BEGIN"
  | commit => "COMMIT"
  | rollback => "ROLLBACK"

/-- What is sent to a database. -/
inductive Request where
  | command (c : Command)
  | statement (s : Statement)
deriving DecidableEq

/-! ### Cells -/

/-- One value of a row as the database wrote it. -/
inductive Cell where
  | null
  | integer (i : Int)
  | truth (b : Bool)
  | text (s : String)
deriving DecidableEq, Repr

/-- The cells of a row in the order of the columns asked for. -/
abbrev Row := List Cell

namespace Cell

/-- A whole number of 64 bits. -/
def int64? : Cell → Option Int64
  | integer i => if -(2 ^ 63) ≤ i ∧ i < 2 ^ 63 then some (Int64.ofInt i) else none
  | _ => none

/-- A whole number of 32 bits. -/
def int32? : Cell → Option Int32
  | integer i => if -(2 ^ 31) ≤ i ∧ i < 2 ^ 31 then some (Int32.ofInt i) else none
  | _ => none

/-- A truth value. -/
def truth? : Cell → Option Bool
  | truth b => some b
  | _ => none

/-- A text. -/
def text? : Cell → Option String
  | text s => some s
  | _ => none

/-- A decimal. Zero comes without places. -/
def decimal? : Cell → Option Decimal
  | text s => (Decimal.ofString? s).map (fun d => if d.IsZero then .zero else d)
  | _ => none

/-- Bytes, given as the text they encode. -/
def bytes? : Cell → Option ByteArray
  | text s => some s.toUTF8
  | _ => none

/-- An instant. -/
def time? : Cell → Option Timestamp
  | text s => Timestamp.read? s.toList
  | _ => none

end Cell

/-- The single cell of a row. -/
def single? {α : Type} (read : Cell → Option α) : Row → Option α
  | [cell] => read cell
  | _ => none

/-- What a database replies. -/
inductive Reply where
  | rows (rows : List Row)
  /-- Done, without rows; so many rows were changed. -/
  | affected (n : UInt64)
  | failure
  /-- The connection broke. -/
  | disconnect
deriving DecidableEq

end SpendingLedger.Database
