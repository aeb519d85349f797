import SpendingLedger.LedgerError
import SpendingLedger.Table
import SpendingLedger.Transaction

/-!
The book of all transactions, with each user's total kept beside the rows. A row is added only if
the total stays within the cap; rows are never removed, and only ever turn from unpaid to paid.
-/

namespace SpendingLedger

/-- What came of adding a row. -/
inductive Insertion where
  | recorded (t : Transaction) (newTotal : Decimal)
  /-- Nothing was added; the user's total. -/
  | capExceeded (total : Decimal)
deriving DecidableEq

/-- The rows on record, newest first, and the totals of the users. -/
structure Book where
  rows : List Transaction := []
  totals : Table UserId Decimal := ∅
  /-- The number of the newest row. -/
  lastId : Int64 := 0

namespace Book

/-- The total of a user, zero without rows. -/
def total (b : Book) (u : UserId) : Decimal := (b.totals.get? u).getD .zero

/-- The rows of a user, newest first. -/
def rowsOf (b : Book) (u : UserId) : List Transaction := b.rows.filter (fun t => t.user = u)

/-- Adds a row if its user's total stays within the cap. -/
def insert (b : Book) (now : Timestamp) (e : Entry) (cap : Decimal) : Insertion × Book :=
  match e.amount.addWithin? (b.total e.user) cap with
  | none => (.capExceeded (b.total e.user), b)
  | some newTotal =>
    let t : Transaction := ⟨b.lastId + 1, e.user, e.amount, e.description, false, now⟩
    (.recorded t newTotal,
      { rows := t :: b.rows, totals := b.totals.insert e.user newTotal, lastId := b.lastId + 1 })

def IsUnpaidOf (u : UserId) (t : Transaction) : Prop := t.user = u ∧ t.isPaid = false

instance (u : UserId) (t : Transaction) : Decidable (IsUnpaidOf u t) :=
  inferInstanceAs (Decidable (_ ∧ _))

/-- Turns the unpaid rows of a user to paid; how many there were. -/
def markPaid (b : Book) (u : UserId) : UInt64 × Book :=
  (UInt64.ofNat (b.rows.countP (fun t => IsUnpaidOf u t)),
    { b with
      rows := b.rows.map (fun t => if IsUnpaidOf u t then { t with isPaid := true } else t) })

end Book

end SpendingLedger
