import SpendingLedger.Json.Record
import SpendingLedger.Timestamp.Printer
import SpendingLedger.Timestamp.Reader

/-!
Instants as JSON: a text in RFC 3339.
-/

namespace SpendingLedger.Timestamp

def ofScalar (v : Json.Scalar) : Except Json.Fault Timestamp := do
  match read? (← v.string).toList with
  | some t => return t
  | none => throw .mismatch

def toJson (t : Timestamp) : Json := Json.text t.toText

end SpendingLedger.Timestamp
