import SpendingLedger.Json.Record

/-!
User numbers: positive whole numbers of 64 bits.
-/

namespace SpendingLedger

structure UserId where
  value : Int64
  pos : 0 < value
deriving DecidableEq

namespace UserId

/-- The user with this number, if it is positive. -/
def of? (value : Int64) : Option UserId :=
  if h : 0 < value then some ⟨value, h⟩ else none

def toText (u : UserId) : String := Text.ofInt u.value.toInt

/-- The key under which messages about a user travel. -/
def routingKey (u : UserId) : String := u.toText

/-- What is said of a number that is no user number. -/
def refusal (value : Int64) : String := s!"Invalid user ID: {Text.ofInt value.toInt}"

def ofScalar (v : Json.Scalar) : Except Json.Fault UserId := do
  let n ← v.int64
  match of? n with
  | some u => return u
  | none => throw (.refused (refusal n))

def toJson (u : UserId) : Json := Json.integer u.value

end UserId

end SpendingLedger
