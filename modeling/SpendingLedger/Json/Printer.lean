import SpendingLedger.Json.Basic

/-!
The text of a JSON value, without white space. In a string the quote, the backslash and the
control characters are escaped, five of these by a letter; all else stands for itself.
-/

namespace SpendingLedger.Json

def hexChar (n : Nat) : Char := if n < 10 then Char.ofNat (48 + n) else Char.ofNat (87 + n)

/-- A character inside a string. -/
def escape (c : Char) : List Char :=
  if c == '"' then ['\\', '"']
  else if c == '\\' then ['\\', '\\']
  else if c == '\x08' then ['\\', 'b']
  else if c == '\x0c' then ['\\', 'f']
  else if c == '\n' then ['\\', 'n']
  else if c == '\r' then ['\\', 'r']
  else if c == '\t' then ['\\', 't']
  else if c.toNat < 0x20 then
    ['\\', 'u', '0', '0', hexChar (c.toNat / 16), hexChar (c.toNat % 16)]
  else [c]

def quoted (s : String) : List Char := '"' :: s.toList.flatMap escape ++ ['"']

def Number.print : Number → List Char
  | .natural n => Text.digits n.toNat
  | .negative i => Text.signedDigits i.toInt
  | .real x => x.toText.toList

def Scalar.print : Scalar → List Char
  | .null => ['n', 'u', 'l', 'l']
  | .bool true => ['t', 'r', 'u', 'e']
  | .bool false => ['f', 'a', 'l', 's', 'e']
  | .number n => n.print
  | .text s => quoted s

mutual

def print : Json → List Char
  | .scalar s => s.print
  | .array items => '[' :: printItems items ++ [']']
  | .object members => '\x7b' :: printMembers members ++ ['\x7d']

/-- The items of an array with commas between them. -/
def printItems : List Json → List Char
  | [] => []
  | [v] => print v
  | v :: rest => print v ++ ',' :: printItems rest

/-- The members of an object with commas between them. -/
def printMembers : List (String × Json) → List Char
  | [] => []
  | [(k, v)] => quoted k ++ ':' :: print v
  | (k, v) :: rest => quoted k ++ ':' :: print v ++ ',' :: printMembers rest

end

def toText (v : Json) : String := String.ofList v.print

end SpendingLedger.Json
