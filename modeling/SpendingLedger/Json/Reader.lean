import SpendingLedger.Json.Basic

/-!
Reading a JSON value from tokens. The reader goes from position to position, one token each, and
keeps the containers it is in on a list, so depth costs no recursion. A limit on depth and the
treatment of single tokens are parameters: a value that is only skipped may nest to any depth, and
its numbers and strings are not evaluated.
-/

namespace SpendingLedger.Json

/-- An open container with what it holds so far, last part first. -/
inductive Frame where
  | array (items : List Json)
  | object (members : List (String × Json)) (key : String)

/-- Where the reading of a value stands, inside the containers of `outer`. -/
inductive Position where
  | value (outer : List Frame)
  /-- An array has just opened. -/
  | firstItem (outer : List Frame)
  /-- An item of an array is complete. -/
  | afterItem (items : List Json) (outer : List Frame)
  /-- An object has just opened. -/
  | firstKey (outer : List Frame)
  /-- A member must follow. -/
  | key (members : List (String × Json)) (outer : List Frame)
  /-- A key has been read. -/
  | colon (members : List (String × Json)) (key : String) (outer : List Frame)
  /-- A member of an object is complete. -/
  | afterMember (members : List (String × Json)) (outer : List Frame)
  /-- The value is complete. -/
  | done (value : Json)

/-- What a reader makes of single tokens, and how many containers it lets be open at a time. -/
structure Rules where
  scalar : Token → Except Fault Scalar
  key : Token → Except Fault String
  depth : Option Nat

/-- The key that a token stands for. -/
def Token.key : Token → Except Fault String
  | .text s => .ok s
  | _ => .error .malformed

/-- Evaluates every part. -/
def Rules.full (depth : Nat) : Rules := ⟨Token.scalar, Token.key, some depth⟩

/-- Looks at the form of a value only. -/
def Rules.skip : Rules where
  scalar
    | .null | .bool _ | .text _ | .number _ | .unpaired => .ok .null
    | _ => .error .malformed
  key
    | .text _ | .unpaired => .ok ""
    | _ => .error .malformed
  depth := none

/-- Whether another container may open inside those of `outer`. -/
def Rules.mayOpen (r : Rules) (outer : List Frame) : Bool :=
  match r.depth with
  | none => true
  | some limit => outer.length < limit

/-- Puts a complete value where it belongs. -/
def place (v : Json) : List Frame → Position
  | [] => .done v
  | .array items :: outer => .afterItem (v :: items) outer
  | .object members key :: outer => .afterMember ((key, v) :: members) outer

/-- The position after the first token of a value. -/
def startValue (r : Rules) (outer : List Frame) : Token → Except Fault Position
  | .openArray => if r.mayOpen outer then .ok (.firstItem outer) else .error .malformed
  | .openObject => if r.mayOpen outer then .ok (.firstKey outer) else .error .malformed
  | t => do return place (.scalar (← r.scalar t)) outer

/-- The position after a key. -/
def startMember (r : Rules) (members : List (String × Json)) (outer : List Frame) (t : Token) :
    Except Fault Position := do
  return .colon members (← r.key t) outer

/-- The position after one more token. -/
def Position.step (r : Rules) : Position → Token → Except Fault Position
  | .value outer, t => startValue r outer t
  | .firstItem outer, .closeArray => .ok (place (.array []) outer)
  | .firstItem outer, t => startValue r (.array [] :: outer) t
  | .afterItem items outer, .closeArray => .ok (place (.array items.reverse) outer)
  | .afterItem items outer, .comma => .ok (.value (.array items :: outer))
  | .firstKey outer, .closeObject => .ok (place (.object []) outer)
  | .firstKey outer, t => startMember r [] outer t
  | .key members outer, t => startMember r members outer t
  | .colon members k outer, .colon => .ok (.value (.object members k :: outer))
  | .afterMember members outer, .closeObject => .ok (place (.object members.reverse) outer)
  | .afterMember members outer, .comma => .ok (.key members outer)
  | _, _ => .error .malformed

/-- Reads on until the value is complete; the tokens that are left. -/
def Position.read (r : Rules) : Position → List Token → Except Fault (Json × List Token)
  | .done v, rest => .ok (v, rest)
  | _, [] => .error .malformed
  | p, t :: rest => do (← p.step r t).read r rest

/-- Containers may be open to this depth. -/
def maxDepth : Nat := 127

/-- The value that a whole text stands for. -/
def parse (cs : List Char) : Except Fault Json := do
  let (v, rest) ← (Position.value []).read (.full maxDepth) (tokens cs)
  if rest.isEmpty then return v else throw .malformed

/-! ### From bytes -/

/-- The text of bytes, if they are UTF-8. -/
def textOfBytes (bytes : ByteArray) : Except Fault (List Char) :=
  match String.fromUTF8? bytes with
  | some s => .ok s.toList
  | none => .error .malformed

/-- The characters of bytes from a place on; `none` for a byte that is no part of a character. -/
def charsFrom (bytes : ByteArray) (i : Nat) : List (Option Char) :=
  if i < bytes.size then
    match bytes.utf8DecodeChar? i with
    | some c => some c :: charsFrom bytes (i + c.utf8Size)
    | none => none :: charsFrom bytes (i + 1)
  else []
termination_by bytes.size - i
decreasing_by
  · have := c.utf8Size_pos
    omega
  · omega

/-- Writes stray bytes as escapes. A string with a stray byte is no text, and in order only where
a value is skipped, just as one with an unpaired surrogate; after a backslash and outside of
strings neither is in order. Two escapes, lest one pair up with what follows. -/
def withoutStrays : List (Option Char) → List Char
  | [] => []
  | some '\\' :: none :: rest => '\\' :: '\x00' :: withoutStrays rest
  | some '\\' :: some c :: rest => '\\' :: c :: withoutStrays rest
  | some c :: rest => c :: withoutStrays rest
  | none :: rest => "\\ud800\\ud800".toList ++ withoutStrays rest

/-- A text that is read as the bytes are, of which those that are skipped need not be UTF-8. -/
def textOfLooseBytes (bytes : ByteArray) : List Char :=
  match String.fromUTF8? bytes with
  | some s => s.toList
  | none => withoutStrays (charsFrom bytes 0)

end SpendingLedger.Json
