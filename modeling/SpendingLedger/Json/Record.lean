import SpendingLedger.Json.Reader

/-!
Records: values with a fixed set of named members, each without parts. A record is written as an
object or as the array of its members in order. Members are read as they come, so the first fault
of the text in reading order is the one reported; other members are skipped or collected; what is
missing is noticed at the end, in the order of declaration.
-/

namespace SpendingLedger.Json

/-- A member of a record whose members are collected in `σ`. -/
structure Member (σ : Type) where
  name : String
  isSet : σ → Bool
  /-- Stores a value, or says why it is refused. -/
  put : σ → Scalar → Except Fault σ
  /-- Whether the member may be left out at the end of an array. -/
  optional : Bool

def Member.of {σ β : Type} (name : String) (get : σ → Option β) (set : σ → β → σ)
    (decode : Scalar → Except Fault β) : Member σ where
  name
  isSet s := (get s).isSome
  put s v := do return set s (← decode v)
  optional := false

/-- What becomes of members that the record does not name, and of items past its last member. -/
inductive Others (σ : Type) where
  /-- Members are skipped, and an item too many is an error. -/
  | ignored
  /-- Both are read as values and stored. -/
  | kept (addMember : σ → String → Json → σ) (addItem : σ → Json → σ)

/-- A record type `α` whose members are collected in `σ`. -/
structure Record (σ α : Type) where
  members : List (Member σ)
  others : Others σ
  start : σ
  /-- The record, or the first member that is missing. -/
  finish : σ → Except Fault α

/-- The value of a member that must be there. -/
def required {β : Type} (name : String) : Option β → Except Fault β
  | some v => .ok v
  | none => .error (.missing name)

namespace Record

variable {σ α : Type}

/-- The member of that name, unless it has been read before; `none` for other members. -/
def freshMember? (r : Record σ α) (name : String) (s : σ) : Except Fault (Option (Member σ)) :=
  match r.members.find? (fun m => m.name == name) with
  | none => .ok none
  | some m => if m.isSet s then .error (.duplicate name) else .ok (some m)

/-! ### From a text -/

/-- Where the reading of a record stands. -/
inductive Position (σ : Type) where
  | firstKey (s : σ)
  | key (s : σ)
  /-- A key has been read; `none` for a member that the record does not name. -/
  | colon (m : Option (Member σ)) (name : String) (s : σ)
  | value (m : Member σ) (s : σ)
  /-- Inside the value of another member. -/
  | otherValue (p : Json.Position) (name : String) (s : σ)
  | afterMember (s : σ)
  | firstItem (left : List (Member σ)) (s : σ)
  | item (left : List (Member σ)) (s : σ)
  /-- Inside an item past the last member. -/
  | otherItem (p : Json.Position) (s : σ)
  | afterItem (left : List (Member σ)) (s : σ)
  | done (s : σ)

/-- How values are read that are no members. -/
def otherRules (r : Record σ α) : Rules :=
  match r.others with
  | .ignored => .skip
  | .kept _ _ => .full (maxDepth - 1)

/-- Takes in a value of another member. -/
def addMember (r : Record σ α) (s : σ) (name : String) (v : Json) : σ :=
  match r.others with
  | .ignored => s
  | .kept add _ => add s name v

/-- The position after the key of a member. -/
def startMember (r : Record σ α) (t : Token) (s : σ) : Except Fault (Position σ) := do
  let name ← t.key
  return .colon (← r.freshMember? name s) name s

/-- The position inside the value of another member, or after it. -/
def otherMember (r : Record σ α) (name : String) (s : σ) : Json.Position → Position σ
  | .done v => .afterMember (r.addMember s name v)
  | p => .otherValue p name s

/-- The position inside an item past the last member, or after it. -/
def otherItem (add : σ → Json → σ) (s : σ) : Json.Position → Position σ
  | .done v => .afterItem [] (add s v)
  | p => .otherItem p s

/-- The position after one more token of an item past the last member. -/
def stepItem (r : Record σ α) (p : Json.Position) (t : Token) (s : σ) :
    Except Fault (Position σ) := do
  match r.others with
  | .ignored => throw .malformed
  | .kept _ add => return otherItem add s (← p.step r.otherRules t)

/-- The position after the first token of an item. -/
def startItem (r : Record σ α) (left : List (Member σ)) (t : Token) (s : σ) :
    Except Fault (Position σ) :=
  match left with
  | [] => r.stepItem (.value []) t s
  | m :: left => do return .afterItem left (← m.put s (← t.scalar))

/-- The position after the array form has closed. -/
def closeItems (left : List (Member σ)) (s : σ) : Except Fault (Position σ) :=
  if left.all (·.optional) then .ok (.done s) else .error .mismatch

def step (r : Record σ α) : Position σ → Token → Except Fault (Position σ)
  | .firstKey s, .closeObject => .ok (.done s)
  | .firstKey s, t => r.startMember t s
  | .key s, t => r.startMember t s
  | .colon (some m) _ s, .colon => .ok (.value m s)
  | .colon none name s, .colon => .ok (.otherValue (.value []) name s)
  | .value m s, t => do return .afterMember (← m.put s (← t.scalar))
  | .otherValue p name s, t => do return r.otherMember name s (← p.step r.otherRules t)
  | .afterMember s, .closeObject => .ok (.done s)
  | .afterMember s, .comma => .ok (.key s)
  | .firstItem left s, .closeArray => closeItems left s
  | .firstItem left s, t => r.startItem left t s
  | .item left s, t => r.startItem left t s
  | .otherItem p s, t => r.stepItem p t s
  | .afterItem left s, .closeArray => closeItems left s
  | .afterItem left s, .comma => .ok (.item left s)
  | _, _ => .error .malformed

/-- Reads on to the end of the record; the tokens that are left. -/
def read (r : Record σ α) : Position σ → List Token → Except Fault (σ × List Token)
  | .done s, rest => .ok (s, rest)
  | _, [] => .error .malformed
  | p, t :: rest => do r.read (← r.step p t) rest

def ofTokens (r : Record σ α) : List Token → Except Fault (α × List Token)
  | .openObject :: rest => do
    let (s, rest) ← r.read (.firstKey r.start) rest
    return (← r.finish s, rest)
  | .openArray :: rest => do
    let (s, rest) ← r.read (.firstItem r.members r.start) rest
    return (← r.finish s, rest)
  | t :: _ => do
    let _ ← t.scalar
    throw .mismatch
  | [] => throw .malformed

/-! ### From values -/

/-- Stores a value that may have parts, which no member takes. -/
def putValue (m : Member σ) (s : σ) : Json → Except Fault σ
  | .scalar v => m.put s v
  | _ => .error .mismatch

/-- Takes in one named value. -/
def putMember (r : Record σ α) (s : σ) (entry : String × Json) : Except Fault σ := do
  match ← r.freshMember? entry.1 s with
  | none => return r.addMember s entry.1 entry.2
  | some m => putValue m s entry.2

/-- The record with these named values, taken in their order. -/
def ofMembers (r : Record σ α) (members : List (String × Json)) : Except Fault α := do
  r.finish (← members.foldlM r.putMember r.start)

/-- Takes in the values of the members that are left. -/
def putItems (r : Record σ α) (s : σ) : List (Member σ) → List Json → Except Fault σ
  | left, [] => if left.all (·.optional) then .ok s else .error .mismatch
  | [], items =>
    match r.others with
    | .ignored => .error .mismatch
    | .kept _ add => .ok (items.foldl add s)
  | m :: left, v :: items => do r.putItems (← putValue m s v) left items

/-- The record with these values for its members in order. -/
def ofItems (r : Record σ α) (items : List Json) : Except Fault α := do
  r.finish (← r.putItems r.start r.members items)

end Record

/-- A value of which no text may follow. -/
def complete {β : Type} : β × List Token → Except Fault β
  | (v, []) => .ok v
  | _ => .error .malformed

def Record.parse {σ α : Type} (r : Record σ α) (cs : List Char) : Except Fault α := do
  complete (← r.ofTokens (tokens cs))

/-- The value of a text that must have no parts. -/
def parseScalar {β : Type} (decode : Scalar → Except Fault β) (cs : List Char) :
    Except Fault β := do
  match tokens cs with
  | [] => throw .malformed
  | t :: rest => complete (← decode (← t.scalar), rest)

end SpendingLedger.Json
