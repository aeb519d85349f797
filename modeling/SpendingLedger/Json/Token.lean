import SpendingLedger.Text.Integer

/-!
The words of JSON. A text is cut into tokens from left to right; the first place that is no JSON
word becomes the token `invalid`, and the list ends there. Numbers are kept as written, so that a
number which nobody asks for is never evaluated, and a string with an unpaired surrogate escape
is a token of its own, since it is in order where a value is skipped.
-/

namespace SpendingLedger.Json

open Text (digit?)

/-- A number as written. Without a point `places` is empty; an exponent has a sign and digits. -/
structure Numeral where
  negative : Bool
  whole : List Nat
  places : List Nat
  exponent : Option (Bool × List Nat)
deriving DecidableEq, Repr

/-- A word of JSON. -/
inductive Token where
  | openObject
  | closeObject
  | openArray
  | closeArray
  | comma
  | colon
  | null
  | bool (b : Bool)
  | number (n : Numeral)
  | text (s : String)
  | unpaired
  | invalid
deriving DecidableEq, Repr

/-! ### Numbers -/

def isDigit (c : Char) : Bool := (digit? c).isSome

/-- The digits at the front, as numbers. -/
def leadingDigits (cs : List Char) : List Nat := (cs.takeWhile isDigit).filterMap digit?

/-- What follows the digits at the front. -/
def afterDigits (cs : List Char) : List Char := cs.dropWhile isDigit

theorem afterDigits_length (cs : List Char) : (afterDigits cs).length ≤ cs.length :=
  (List.dropWhile_sublist _).length_le

/-- Reads the part after an exponent mark. -/
def scanExponent (cs : List Char) : Option ((Bool × List Nat) × List Char) :=
  let (negative, body) := match cs with
    | '-' :: rest => (true, rest)
    | '+' :: rest => (false, rest)
    | _ => (false, cs)
  match leadingDigits body with
  | [] => none
  | digits => some ((negative, digits), afterDigits body)

/-- Reads an exponent if there is one. -/
def scanExponent? (cs : List Char) : Option (Option (Bool × List Nat) × List Char) :=
  match cs with
  | c :: rest =>
    if c == 'e' || c == 'E' then
      match scanExponent rest with
      | some (e, rest) => some (some e, rest)
      | none => none
    else some (none, cs)
  | [] => some (none, [])

/-- Reads places if there is a point. -/
def scanPlaces? (cs : List Char) : Option (List Nat × List Char) :=
  match cs with
  | '.' :: rest =>
    match leadingDigits rest with
    | [] => none
    | digits => some (digits, afterDigits rest)
  | _ => some ([], cs)

/-- Whether digits may stand before the point: at least one, and none after a leading zero. -/
def isWhole : List Nat → Bool
  | [] => false
  | [_] => true
  | d :: _ => d != 0

/-- Reads a number after its sign. -/
def scanNumeral (negative : Bool) (cs : List Char) : Option (Numeral × List Char) :=
  if isWhole (leadingDigits cs) then
    match scanPlaces? (afterDigits cs) with
    | none => none
    | some (places, rest) =>
      match scanExponent? rest with
      | none => none
      | some (exponent, rest) => some (⟨negative, leadingDigits cs, places, exponent⟩, rest)
  else none

/-! ### Strings -/

/-- A piece of a string: a character, or a code unit written as an escape. -/
inductive Piece where
  | plain (c : Char)
  | unit (code : Nat)
deriving DecidableEq, Repr

def hexDigit? (c : Char) : Option Nat :=
  if '0' ≤ c ∧ c ≤ '9' then some (c.toNat - '0'.toNat)
  else if 'a' ≤ c ∧ c ≤ 'f' then some (c.toNat - 'a'.toNat + 10)
  else if 'A' ≤ c ∧ c ≤ 'F' then some (c.toNat - 'A'.toNat + 10)
  else none

def hexUnit? (a b c d : Char) : Option Nat := do
  return (((← hexDigit? a) * 16 + (← hexDigit? b)) * 16 + (← hexDigit? c)) * 16 + (← hexDigit? d)

/-- What a single letter stands for after a backslash. -/
def letterEscape? : Char → Option Char
  | '"' => some '"'
  | '\\' => some '\\'
  | '/' => some '/'
  | 'b' => some '\x08'
  | 'f' => some '\x0c'
  | 'n' => some '\n'
  | 'r' => some '\r'
  | 't' => some '\t'
  | _ => none

/-- The pieces of a string up to its closing quote, and what follows it. -/
def scanText : List Char → List Piece → Option (List Piece × List Char)
  | [], _ => none
  | '"' :: rest, done => some (done.reverse, rest)
  | '\\' :: 'u' :: a :: b :: c :: d :: rest, done =>
    match hexUnit? a b c d with
    | some code => scanText rest (.unit code :: done)
    | none => none
  | '\\' :: c :: rest, done =>
    match letterEscape? c with
    | some e => scanText rest (.plain e :: done)
    | none => none
  | c :: rest, done =>
    if c.toNat < 0x20 || c == '\\' then none else scanText rest (.plain c :: done)

/-- Whether a code unit opens a surrogate pair. -/
def isLeading (code : Nat) : Bool := 0xD800 ≤ code && code < 0xDC00

/-- Whether a code unit closes a surrogate pair. -/
def isTrailing (code : Nat) : Bool := 0xDC00 ≤ code && code < 0xE000

/-- The character of a surrogate pair. -/
def pairChar (leading trailing : Nat) : Char :=
  Char.ofNat (0x10000 + (leading - 0xD800) * 0x400 + (trailing - 0xDC00))

/-- The characters of a string, unless a surrogate has no partner. -/
def join? : List Piece → Option (List Char)
  | [] => some []
  | .plain c :: rest => (join? rest).map (c :: ·)
  | .unit a :: .unit b :: rest =>
    if isLeading a then
      if isTrailing b then (join? rest).map (pairChar a b :: ·) else none
    else if isTrailing a then none
    else (join? (.unit b :: rest)).map (Char.ofNat a :: ·)
  | .unit a :: rest =>
    if isLeading a || isTrailing a then none else (join? rest).map (Char.ofNat a :: ·)

/-- The token of a string with these pieces. -/
def textToken (pieces : List Piece) : Token :=
  match join? pieces with
  | some cs => .text (String.ofList cs)
  | none => .unpaired

/-! ### Tokens -/

/-- Whether a character may stand between tokens. -/
def isSpace (c : Char) : Bool := c == ' ' || c == '\n' || c == '\t' || c == '\r'

/-- The token if the text goes on with `letters`. -/
def literal (letters : List Char) (token : Token) (rest : List Char) : Token × List Char :=
  if letters.isPrefixOf rest then (token, rest.drop letters.length) else (.invalid, [])

/-- The token of a number. -/
def numberToken : Option (Numeral × List Char) → Token × List Char
  | some (n, rest) => (.number n, rest)
  | none => (.invalid, [])

/-- The token that starts with `c`, and what follows it. -/
def nextToken (c : Char) (rest : List Char) : Token × List Char :=
  if c == '\x7b' then (.openObject, rest)
  else if c == '\x7d' then (.closeObject, rest)
  else if c == '[' then (.openArray, rest)
  else if c == ']' then (.closeArray, rest)
  else if c == ',' then (.comma, rest)
  else if c == ':' then (.colon, rest)
  else if c == 'n' then literal ['u', 'l', 'l'] .null rest
  else if c == 't' then literal ['r', 'u', 'e'] (.bool true) rest
  else if c == 'f' then literal ['a', 'l', 's', 'e'] (.bool false) rest
  else if c == '"' then
    match scanText rest [] with
    | some (pieces, rest) => (textToken pieces, rest)
    | none => (.invalid, [])
  else if c == '-' then numberToken (scanNumeral true rest)
  else numberToken (scanNumeral false (c :: rest))

theorem scanText_length {cs : List Char} {done pieces : List Piece} {rest : List Char}
    (h : scanText cs done = some (pieces, rest)) : rest.length ≤ cs.length := by
  fun_induction scanText cs done <;> (try simp only [List.length_cons]) <;> grind

theorem scanExponent_length {cs rest : List Char} {e : Bool × List Nat}
    (h : scanExponent cs = some (e, rest)) : rest.length ≤ cs.length := by
  unfold scanExponent at h
  split at h; grind [afterDigits_length]

theorem scanExponent?_length {cs rest : List Char} {e : Option (Bool × List Nat)}
    (h : scanExponent? cs = some (e, rest)) : rest.length ≤ cs.length := by
  unfold scanExponent? at h
  grind [→ scanExponent_length]

theorem scanPlaces?_length {cs rest : List Char} {digits : List Nat}
    (h : scanPlaces? cs = some (digits, rest)) : rest.length ≤ cs.length := by
  unfold scanPlaces? at h
  split at h <;> grind [afterDigits_length]

/-- Where a digit stands at the front, what follows the digits is shorter. -/
theorem afterDigits_length_lt {cs : List Char} (h : leadingDigits cs ≠ []) :
    (afterDigits cs).length < cs.length := by
  have happ := congrArg List.length (List.takeWhile_append_dropWhile (p := isDigit) (l := cs))
  have : cs.takeWhile isDigit ≠ [] := by
    intro hnil
    simp [leadingDigits, hnil] at h
  have := List.length_pos_iff.2 this
  simp only [List.length_append] at happ
  simp only [afterDigits]
  omega

/-- A number has at least one digit. -/
theorem scanNumeral_length {negative : Bool} {cs rest : List Char} {n : Numeral}
    (h : scanNumeral negative cs = some (n, rest)) : rest.length < cs.length := by
  unfold scanNumeral at h
  split at h
  · next hw =>
    have hne : leadingDigits cs ≠ [] := by
      intro hnil
      simp [hnil, isWhole] at hw
    have := afterDigits_length_lt hne
    split at h
    · contradiction
    · next hp =>
      have := scanPlaces?_length hp
      split at h
      · contradiction
      · next he =>
        have := scanExponent?_length he
        grind
  · contradiction

theorem literal_length (letters : List Char) (token : Token) (rest : List Char) :
    (literal letters token rest).2.length ≤ rest.length := by
  unfold literal
  split <;> simp

theorem numberToken_length {n : Option (Numeral × List Char)} {k : Nat}
    (h : ∀ m rest, n = some (m, rest) → rest.length ≤ k) : (numberToken n).2.length ≤ k := by
  unfold numberToken
  split
  · exact h _ _ rfl
  · simp

theorem nextToken_length (c : Char) (rest : List Char) :
    (nextToken c rest).2.length ≤ rest.length := by
  unfold nextToken
  repeat' split
  all_goals first
    | exact Nat.le_refl _
    | exact literal_length ..
    | skip
  · next h => exact scanText_length h
  · simp
  · exact numberToken_length (fun _ _ h => Nat.le_of_lt (scanNumeral_length h))
  · exact numberToken_length (fun _ _ h => Nat.le_of_lt_succ (scanNumeral_length h))

/-- The tokens of a text. -/
def tokens : List Char → List Token
  | [] => []
  | c :: rest =>
    if isSpace c then tokens rest
    else (nextToken c rest).1 :: tokens (nextToken c rest).2
termination_by cs => cs.length
decreasing_by
  · simp
  · have := nextToken_length c rest
    simp only [List.length_cons]
    omega

end SpendingLedger.Json
