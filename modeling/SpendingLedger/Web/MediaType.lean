/-!
Media types, as far as it takes to know JSON: a type and a subtype made of token characters, and
parameters whose values are tokens or quoted. A quoted value is never empty: a quote that follows
the opening one at once is its first character. What stands after the last plus sign of a subtype
is its suffix.
-/

namespace SpendingLedger.Web.MediaType

/-- Whether a character may stand in a token. -/
def isToken (c : Char) : Bool :=
  c.isAlphanum || "!#$%&'*+-.^_`|~".contains c

/-- Whether a character may stand in a quoted value. The quote may do so in front only. -/
def isQuotable (c : Char) : Bool := 0x20 ≤ c.toNat && c.toNat != 0x7F

/-- Drops a quoted value and the quote that closes it. -/
def afterValue? : List Char → Option (List Char)
  | [] => none
  | first :: rest =>
    let inside (c : Char) : Bool := isQuotable c && c != '"'
    match rest.dropWhile inside with
    | '"' :: rest => if isQuotable first then some rest else none
    | _ => none

/-- Drops what may stand between a quoted value and the next parameter. -/
def afterQuoted? (cs : List Char) : Option (List Char) :=
  match cs.dropWhile (· == ' ') with
  | [] => some []
  | ';' :: rest => some rest
  | _ => none

/-- Reads a parameter after its blanks; what follows it. -/
def parameter? (cs : List Char) : Option (List Char) :=
  match cs.takeWhile isToken, cs.dropWhile isToken with
  | _ :: _, '=' :: '"' :: rest => afterValue? rest >>= afterQuoted?
  | _ :: _, '=' :: rest =>
    match rest.takeWhile isToken, rest.dropWhile isToken with
    | _, [] => some []
    | _ :: _, ';' :: rest => some rest
    | _, _ => none
  | _, _ => none

/-- Whether parameters are well formed. Each takes at least one character, so as many steps as
there are characters suffice. -/
def areParameters : (steps : Nat) → List Char → Bool
  | 0, _ => true
  | n + 1, cs =>
    match cs.dropWhile (· == ' ') with
    | [] => true
    | cs =>
      match parameter? cs with
      | some rest => areParameters n rest
      | none => false

/-- Whether the text is a media type of JSON. -/
def isJson (value : String) : Bool :=
  let cs := value.toList.map Char.toLower
  match cs.dropWhile isToken with
  | '/' :: rest =>
    let subtype := rest.takeWhile isToken
    let wellFormed := !subtype.isEmpty && match rest.dropWhile isToken with
      | [] => true
      | ';' :: parameters => areParameters parameters.length parameters
      | _ => false
    -- a plus sign in front belongs to the name
    let tail := subtype.drop 1
    let suffix := (tail.reverse.takeWhile (· != '+')).reverse
    let hasSuffix := tail.contains '+'
    let name := if hasSuffix then subtype.take (subtype.length - suffix.length - 1) else subtype
    wellFormed && cs.takeWhile isToken == "application".toList &&
      (name == "json".toList || (hasSuffix && suffix == "json".toList))
  | _ => false

end SpendingLedger.Web.MediaType
