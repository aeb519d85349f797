import SpendingLedger.Json.Printer
import SpendingLedger.Text.Percent

/-!
HTTP requests and responses, as far as the services look at them.
-/

namespace SpendingLedger.Web

structure Request where
  method : String
  /-- The target as sent. -/
  target : String
  /-- Names and values; of several headers of one name the first counts. -/
  headers : List (String × String)
  body : ByteArray

/-- What a response carries. -/
inductive Body where
  | json (v : Json)
  /-- Announced as JSON, but left out. -/
  | noJson
  | text (s : String)

structure Response where
  status : Nat
  body : Body

namespace Response

/-- A successful response. -/
def ok (v : Json) : Response := ⟨200, .json v⟩

/-- A response without anything to say. -/
def bare (status : Nat) : Response := ⟨status, .text ""⟩

/-- The response as an answer to a request for the head alone. -/
def withoutBody (r : Response) : Response :=
  { r with body := match r.body with
    | .json _ | .noJson => .noJson
    | .text _ => .text "" }

end Response

/-- A status with its usual phrase. -/
def statusText (status : Nat) : String :=
  let phrase := match status with
    | 200 => "OK"
    | 201 => "Created"
    | 400 => "Bad Request"
    | 401 => "Unauthorized"
    | 403 => "Forbidden"
    | 404 => "Not Found"
    | 405 => "Method Not Allowed"
    | 413 => "Payload Too Large"
    | 415 => "Unsupported Media Type"
    | 422 => "Unprocessable Entity"
    | 500 => "Internal Server Error"
    | 504 => "Gateway Timeout"
    | _ => "Unknown"
  s!"{Text.ofInt status} {phrase}"

/-! ### Targets -/

/-- A character of a target that ends its path. -/
def endsPath (c : Char) : Bool := c == '?' || c == '#'

/-- A target without its fragment. -/
def withoutFragment (target : String) : List Char := target.toList.takeWhile (· != '#')

/-- A scheme as it is reported: those of the web in lower case, any other as sent. -/
def schemeName (scheme : List Char) : List Char :=
  let lower := scheme.map Char.toLower
  if lower ∈ ["http".toList, "https".toList] then lower else scheme

/-- The scheme and the host of an absolute target, none for other targets, and what follows. -/
def splitHost (cs : List Char) : List Char × List Char :=
  match cs.dropWhile (fun c => c != ':' && !endsPath c && c != '/') with
  | ':' :: '/' :: '/' :: rest =>
    let inHost (c : Char) : Bool := c != '/' && !endsPath c
    let scheme := schemeName (cs.takeWhile (· != ':'))
    (scheme ++ [':', '/', '/'] ++ rest.takeWhile inHost, rest.dropWhile inHost)
  | _ => ([], cs)

/-- The scheme and the host of a request, empty if it does not name them. -/
def Request.host (r : Request) : List Char := (splitHost (withoutFragment r.target)).1

/-- The path and the query of a request as sent. -/
def Request.pathAndQuery (r : Request) : List Char := (splitHost (withoutFragment r.target)).2

def Request.path (r : Request) : String :=
  let path := r.pathAndQuery.takeWhile (!endsPath ·)
  if path.isEmpty then "/" else String.ofList path

def Request.query (r : Request) : List Char := (r.pathAndQuery.dropWhile (!endsPath ·)).drop 1

/-- The target of a request as it is reported. -/
def Request.uri (r : Request) : String :=
  String.ofList (r.host ++ r.path.toList ++ r.pathAndQuery.dropWhile (!endsPath ·))

/-! ### Headers -/

/-- The text in lower case, as far as it is ASCII. -/
def lowerCase (s : String) : String := s.map Char.toLower

/-- Whether a header value can be read as text: visible ASCII, blanks and tabs. -/
def isReadable (value : String) : Bool :=
  value.all (fun c => (0x20 ≤ c.toNat && c.toNat < 0x7F) || c == '\t')

/-- The value of the first header of that name, which is given in lower case. -/
def Request.header? (r : Request) (name : String) : Option String :=
  (r.headers.find? (fun h => lowerCase h.1 == name)).map (·.2)

/-- Headers whose values are not shown in reports. -/
def sensitiveHeaders : List String := ["authorization", "cookie", "set-cookie", "x-api-key"]

/-- Headers as they may be shown. -/
def maskHeaders (headers : List (String × String)) : List (String × String) :=
  headers.map (fun (name, value) =>
    let name := lowerCase name
    (name,
      if sensitiveHeaders.contains name then "[REDACTED]"
      else if isReadable value then value
      else "[invalid utf8]"))

/-! ### Queries -/

/-- Cuts a list at every element that satisfies `p`. -/
def splitWhere (p : Char → Bool) : List Char → List (List Char)
  | [] => [[]]
  | c :: rest =>
    match splitWhere p rest with
    | [] => [[]]
    | piece :: pieces => if p c then [] :: piece :: pieces else (c :: piece) :: pieces

/-- The text that a piece of a form stands for; a plus sign is a blank. `none` if it is no text. -/
def formText? (cs : List Char) : Option String :=
  Text.percentDecoded? (String.ofList (cs.map (fun c => if c == '+' then ' ' else c)))

/-- The values of a field in a query. A value that is no text is `none`. -/
def queryValues (name : String) (query : List Char) : List (Option String) :=
  ((splitWhere (· == '&') query).filter (!·.isEmpty)).filterMap (fun piece =>
    if formText? (piece.takeWhile (· != '=')) == some name then
      some (formText? ((piece.dropWhile (· != '=')).drop 1))
    else none)

end SpendingLedger.Web
