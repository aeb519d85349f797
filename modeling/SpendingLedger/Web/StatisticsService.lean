import SpendingLedger.Statistics
import SpendingLedger.Web.Problem

/-!
The statistics over HTTP.
-/

namespace SpendingLedger.Web.StatisticsService

/-- The path that stands above the users. -/
def usersPath : String := "/stats/users/"

/-- The rest of a path below the users, one segment that is not empty. -/
def userSegment? (path : String) : Option String :=
  match (path.dropPrefix? usersPath).map (·.copy) with
  | some segment => if segment.isEmpty || segment.contains '/' then none else some segment
  | none => none

/-- The statistics of the user that a segment names. -/
def userStatistics (s : Statistics) (segment : String) : Response :=
  match (Text.percentDecoded? segment).map (fun t => Text.readInt64 t.toList) with
  | some (.ok n) =>
    match UserId.of? n with
    | none => (Problem.ledger (.invalidUser n)).response
    | some u =>
      match s.users.get? u with
      | none => (Problem.notFound s!"no transactions seen for user {u.toText}").response
      | some totals =>
        .ok (.object [("user_id", u.toJson), ("transaction_count", .natural totals.count),
          ("amount", .text totals.amount.toText)])
  | _ => .bare 400

/-- What a path shows, if it is known. -/
def page? (s : Statistics) (path : String) : Option Response :=
  if path == "/health" then some (.ok (.object [("status", .text "ok")]))
  else if path == "/stats" then some (.ok s.toJson)
  else (userSegment? path).map (userStatistics s)

def respond (s : Statistics) (r : Request) : Response :=
  match page? s r.path with
  | none => .bare 404
  | some page =>
    if r.method == "GET" then page
    else if r.method == "HEAD" then page.withoutBody
    else .bare 405

end SpendingLedger.Web.StatisticsService
