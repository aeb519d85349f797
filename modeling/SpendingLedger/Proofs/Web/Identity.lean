import SpendingLedger.Web.LedgerService
import SpendingLedger.Proofs.Broker.History
import SpendingLedger.Proofs.Deployment.Confinement
import SpendingLedger.Proofs.Deployment.Messages
import SpendingLedger.Proofs.Text.Integer
import SpendingLedger.Proofs.Web.Disclosure

/-!
Who a request over HTTP is from, and whom it concerns. Only the header that names the caller counts.
A request leaves alone every user that it does not name there, whatever path, query and body it has:
their rows and totals stay as they are, no event of theirs is published, and no transaction of
theirs stands in the response. A request that names no user leaves everything alone.
-/

namespace SpendingLedger

open Deployment

/-! ### Callers -/

namespace Web

/-- The first header that names a caller can be read, and names this number. -/
def Request.Names (r : Request) (i : Int) : Prop :=
  ∃ h, r.headers.find? (fun h => lowerCase h.1 == "x-user-id") = some h ∧
    isReadable h.2 = true ∧ Text.IsInteger (Text.trim h.2.toList) i

namespace LedgerService

/-- The callers that are accepted are the users that are named. -/
theorem caller_eq_ok_iff {r : Request} {u : UserId} :
    caller r = .ok u ↔ r.Names u.value.toInt := by
  have hname : lowerCase userHeader = "x-user-id" := by decide +kernel
  rw [caller, Request.header?, hname, readable?, Request.Names]
  cases r.headers.find? (fun h => lowerCase h.1 == "x-user-id") with
  | none => exact ⟨nofun, fun ⟨_, h, _⟩ => nomatch h⟩
  | some h =>
    rw [Option.map_some, Option.filter_some]
    cases hread : isReadable h.2 with
    | false =>
      refine ⟨nofun, ?_⟩
      rintro ⟨_, ⟨⟩, h, -⟩
      rw [hread] at h
      contradiction
    | true =>
      rw [if_pos rfl]
      constructor
      · intro hok
        refine ⟨h, rfl, hread, Text.readInt64_eq_ok_iff.1 ?_⟩
        cases hi : Text.readInt64 (Text.trim h.2.toList) with
        | error fault =>
          simp only [hi] at hok
          contradiction
        | ok i =>
          simp only [hi] at hok
          cases hu : UserId.of? i with
          | none =>
            simp only [hu] at hok
            contradiction
          | some v =>
            simp only [hu] at hok
            cases hok
            rw [UserId.of?_eq_some_iff.1 hu]
      · rintro ⟨_, ⟨⟩, -, hinteger⟩
        simp only [Text.readInt64_eq_ok_iff.2 hinteger, UserId.of?_eq_some_iff.2 rfl]

theorem of_identify_eq_ok {standard : Span} {r : Request} {context : Context}
    (h : identify standard r = .ok context) :
    ∃ w, caller r = .ok w ∧ context.caller = some w := by
  rw [identify] at h
  cases hcaller : caller r with
  | error p =>
    rw [hcaller] at h
    contradiction
  | ok w =>
    rw [hcaller] at h
    cases hbudget : budget standard r with
    | error p =>
      rw [hbudget] at h
      contradiction
    | ok span =>
      rw [hbudget] at h
      cases h
      exact ⟨w, rfl, rfl⟩

end LedgerService

end Web

/-! ### Events under way -/

theorem UserId.routingKey_inj {u v : UserId} (h : u.routingKey = v.routingKey) : u = v := by
  have hpos (w : UserId) : 0 ≤ w.value.toInt := Int.le_of_lt (Int64.lt_iff_toInt_lt.1 w.pos)
  have hdigits : Text.signedDigits u.value.toInt = Text.signedDigits v.value.toInt :=
    String.ofList_injective h
  rw [Text.signedDigits, if_neg (Int.not_lt.2 (hpos u)), Text.signedDigits,
    if_neg (Int.not_lt.2 (hpos v))] at hdigits
  have hvalue := congrArg Text.value hdigits
  rw [Text.value_digits, Text.value_digits] at hvalue
  have := hpos u
  have := hpos v
  exact eq_of_value_eq (Int64.toInt_inj.1 (by omega))

namespace Deployment

/-- Announcing events publishes nothing but them, each under the key of its user. -/
theorem Announces.perm_keyed {channel : String} {s s' : Deployment} {events : List Event}
    {results : List (Event × Except AnnouncementError Unit)}
    (h : Announces channel s events results s') (hs : s.broker.Shaped) {key : String}
    (hkey : ∀ e ∈ events, e.user.routingKey ≠ key) :
    (s'.broker.letters.filter (·.key = key)).Perm (s.broker.letters.filter (·.key = key)) := by
  induction h with
  | done => exact .refl _
  | lost e err notices _ ih => exact ih hs fun e he => hkey e (List.mem_cons_of_mem _ he)
  | @posted s s' rest results e notices _ ih =>
    have hrest := ih (hs.post ..) fun e he => hkey e (List.mem_cons_of_mem _ he)
    have hpost := (Broker.perm_enqueue (hs.withState (s.broker.lastId + 1) s.broker.closed
      s.broker.unreachable) channel
      ⟨s.broker.lastId + 1, e.user.routingKey, e.encode, 0, s.clock⟩).1
    refine hrest.trans ((hpost.filter _).trans (.of_eq ?_))
    refine (List.filter_cons_of_neg fun heq => ?_).trans rfl
    exact hkey e List.mem_cons_self (of_decide_eq_true heq)

end Deployment

/-! ### Services -/

namespace Web

variable {u : UserId}

theorem Problem.onlyReports_answer (p : Problem) : OnlyReports (p.answer : Action Response) :=
  (onlyReports_reports p.notices).bind fun _ => onlyReports_pure p.response

theorem Problem.spares_answer (p : Problem) (u : UserId) :
    Spares u (Response.Omits u) (p.answer : Action Response) :=
  p.onlyReports_answer.spares u fun _ => p.omits_response u

namespace LedgerService

theorem spares_refuse (e : Refusal) (u : UserId) :
    Spares u (Response.Omits u) (refuse e : Action Response) := by
  cases e with
  | problem p => exact p.spares_answer u
  | bare status => exact spares_pure u (Response.omits_bare u status)

theorem spares_conclude {α : Type} {render : α → Response} {r : Except LedgerError α}
    (h : ∀ v, r = .ok v → (render v).Omits u) :
    Spares u (Response.Omits u) (conclude render r : Action Response) := by
  cases r with
  | ok v => exact spares_pure u (h v rfl)
  | error e => exact (Problem.ledger e).spares_answer u

/-- What is done for a caller spares everybody else. -/
theorem spares_perform {w : UserId} (hw : w ≠ u) (cap : Decimal) {context : Context}
    (hcaller : context.caller = some w) (r : Request) (o : Operation) :
    Spares u (Response.Omits u) (perform cap context r o : Action Response) := by
  have hsubject (i : Int64) : ∀ v, Accounting.subject context i = .ok v → v ≠ u := by
    rintro v hv rfl
    exact hw ((Accounting.of_subject_eq_ok hv).2 w hcaller)
  cases o with
  | create =>
    rw [perform]
    cases requestedEntry r with
    | error e => exact spares_refuse e u
    | ok command =>
      have hentry : ∀ entry, Accounting.entryOf context command = .ok entry → entry.user ≠ u := by
        rintro entry hentry rfl
        exact hw ((Accounting.of_entryOf_eq_ok hentry).2 w hcaller)
      have hcreate := (Accounting.avoids_create cap hentry).run
      rw [Accounting.run_create] at hcreate
      exact hcreate.bind fun result hresult => spares_conclude fun t ht =>
        Response.omits_transaction 201 (hresult t ht)
  | list =>
    rw [perform]
    cases queriedUser r with
    | error e => exact spares_refuse e u
    | ok user =>
      have hlist := (Accounting.avoids_list (hsubject user)).run
      rw [Accounting.run_list] at hlist
      exact hlist.bind fun result hresult => spares_conclude fun ts hts =>
        Response.omits_transactions 200 (hresult ts hts)
  | pay =>
    rw [perform]
    cases queriedUser r with
    | error e => exact spares_refuse e u
    | ok user =>
      have hpay := (Accounting.avoids_pay (hsubject user)).run
      rw [Accounting.run_pay] at hpay
      refine hpay.bind fun result _ => spares_conclude fun p _ => ?_
      refine Response.omits_flat u 200 (fun e he => ?_) fun t h => ?_
      · simp only [List.mem_cons, List.not_mem_nil, or_false] at he
        rcases he with rfl | rfl <;> exact ⟨_, rfl⟩
      · simp [Transaction.toJson] at h
  | total =>
    rw [perform]
    cases queriedUser r with
    | error e => exact spares_refuse e u
    | ok user =>
      have htotal := (Accounting.avoids_total (hsubject user)).run
      rw [Accounting.run_total] at htotal
      refine htotal.bind fun result _ => spares_conclude fun total _ => ?_
      refine Response.omits_flat u 200 (fun e he => ?_) fun t h => ?_
      · simp only [List.mem_cons, List.not_mem_nil, or_false] at he
        rcases he with rfl | rfl | rfl <;> exact ⟨_, rfl⟩
      · simp [Transaction.toJson] at h

theorem spares_dispatch {w : UserId} (hw : w ≠ u) (cap : Decimal) {context : Context}
    (hcaller : context.caller = some w) (r : Request) :
    Spares u (Response.Omits u) (dispatch cap context r : Action Response) := by
  rw [dispatch]
  cases route r.method r.path with
  | operation o => exact spares_perform hw cap hcaller r o
  | methodNotAllowed => exact spares_pure u (Response.omits_bare u 405)
  | notFound => exact spares_pure u (Response.omits_bare u 404)

theorem spares_answer {cap : Decimal} {standard : Span} {r : Request}
    (h : ∀ w, caller r = .ok w → w ≠ u) :
    Spares u (Response.Omits u) (answer cap standard r : Action Response) := by
  -- whether the body is left out or not
  have hhead (response : Response) (hresponse : response.Omits u) : Spares u (Response.Omits u)
      (if r.method == "HEAD" && (readOperation? r.path).isSome then pure response.withoutBody
        else pure response : Action Response) := by
    split
    · exact spares_pure u hresponse.withoutBody
    · exact spares_pure u hresponse
  rw [answer]
  cases hidentify : identify standard r with
  | error p => exact (p.spares_answer u).bind hhead
  | ok context =>
    obtain ⟨w, hcaller, hcontext⟩ := of_identify_eq_ok hidentify
    exact (spares_dispatch (h w hcaller) cap hcontext r).bind hhead

theorem omits_health (method : String) (u : UserId) : (health method).Omits u := by
  rw [health]
  split
  · exact Response.omits_text u 200 (by decide)
  · split
    · exact Response.omits_text u 200 (by decide)
    · exact Response.omits_bare u 405

theorem spares_respond {cap : Decimal} {standard : Span} {r : Request}
    (h : ∀ w, caller r = .ok w → w ≠ u) :
    Spares u (Response.Omits u) (respond cap standard r : Action Response) := by
  rw [respond]
  split
  · exact spares_pure u (omits_health r.method u)
  · have hreport (n : Notice) : Spares u (fun _ => True) (Reporting.report n : Action Unit) :=
      (onlyReports_report n).spares u fun _ => trivial
    refine (hreport _).bind fun _ _ => (spares_answer h).bind fun response hresponse => ?_
    exact (hreport _).bind fun _ _ => spares_pure u hresponse

/-- A request that is from nobody is answered without a look at the ledger. -/
theorem onlyReports_respond {cap : Decimal} {standard : Span} {r : Request}
    (h : ∀ w, caller r ≠ .ok w) : OnlyReports (respond cap standard r : Action Response) := by
  rw [respond]
  split
  · exact onlyReports_pure _
  · cases hcaller : caller r with
    | ok w => exact absurd hcaller (h w)
    | error p =>
      have hidentify : identify standard r = .error p := by
        rw [identify, hcaller]
        rfl
      rw [answer, hidentify]
      refine (onlyReports_report _).bind fun _ => OnlyReports.bind ?_ fun response => ?_
      · refine p.onlyReports_answer.bind fun response => ?_
        split <;> exact onlyReports_pure _
      · exact (onlyReports_report _).bind fun _ => onlyReports_pure response

end LedgerService

/-- What there is of a user, and what is under way, is as it was, and no transaction of the user is
shown. -/
structure PassesBy (u : UserId) (s : Deployment) (x : Response × Deployment) : Prop where
  rowsOf_eq : x.2.book.rowsOf u = s.book.rowsOf u
  total_eq : x.2.book.totals.get? u = s.book.totals.get? u
  broker_eq : x.2.broker = s.broker
  /-- What is announced, be it on any channel, adds nothing under the key of the user. -/
  announced : ∃ events, x.2.backlog = s.backlog ++ events ∧ ∀ channel,
    (((Announcement.deliverAll channel events : Action _).run x.2).2.broker.letters.filter
      (·.key = u.routingKey)).Perm (s.broker.letters.filter (·.key = u.routingKey))
  omits : ∀ t : Transaction, t.user = u → ¬ x.1.body.Shows t.toJson

theorem passesBy_of_spares {x : Action Response} (h : Spares u (Response.Omits u) x)
    {s : Deployment} (hs : s.broker.Shaped) : PassesBy u s (x.run s) := by
  obtain ⟨homits, book, events, notices, hbook, hevents, hstate⟩ := h s
  have hbookEq : (x.run s).2.book = book := by rw [hstate]
  have hbroker : (x.run s).2.broker = s.broker := by rw [hstate]
  have hbacklog : (x.run s).2.backlog = s.backlog ++ events := by rw [hstate]
  rw [← hbookEq] at hbook
  refine ⟨hbook.rowsOf_eq, hbook.total_eq, hbroker, ⟨events, hbacklog, fun channel => ?_⟩, homits⟩
  rw [← hbroker] at hs ⊢
  exact (announces_deliverAll channel events (x.run s).2).perm_keyed hs
    fun e he hkey => hevents e he (UserId.routingKey_inj hkey)

/-- A request passes by every user that it does not name as its caller, and changes nothing if it
names none. -/
theorem respond_passesBy {lanes : UInt32} {ops : List Operation} {s : Deployment}
    (hbroker : s.broker = ((History.new lanes).run ops).broker) (cap : Decimal) (standard : Span)
    (r : Request) (u : UserId) (hnames : ¬ r.Names u.value.toInt) :
    PassesBy u s ((LedgerService.respond cap standard r : Action Response).run s) ∧
      ((∀ v : UserId, ¬ r.Names v.value.toInt) → ∃ notices,
        ((LedgerService.respond cap standard r : Action Response).run s).2 = { s with notices }) := by
  have hshaped : s.broker.Shaped := by
    rw [hbroker]
    exact History.shaped_run lanes ops
  have hspares : Spares u (Response.Omits u)
      (LedgerService.respond cap standard r : Action Response) := by
    refine LedgerService.spares_respond fun w hw => ?_
    rintro rfl
    exact hnames (LedgerService.caller_eq_ok_iff.1 hw)
  refine ⟨passesBy_of_spares hspares hshaped, fun hnobody => ?_⟩
  exact LedgerService.onlyReports_respond
    (fun w hw => hnobody w (LedgerService.caller_eq_ok_iff.1 hw)) s

/-- User 7 asks for the transactions of user 8. -/
theorem respond_passesBy_other_caller :
    let u : UserId := ⟨8, by decide⟩
    let rent : Transaction := ⟨1, u, ⟨120000, by decide, by decide⟩, "rent", false, default⟩
    let s : Deployment := { fresh "transactions" 8 with book := { rows := [rent], lastId := 1 } }
    let r : Request := ⟨"GET", "/transactions?user_id=8", [("x-user-id", " 7 ")], .empty⟩
    s.broker = ((History.new 8).run []).broker ∧ ¬ r.Names u.value.toInt ∧
      PassesBy u s ((LedgerService.respond s.cap s.budget r : Action Response).run s) ∧
      ((∀ v : UserId, ¬ r.Names v.value.toInt) → ∃ notices,
        ((LedgerService.respond s.cap s.budget r : Action Response).run s).2 =
          { s with notices }) := by
  intro u rent s r
  have hnames : ¬ r.Names u.value.toInt := by
    rintro ⟨h, hfind, -, hinteger⟩
    have hfound : r.headers.find? (fun h => lowerCase h.1 == "x-user-id") =
        some ("x-user-id", " 7 ") := by decide +kernel
    obtain rfl := Option.some.inj (hfound.symm.trans hfind)
    have hread := Text.readInt64_eq_ok_iff.2 hinteger
    rw [show Text.trim " 7 ".toList = ['7'] by decide +kernel] at hread
    cases hread
  have hbroker : s.broker = ((History.new 8).run []).broker := rfl
  exact ⟨hbroker, hnames, respond_passesBy hbroker s.cap s.budget r u hnames⟩

end Web

end SpendingLedger
