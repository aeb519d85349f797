import SpendingLedger.Proofs.Deployment.Confinement

/-!
Users do not interfere. The store keeps all users in one book, but what one of them is told, and the
rows that are left of them, come out the same if the operations about all others are left out of the
run. Only the numbers that the book gives to transactions, and the times it stamps on them, may
differ.
-/

namespace SpendingLedger

/-! ### Stamps -/

/-- A transaction without the number and the time that it got when it was recorded. -/
def Transaction.unstamped (t : Transaction) : Transaction :=
  { t with id := 0, createdAt := default }

def Insertion.unstamped : Insertion → Insertion
  | recorded t newTotal => .recorded t.unstamped newTotal
  | capExceeded total => .capExceeded total

def Response.unstamped : Response → Response
  | created r => .created (r.map Transaction.unstamped)
  | listed r => .listed (r.map (List.map Transaction.unstamped))
  | paid r => .paid r
  | totalled r => .totalled r

/-! ### Books -/

/-- Two books are alike for a user if they differ in the user's stamps at most. -/
structure Book.Alike (u : UserId) (b b' : Book) : Prop where
  rowsOf_eq : (b.rowsOf u).map Transaction.unstamped = (b'.rowsOf u).map Transaction.unstamped
  total_eq : b.totals.get? u = b'.totals.get? u

namespace Book

variable {u : UserId} {b b' : Book}

theorem SameFor.alike (h : SameFor u b b') : Alike u b b' where
  rowsOf_eq := (congrArg _ h.rowsOf_eq).symm
  total_eq := h.total_eq.symm

theorem Alike.symm (h : Alike u b b') : Alike u b' b := ⟨h.rowsOf_eq.symm, h.total_eq.symm⟩

theorem Alike.trans {b'' : Book} (h : Alike u b b') (h' : Alike u b' b'') : Alike u b b'' :=
  ⟨h.rowsOf_eq.trans h'.rowsOf_eq, h.total_eq.trans h'.total_eq⟩

/-- Whether an entry fits depends on its user's total only. -/
theorem Alike.insert {e : Entry} (h : Alike e.user b b') (now now' : Timestamp) (cap : Decimal) :
    (b.insert now e cap).1.unstamped = (b'.insert now' e cap).1.unstamped ∧
      Alike e.user (b.insert now e cap).2 (b'.insert now' e cap).2 := by
  have htotal : b.total e.user = b'.total e.user := congrArg (·.getD .zero) h.total_eq
  rw [Book.insert, Book.insert, htotal]
  cases e.amount.addWithin? (b'.total e.user) cap with
  | none => exact ⟨rfl, h⟩
  | some newTotal =>
    refine ⟨rfl, ?_, ?_⟩
    · have hrows := (b.rowsOf_record now e newTotal e.user).trans (if_pos rfl)
      have hrows' := (b'.rowsOf_record now' e newTotal e.user).trans (if_pos rfl)
      show ((b.record now e newTotal).rowsOf e.user).map _ =
        ((b'.record now' e newTotal).rowsOf e.user).map _
      rw [hrows, hrows', List.map_cons, List.map_cons, h.rowsOf_eq]
      rfl
    · exact (Table.get?_insert_self ..).trans (Table.get?_insert_self ..).symm

theorem countP_map_unstamped (b : Book) (u : UserId) : b.rows.countP (fun t => IsUnpaidOf u t) =
    ((b.rowsOf u).map Transaction.unstamped).countP (fun t => !t.isPaid) := by
  rw [countP_isUnpaidOf, List.countP_map]
  rfl

theorem map_unstamped_markPaid (b : Book) (u : UserId) :
    ((b.markPaid u).2.rowsOf u).map Transaction.unstamped =
      ((b.rowsOf u).map Transaction.unstamped).map
        (fun t => if IsUnpaidOf u t then { t with isPaid := true } else t) := by
  rw [rowsOf_markPaid, List.map_map, List.map_map]
  refine List.map_congr_left fun t _ => ?_
  simp only [Function.comp_apply]
  split
  · next h => exact (if_pos h).symm
  · next h => exact (if_neg h).symm

theorem Alike.markPaid (h : Alike u b b') :
    (b.markPaid u).1 = (b'.markPaid u).1 ∧ Alike u (b.markPaid u).2 (b'.markPaid u).2 := by
  refine ⟨?_, ?_, h.total_eq⟩
  · show UInt64.ofNat _ = UInt64.ofNat _
    rw [countP_map_unstamped, countP_map_unstamped, h.rowsOf_eq]
  · rw [map_unstamped_markPaid, map_unstamped_markPaid, h.rowsOf_eq]

end Book

/-! ### Deployments -/

/-- The store says the same up to what `R` lets differ. -/
def StoreReply.Agree {α : Type} (R : α → α → Prop) : StoreReply α → StoreReply α → Prop
  | answered (.ok v), answered (.ok v') => R v v'
  | answered (.error f), answered (.error f') => f = f'
  | silent, silent => True
  | _, _ => False

namespace Deployment

/-- Two deployments are alike for a user as far as the ledger is concerned. -/
structure Alike (u : UserId) (s s' : Deployment) : Prop where
  cap_eq : s.cap = s'.cap
  storeDown_eq : s.storeDown = s'.storeDown
  storeSilent_eq : s.storeSilent = s'.storeSilent
  book : s.book.Alike u s'.book

variable {u : UserId} {s s' s'' : Deployment}

theorem alike_refl (s : Deployment) (u : UserId) : Alike u s s := ⟨rfl, rfl, rfl, rfl, rfl⟩

theorem Alike.symm (h : Alike u s s') : Alike u s' s :=
  ⟨h.cap_eq.symm, h.storeDown_eq.symm, h.storeSilent_eq.symm, h.book.symm⟩

theorem Alike.trans (h : Alike u s s') (h' : Alike u s' s'') : Alike u s s'' :=
  ⟨h.cap_eq.trans h'.cap_eq, h.storeDown_eq.trans h'.storeDown_eq,
    h.storeSilent_eq.trans h'.storeSilent_eq, h.book.trans h'.book⟩

theorem Spared.alike (h : Spared u s s') : Alike u s s' := by
  obtain ⟨book, announced, notices, hbook, -, rfl⟩ := h
  exact ⟨rfl, rfl, rfl, hbook.alike⟩

/-- Stores that are alike are up at the same times. -/
theorem Alike.reply_consult (h : Alike u s s') {α : Type} {R : α → α → Prop}
    {call : Deployment → α × Deployment}
    (hcall : R (call s).1 (call s').1 ∧ Alike u (call s).2 (call s').2) :
    StoreReply.Agree R ((reply (consult call)).run s).1 ((reply (consult call)).run s').1 ∧
      Alike u ((reply (consult call)).run s).2 ((reply (consult call)).run s').2 := by
  rw [run_reply, run_reply, run_consult, run_consult, h.storeSilent_eq, h.storeDown_eq]
  cases s'.storeSilent with
  | true => exact ⟨trivial, h⟩
  | false =>
    cases s'.storeDown with
    | true => exact ⟨rfl, h⟩
    | false => exact hcall

end Deployment

/-! ### Demands -/

namespace Demand

/-- Two answers to a demand differ in stamps at most. -/
def Agree : (d : Demand) → d.Answer → d.Answer → Prop
  | insert .., r, r' => StoreReply.Agree (fun v v' => v.unstamped = v'.unstamped) r r'
  | rowsOf _, r, r' => StoreReply.Agree
      (fun ts ts' => ts.map Transaction.unstamped = ts'.map Transaction.unstamped) r r'
  | total _, r, r' | markPaid _, r, r' => StoreReply.Agree (fun v v' => v = v') r r'
  | now, _, _ | announce _, _, _ | report _, _, _ => True

variable {u : UserId} {s s' : Deployment}

theorem agree_perform {d : Demand} (hd : d.user? = some u) (h : s.Alike u s') :
    d.Agree (d.perform.run s).1 (d.perform.run s').1 ∧
      (d.perform.run s).2.Alike u (d.perform.run s').2 := by
  cases d with
  | insert e cap =>
    obtain rfl := Option.some.inj hd
    obtain ⟨hinsertion, hbook⟩ := h.book.insert s.clock s'.clock cap
    exact h.reply_consult ⟨hinsertion, { h with book := hbook }⟩
  | rowsOf v =>
    obtain rfl := Option.some.inj hd
    exact h.reply_consult ⟨h.book.rowsOf_eq, h⟩
  | total v =>
    obtain rfl := Option.some.inj hd
    exact h.reply_consult ⟨congrArg (·.getD .zero) h.book.total_eq, h⟩
  | markPaid v =>
    obtain rfl := Option.some.inj hd
    obtain ⟨hcount, hbook⟩ := h.book.markPaid
    exact h.reply_consult ⟨hcount, { h with book := hbook }⟩
  | announce e => exact ⟨trivial, { h with }⟩
  | now | report _ => contradiction

/-- Whatever leaves the store alone leaves the user alone. -/
theorem alike_perform {d : Demand} (hd : d.IsAside) (u : UserId) (s : Deployment) :
    s.Alike u (d.perform.run s).2 := by
  cases d with
  | now | announce _ | report _ => exact ⟨rfl, rfl, rfl, rfl, rfl⟩
  | insert | rowsOf | total | markPaid => exact hd.elim

end Demand

/-! ### Programs -/

/-- Two programs make the same demands about `u`, whatever the stamps in the answers, and end with
results that `R` relates. What else they do leaves the store alone. -/
inductive Program.Twins {α : Type} (u : UserId) (R : α → α → Prop) :
    Program α → Program α → Prop
  | done {a a' : α} (h : R a a') : Twins u R (.done a) (.done a')
  | ask {d : Demand} {next next' : d.Answer → Program α} (hd : d.user? = some u)
      (h : ∀ r r', d.Agree r r' → Twins u R (next r) (next' r')) :
    Twins u R (.ask d next) (.ask d next')
  | aside {d d' : Demand} {next : d.Answer → Program α} {next' : d'.Answer → Program α}
      (hd : d.IsAside) (hd' : d'.IsAside) (h : ∀ r r', Twins u R (next r) (next' r')) :
    Twins u R (.ask d next) (.ask d' next')

namespace Program

variable {α β : Type} {u : UserId} {R : α → α → Prop} {p p' : Program α}

theorem Twins.map (h : Twins u R p p') {S : β → β → Prop} {f : α → β}
    (hf : ∀ a a', R a a' → S (f a) (f a')) : Twins u S (f <$> p) (f <$> p') := by
  induction h with
  | done h => exact .done (hf _ _ h)
  | ask hd _ ih => exact .ask hd ih
  | aside hd hd' _ ih => exact .aside hd hd' ih

/-- Twins that take turns on deployments that are alike stay twins, and the deployments alike. -/
theorem Twins.step (h : Twins u R p p') {s s' : Deployment} (hs : s.Alike u s') :
    Twins u R (p.step.run s).1 (p'.step.run s').1 ∧
      (p.step.run s).2.Alike u (p'.step.run s').2 := by
  cases h with
  | done h => exact ⟨.done h, hs⟩
  | @ask d next next' hd h =>
    obtain ⟨hagree, halike⟩ := Demand.agree_perform hd hs
    exact ⟨h _ _ hagree, halike⟩
  | @aside d d' next next' hd hd' h =>
    exact ⟨h _ _, ((Demand.alike_perform hd u s).symm.trans hs).trans
      (Demand.alike_perform hd' u s')⟩

/-- The result of a program that is over. -/
def result? : Program α → Option α
  | done a => some a
  | ask .. => none

end Program

/-! ### The operations -/

namespace Accounting

open Program

variable {context : Context} {u : UserId}

theorem within_agree (context : Context) {α : Type} {R : α → α → Prop} {r r' : StoreReply α}
    (h : StoreReply.Agree R r r') :
    (∃ e, within context r = .error e ∧ within context r' = .error e) ∨
      ∃ v v', within context r = .ok v ∧ within context r' = .ok v' ∧ R v v' := by
  rcases r with (f | v) | _ <;> rcases r' with (f' | v') | _ <;> try contradiction
  · obtain rfl : f = f' := h
    exact .inl ⟨_, rfl, rfl⟩
  · exact .inr ⟨v, v', rfl, rfl, h⟩
  · cases hbudget : context.budget with
    | none => exact .inl ⟨.unanswered, by rw [within, hbudget], by rw [within, hbudget]⟩
    | some budget => exact .inl ⟨.timedOut budget, by rw [within, hbudget], by rw [within, hbudget]⟩

theorem twins_create (cap : Decimal) (context : Context) {c : Command} (h : c.user = u.value) :
    Twins u (fun r r' => r.map Transaction.unstamped = r'.map Transaction.unstamped)
      (create (m := Program) cap context c) (create (m := Program) cap context c) := by
  rw [create]
  cases hentry : entryOf context c with
  | error e => exact .done rfl
  | ok entry =>
    have hu := UserId.eq_of_value_eq ((of_entryOf_eq_ok hentry).1.trans h)
    refine .ask (congrArg some hu) fun r r' hr => ?_
    simp only [Program.bind]
    rcases within_agree context hr with ⟨e, he, he'⟩ | ⟨v, v', hv, hv', hvv'⟩
    · rw [he, he']
      exact .done rfl
    · rw [hv, hv']
      cases v with
      | capExceeded total =>
        cases v' with
        | capExceeded total' =>
          cases hvv'
          exact .aside trivial trivial fun _ _ => .done rfl
        | recorded => cases hvv'
      | recorded t total =>
        cases v' with
        | capExceeded => cases hvv'
        | recorded t' total' =>
          have ht : t.unstamped = t'.unstamped := (Insertion.recorded.inj hvv').1
          refine .aside trivial trivial fun _ _ => .aside trivial trivial fun _ _ => ?_
          exact .aside trivial trivial fun _ _ => .done (congrArg Except.ok ht)

theorem twins_list (context : Context) {user : Int64} (h : user = u.value) :
    Twins u (fun r r' => r.map (List.map Transaction.unstamped) =
        r'.map (List.map Transaction.unstamped))
      (list (m := Program) context user) (list (m := Program) context user) := by
  rw [list]
  cases hv : subject context user with
  | error e => exact .done rfl
  | ok v =>
    have hu := UserId.eq_of_value_eq ((of_subject_eq_ok hv).1.trans h)
    refine .ask (congrArg some hu) fun r r' hr => .done ?_
    rcases within_agree context hr with ⟨e, he, he'⟩ | ⟨ts, ts', hts, hts', hagree⟩
    · rw [he, he']
    · rw [hts, hts']
      exact congrArg Except.ok hagree

theorem twins_pay (context : Context) {user : Int64} (h : user = u.value) :
    Twins u (fun r r' => r = r') (pay (m := Program) context user)
      (pay (m := Program) context user) := by
  rw [pay]
  cases hv : subject context user with
  | error e => exact .done rfl
  | ok v =>
    have hu := UserId.eq_of_value_eq ((of_subject_eq_ok hv).1.trans h)
    refine .ask (congrArg some hu) fun r r' hr => ?_
    simp only [Program.bind]
    rcases within_agree context hr with ⟨e, he, he'⟩ | ⟨count, _, hcount, hcount', rfl⟩
    · rw [he, he']
      exact .done rfl
    · rw [hcount, hcount']
      refine .aside trivial trivial fun _ _ => ?_
      by_cases hpos : 0 < count
      · simp only [hpos, ↓reduceIte]
        refine .aside trivial trivial fun _ _ => ?_
        exact .aside trivial trivial fun _ _ => .done rfl
      · simp only [hpos, ↓reduceIte]
        exact .done rfl

theorem twins_total (context : Context) {user : Int64} (h : user = u.value) :
    Twins u (fun r r' => r = r') (total (m := Program) context user)
      (total (m := Program) context user) := by
  rw [total]
  cases hv : subject context user with
  | error e => exact .done rfl
  | ok v =>
    have hu := UserId.eq_of_value_eq ((of_subject_eq_ok hv).1.trans h)
    refine .ask (congrArg some hu) fun r r' hr => .done ?_
    rcases within_agree context hr with ⟨e, he, he'⟩ | ⟨n, _, hn, hn', rfl⟩
    · rw [he, he']
    · rw [hn, hn']

end Accounting

/-- Two programs for `u` with results that differ in stamps at most. -/
def Program.Matching (u : UserId) (p p' : Program Response) : Prop :=
  Program.Twins u (fun r r' => r.unstamped = r'.unstamped) p p'

theorem Request.matching_program (cap : Decimal) {r : Request} {u : UserId}
    (h : r.subject = u.value) : Program.Matching u (r.program cap) (r.program cap) := by
  cases r with
  | create context c =>
    exact (Accounting.twins_create cap context h).map fun _ _ h => congrArg Response.created h
  | list context user =>
    exact (Accounting.twins_list context h).map fun _ _ h => congrArg Response.listed h
  | pay context user =>
    exact (Accounting.twins_pay context h).map fun _ _ h => congrArg Response.paid h
  | total context user =>
    exact (Accounting.twins_total context h).map fun _ _ h => congrArg Response.totalled h

theorem Program.Matching.result?_eq {u : UserId} {p p' : Program Response} (h : Matching u p p') :
    p.result?.map Response.unstamped = p'.result?.map Response.unstamped := by
  cases h with
  | done h => exact congrArg some h
  | ask | aside => rfl

/-! ### Runs -/

namespace Traffic

/-- The requests so far, in the order in which their calls were begun. -/
def requests (t : Traffic) : List Request := t.calls.map (·.request)

/-- The place of call `i` among those about the user with that number. -/
def place (n : Int64) (begun : List Request) (i : Nat) : Nat :=
  (begun.take i).countP (·.subject = n)

/-- What is left of a step, after the requests `begun`, if all operations about other users are
deleted. The calls that are left are numbered anew. -/
def stepFor (n : Int64) (begun : List Request) : Step → List Step
  | .begin r => if r.subject = n then [.begin r] else []
  | .advance i =>
    if begun[i]?.map Request.subject = some n then [.advance (place n begun i)] else []
  | .setStore down silent => [.setStore down silent]
  | .setClock time => [.setClock time]

def requestsAfter (begun : List Request) : Step → List Request
  | .begin r => begun ++ [r]
  | _ => begun

/-- What is left of a run. -/
def stepsFor (n : Int64) (begun : List Request) : List Step → List Step
  | [] => []
  | s :: rest => stepFor n begun s ++ stepsFor n (requestsAfter begun s) rest

/-- The calls of a run beside those of the run that is left for `u`: the latter are the calls about
`u`, and do the same. -/
inductive Beside (u : UserId) : List Call → List Call → Prop
  | nil : Beside u [] []
  | mine {c c' : Call} {cs cs' : List Call} (hc : c.request.subject = u.value)
      (hrequest : c.request = c'.request) (hprogram : Program.Matching u c.program c'.program)
      (h : Beside u cs cs') : Beside u (c :: cs) (c' :: cs')
  | other {c : Call} {cs cs' : List Call} (hc : c.request.subject ≠ u.value)
      (hprogram : c.program.Avoids u (fun _ => True)) (h : Beside u cs cs') :
    Beside u (c :: cs) cs'

variable {u : UserId} {cs cs' : List Call}

theorem Beside.append (h : Beside u cs cs') {ds ds' : List Call} (hd : Beside u ds ds') :
    Beside u (cs ++ ds) (cs' ++ ds') := by
  induction h with
  | nil => exact hd
  | mine hc hrequest hprogram _ ih => exact .mine hc hrequest hprogram ih
  | other hc hprogram _ ih => exact .other hc hprogram ih

theorem place_cons_succ (n : Int64) (r : Request) (begun : List Request) (i : Nat) :
    place n (r :: begun) (i + 1) = place n begun i + if r.subject = n then 1 else 0 := by
  rw [place, List.take_succ_cons, List.countP_cons, place]
  simp only [decide_eq_true_eq]

/-- A call about `u` has its place in the run that is left, and may go on together with it. -/
theorem Beside.at_place (h : Beside u cs cs') {i : Nat} {c : Call} (hi : cs[i]? = some c)
    (hc : c.request.subject = u.value) :
    ∃ c', cs'[place u.value (cs.map (·.request)) i]? = some c' ∧
      Program.Matching u c.program c'.program ∧
      ∀ p p', Program.Matching u p p' → Beside u (cs.set i { c with program := p })
        (cs'.set (place u.value (cs.map (·.request)) i) { c' with program := p' }) := by
  induction h generalizing i with
  | nil => contradiction
  | @mine d d' ds ds' hd hrequest hprogram hrest ih =>
    cases i with
    | zero =>
      obtain rfl := Option.some.inj hi
      exact ⟨d', rfl, hprogram, fun p p' hp => .mine hd hrequest hp hrest⟩
    | succ i =>
      obtain ⟨c', hc', hmatching, hset⟩ := ih hi
      rw [List.map_cons, place_cons_succ, if_pos hd]
      exact ⟨c', hc', hmatching, fun p p' hp => .mine hd hrequest hprogram (hset p p' hp)⟩
  | @other d ds ds' hd hprogram hrest ih =>
    cases i with
    | zero =>
      obtain rfl := Option.some.inj hi
      exact absurd hc hd
    | succ i =>
      obtain ⟨c', hc', hmatching, hset⟩ := ih hi
      rw [List.map_cons, place_cons_succ, if_neg hd]
      exact ⟨c', hc', hmatching, fun p p' hp => .other hd hprogram (hset p p' hp)⟩

/-- A call about another user avoids `u`, and may go on alone. -/
theorem Beside.apart (h : Beside u cs cs') {i : Nat} {c : Call} (hi : cs[i]? = some c)
    (hc : c.request.subject ≠ u.value) :
    c.program.Avoids u (fun _ => True) ∧ ∀ p : Program Response, p.Avoids u (fun _ => True) →
      Beside u (cs.set i { c with program := p }) cs' := by
  induction h generalizing i with
  | nil => contradiction
  | mine hd hrequest hprogram hrest ih =>
    cases i with
    | zero =>
      obtain rfl := Option.some.inj hi
      exact absurd hd hc
    | succ i =>
      obtain ⟨havoids, hset⟩ := ih hi
      exact ⟨havoids, fun p hp => .mine hd hrequest hprogram (hset p hp)⟩
  | other hd hprogram hrest ih =>
    cases i with
    | zero =>
      obtain rfl := Option.some.inj hi
      exact ⟨hprogram, fun p hp => .other hd hp hrest⟩
    | succ i =>
      obtain ⟨havoids, hset⟩ := ih hi
      exact ⟨havoids, fun p hp => .other hd hprogram (hset p hp)⟩

/-- What came of a call so far, up to stamps. -/
def outcome (c : Call) : Request × Option Response :=
  (c.request, c.program.result?.map Response.unstamped)

theorem Beside.map_outcome (h : Beside u cs cs') :
    (cs.filter (·.request.subject = u.value)).map outcome = cs'.map outcome := by
  induction h with
  | nil => rfl
  | mine hc hrequest hprogram _ ih =>
    rw [List.filter_cons, if_pos (decide_eq_true hc), List.map_cons, List.map_cons, ih, outcome,
      outcome, hrequest, hprogram.result?_eq]
  | other hc _ _ ih => rw [List.filter_cons, if_neg (by simpa using hc), ih]

/-- Two sites that are alike for `u`, with the calls of one beside those of the other. -/
structure Separate (u : UserId) (t t' : Traffic) : Prop where
  site : t.site.Alike u t'.site
  calls : Beside u t.calls t'.calls

variable {t t' : Traffic}

theorem Separate.begin (h : Separate u t t') (r : Request) :
    Separate u (t.step (.begin r)) (t'.run (stepFor u.value t.requests (.begin r))) := by
  rw [stepFor]
  split
  · next hr =>
    have hcall : Beside u [⟨r, r.program t.site.cap⟩] [⟨r, r.program t'.site.cap⟩] := by
      rw [← h.site.cap_eq]
      exact .mine hr rfl (r.matching_program t.site.cap hr) .nil
    exact ⟨h.site, h.calls.append hcall⟩
  · next hr =>
    have hcall : Beside u [⟨r, r.program t.site.cap⟩] [] :=
      .other hr (r.avoids_program t.site.cap hr) .nil
    refine ⟨h.site, ?_⟩
    have hcalls := h.calls.append hcall
    rw [List.append_nil] at hcalls
    exact hcalls

theorem Separate.advance (h : Separate u t t') (i : Nat) :
    Separate u (t.step (.advance i)) (t'.run (stepFor u.value t.requests (.advance i))) := by
  rw [stepFor, requests, List.getElem?_map]
  cases hi : t.calls[i]? with
  | none =>
    rw [if_neg nofun]
    simp only [step, hi]
    exact h
  | some c =>
    rw [Option.map_some, Option.map_some]
    by_cases hc : c.request.subject = u.value
    · rw [if_pos (congrArg some hc)]
      obtain ⟨c', hc', hmatching, hset⟩ := h.calls.at_place hi hc
      obtain ⟨hmatching', hsite⟩ := hmatching.step h.site
      simp only [run, List.foldl_cons, List.foldl_nil, step, hi, hc']
      exact ⟨hsite, hset _ _ hmatching'⟩
    · rw [if_neg fun heq => hc (Option.some.inj heq)]
      obtain ⟨havoids, hset⟩ := h.calls.apart hi hc
      obtain ⟨havoids', hspared⟩ := havoids.step t.site
      simp only [step, hi]
      exact ⟨hspared.alike.symm.trans h.site, hset _ havoids'⟩

theorem Separate.step (h : Separate u t t') (s : Step) :
    Separate u (t.step s) (t'.run (stepFor u.value t.requests s)) := by
  cases s with
  | begin r => exact h.begin r
  | advance i => exact h.advance i
  | setStore down silent =>
    exact ⟨{ h.site with storeDown_eq := rfl, storeSilent_eq := rfl }, h.calls⟩
  | setClock time => exact ⟨{ h.site with }, h.calls⟩

theorem requests_step (t : Traffic) (s : Step) :
    (t.step s).requests = requestsAfter t.requests s := by
  cases s with
  | begin r => exact List.map_append
  | advance i =>
    rw [Traffic.step]
    split
    · rfl
    · next c hi =>
      have hrequest : t.requests[i]? = some c.request := by
        rw [requests, List.getElem?_map, hi]
        rfl
      obtain ⟨hlt, hget⟩ := List.getElem?_eq_some_iff.1 hrequest
      show (t.calls.set i _).map (·.request) = t.requests
      rw [List.map_set, ← hget]
      exact List.set_getElem_self hlt
  | setStore | setClock => rfl

theorem Separate.run (h : Separate u t t') (steps : List Step) :
    Separate u (t.run steps) (t'.run (stepsFor u.value t.requests steps)) := by
  induction steps generalizing t t' with
  | nil => exact h
  | cons s rest ih =>
    have hrest := ih (h.step s)
    rw [requests_step] at hrest
    rw [stepsFor, Traffic.run, Traffic.run, List.foldl_append]
    exact hrest

/-- What becomes of the calls about a user, and the user's rows, are the same if all operations
about other users are deleted from the run, whatever the store is put through. -/
theorem run_undisturbed (site : Deployment) (u : UserId) (steps : List Step) :
    let t := run ⟨site, [], []⟩ steps
    let t' := run ⟨site, [], []⟩ (stepsFor u.value [] steps)
    (t.calls.filter (·.request.subject = u.value)).map outcome = t'.calls.map outcome ∧
      (t.site.book.rowsOf u).map Transaction.unstamped =
        (t'.site.book.rowsOf u).map Transaction.unstamped := by
  intro t t'
  have hstart : Separate u ⟨site, [], []⟩ ⟨site, [], []⟩ := ⟨site.alike_refl u, .nil⟩
  have hend : Separate u t t' := hstart.run steps
  exact ⟨hend.calls.map_outcome, hend.site.book.rowsOf_eq⟩

end Traffic

end SpendingLedger
