import SpendingLedger.Proofs.Accounting.Traffic
import SpendingLedger.Proofs.Amount.Fitting
import SpendingLedger.Proofs.Decimal.Denotation
import SpendingLedger.Proofs.Json.Fields
import SpendingLedger.Web.Problem

/-!
Refusals for lack of room and what their answers show. Under any cap and in any traffic, a refusal
names the user's total, the amount and the cap, and the two add up to more than the cap. The answer
shows the cap twice, with places cut off in the message and rounded in a field of its own. A client
that makes the check again with the first sees the refusal; with the second it may see equality.
-/

namespace SpendingLedger

open Decimal (Denotes HasPlaces cutTo roundTo)

/-! ### Totals -/

namespace Book

/-- The totals have at most two places, and none is negative. -/
def InHundredths (b : Book) : Prop := ∀ u, (b.total u).scale ≤ 2 ∧ 0 ≤ (b.total u).toRat

theorem inHundredths_empty : InHundredths {} := fun _ => ⟨Nat.zero_le _, Decimal.toRat_zero.ge⟩

variable {b : Book}

theorem InHundredths.markPaid (h : b.InHundredths) (u : UserId) :
    (b.markPaid u).2.InHundredths := h

theorem InHundredths.insert (h : b.InHundredths) (now : Timestamp) (e : Entry) (cap : Decimal) :
    (b.insert now e cap).2.InHundredths := by
  obtain ⟨hscale, hnonneg⟩ := h e.user
  rw [Book.insert]
  split
  · exact h
  · next newTotal hadd =>
    obtain ⟨hrounds, -, hplaces⟩ := Amount.of_addWithin?_eq_some hadd
    have hpos := e.amount.toRat_pos
    have hnew := hrounds.le_of_le .zero (by rw [Decimal.toRat_zero]; linarith)
    intro u
    simp only [total, Table.get?_insert]
    split
    · rw [Decimal.toRat_zero] at hnew
      exact ⟨hplaces.trans (Nat.max_le.2 ⟨hscale, Nat.le_refl _⟩), hnew⟩
    · exact h u

/-- An amount is refused if it takes the total over the cap. -/
theorem lt_of_insert_eq_capExceeded {now : Timestamp} {e : Entry} {cap total : Decimal}
    (h : (b.insert now e cap).1 = .capExceeded total) :
    total = b.total e.user ∧ cap.toRat < total.toRat + e.amount.toRat := by
  rw [insert] at h
  split at h
  · next hnone =>
    obtain rfl := Insertion.capExceeded.inj h
    exact ⟨rfl, Amount.lt_of_addWithin?_eq_none hnone⟩
  · contradiction

end Book

/-! ### What is behind a refusal -/

/-- A total of hundredths and an amount that takes it over the cap. -/
structure Overrun (cap total requested : Decimal) : Prop where
  scale_le : total.scale ≤ 2
  nonneg : 0 ≤ total.toRat
  amount : ∃ a : Amount, requested = a.toDecimal
  lt_add : cap.toRat < total.toRat + requested.toRat

/-- A response refuses for lack of room only under the cap that is in force, and only what overruns
it. -/
def Response.Sincere (cap : Decimal) (r : Response) : Prop :=
  ∀ total requested max, r = .created (.error (.capExceeded total requested max)) →
    max = cap ∧ Overrun cap total requested

namespace Accounting

theorem subject_ne_capExceeded {context : Context} {value : Int64}
    {total requested max : Decimal} :
    subject context value ≠ .error (.capExceeded total requested max) := by
  intro h
  rw [subject] at h
  split at h
  · cases h
  next user hu =>
  rcases Json.bind_eq_error_iff.1 h with hauth | ⟨_, -, hpure⟩
  · rw [authorize] at hauth
    split at hauth
    · cases hauth
    · split at hauth <;> cases hauth
  · cases hpure

/-- A request that is not in order is not refused for lack of room. -/
theorem entryOf_ne_capExceeded {context : Context} {c : Command} {total requested max : Decimal} :
    entryOf context c ≠ .error (.capExceeded total requested max) := by
  intro h
  rw [entryOf] at h
  split at h
  · cases h
  · rcases Json.bind_eq_error_iff.1 h with hsubject | ⟨_, -, hpure⟩
    · exact subject_ne_capExceeded hsubject
    · cases hpure

/-- Only the book refuses for lack of room. -/
theorem of_createdFrom_eq_capExceeded {context : Context} {entry : Entry}
    {reply : StoreReply Insertion} {cap total requested max : Decimal}
    (h : createdFrom cap context entry reply = .error (.capExceeded total requested max)) :
    reply = .answered (.ok (.capExceeded total)) ∧ requested = entry.amount.toDecimal ∧
      max = cap := by
  rw [createdFrom] at h
  cases reply with
  | silent =>
    simp only [within] at h
    cases hb : context.budget <;> rw [hb] at h <;> cases h
  | answered r =>
    cases r with
    | error f => cases h
    | ok outcome =>
      cases outcome with
      | recorded t newTotal => cases h
      | capExceeded total' =>
        cases h
        exact ⟨rfl, rfl, rfl⟩

end Accounting

namespace Traffic

/-- A call has not asked the store yet, or it leaves the store alone from here on and, if it is one
to record, ends with a sincere response. -/
inductive Pending (cap : Decimal) (c : Call) : Prop where
  | untouched (hp : c.program = c.request.program cap)
  | concluding (r : Response) (hp : c.program.Yields r)
      (h : ∀ context cmd, c.request = .create context cmd → r.Sincere cap)

/-- What holds at every moment of traffic under any cap. -/
structure Candid (cap : Decimal) (t : Traffic) : Prop where
  cap_eq : t.site.cap = cap
  inHundredths : t.site.book.InHundredths
  pending : ∀ c ∈ t.calls, Pending cap c

variable {cap : Decimal} {t : Traffic}

/-- A turn of a call keeps what it leaves of the site and of the other calls. -/
theorem Candid.update (h : t.Candid cap) {i : Nat} {site : Deployment} {call : Call}
    {postings : List Posting} (hcap : site.cap = cap) (hbook : site.book.InHundredths)
    (hcall : Pending cap call) : Candid cap ⟨site, t.calls.set i call, postings⟩ where
  cap_eq := hcap
  inHundredths := hbook
  pending c hc := by
    rcases List.mem_or_eq_of_mem_set hc with hc | rfl
    · exact h.pending c hc
    · exact hcall

theorem Candid.update_of_ne_insert (h : t.Candid cap) {i : Nat} {d : Demand}
    (hd : ∀ e cap, d ≠ .insert e cap) {call : Call} {postings : List Posting}
    (hcall : Pending cap call) :
    Candid cap ⟨(d.perform.run t.site).2, t.calls.set i call, postings⟩ := by
  obtain ⟨hcap, hbook⟩ := Demand.perform_of_ne_insert hd t.site
  refine h.update (hcap.trans h.cap_eq) ?_ hcall
  rcases hbook with hbook | ⟨u, hbook⟩ <;> rw [hbook]
  · exact h.inHundredths
  · exact h.inHundredths.markPaid u

/-- What the store says to an insertion leads to a sincere response, and the totals stay
hundredths. -/
theorem Candid.insert (h : t.Candid cap) (context : Context) (entry : Entry) :
    let answer := ((Demand.insert entry cap).perform.run t.site)
    answer.2.cap = cap ∧ answer.2.book.InHundredths ∧
      (Response.created (Accounting.createdFrom cap context entry answer.1)).Sincere cap := by
  intro answer
  have hrun : answer = (Bookkeeping.insert entry cap : Deployment.Action _).run t.site := rfl
  rcases t.site.run_insert entry cap with ⟨-, hr⟩ | ⟨-, hr | hr⟩ <;> rw [hrun, hr]
  · refine ⟨h.cap_eq, h.inHundredths.insert _ entry cap, fun total requested max hresponse => ?_⟩
    obtain ⟨hreply, rfl, rfl⟩ :=
      Accounting.of_createdFrom_eq_capExceeded (Response.created.inj hresponse)
    obtain ⟨rfl, hover⟩ := Book.lt_of_insert_eq_capExceeded
      (Except.ok.inj (StoreReply.answered.inj hreply))
    obtain ⟨hscale, hnonneg⟩ := h.inHundredths entry.user
    exact ⟨rfl, hscale, hnonneg, ⟨entry.amount, rfl⟩, by rwa [Amount.toRat_toDecimal]⟩
  · refine ⟨h.cap_eq, h.inHundredths, fun total requested max hresponse => ?_⟩
    exact nomatch (Accounting.of_createdFrom_eq_capExceeded (Response.created.inj hresponse)).1
  · refine ⟨h.cap_eq, h.inHundredths, fun total requested max hresponse => ?_⟩
    exact nomatch (Accounting.of_createdFrom_eq_capExceeded (Response.created.inj hresponse)).1

theorem Candid.advance (h : t.Candid cap) {i : Nat} {c : Call} (hc : t.calls[i]? = some c) :
    (t.step (.advance i)).Candid cap := by
  cases h.pending c (List.mem_of_getElem? hc) with
  | untouched hp =>
    rcases c.request.program_cases cap with ⟨⟨r, hprog⟩, -⟩ |
      ⟨context, cmd, entry, next, hreq, -, hprog, hnext⟩ | ⟨hreq, d, next, hprog, hd, hnext⟩
    · rw [step_advance_done hc (hp.trans hprog)]
      exact h
    · rw [step_advance_ask hc (hp.trans hprog)]
      obtain ⟨hcap, hbook, hsincere⟩ := h.insert context entry
      exact h.update hcap hbook (.concluding _ (hnext _).1 fun _ _ _ => hsincere)
    · rw [step_advance_ask hc (hp.trans hprog)]
      obtain ⟨r, hr, -⟩ := hnext (d.perform.run t.site).1
      exact h.update_of_ne_insert hd (.concluding r hr fun context cmd hreq' =>
        absurd hreq' (hreq context cmd))
  | concluding r hp hr =>
    cases hprog : c.program with
    | done a =>
      rw [step_advance_done hc hprog]
      exact h
    | ask d next =>
      rw [hprog] at hp
      obtain ⟨hd, hnext⟩ := hp.of_ask
      rw [step_advance_ask hc hprog]
      exact h.update_of_ne_insert hd.ne_insert (.concluding r (hnext _) hr)

theorem Candid.step (h : t.Candid cap) (s : Step) : (t.step s).Candid cap := by
  cases s with
  | begin r =>
    refine ⟨h.cap_eq, h.inHundredths, fun c hc => ?_⟩
    rcases List.mem_append.1 hc with hc | hc
    · exact h.pending c hc
    · obtain rfl := List.mem_singleton.1 hc
      exact .untouched (congrArg r.program h.cap_eq)
  | advance i =>
    cases hc : t.calls[i]? with
    | none =>
      rw [Traffic.step, hc]
      exact h
    | some c => exact h.advance hc
  | setStore down silent => exact ⟨h.1, h.2, h.3⟩
  | setClock time => exact ⟨h.1, h.2, h.3⟩

theorem candid_run {site : Deployment} (hbook : site.book = {}) (steps : List Step) :
    (run { site } steps).Candid site.cap := by
  refine run_induction ⟨rfl, ?_, nofun⟩ (fun _ s h => h.step s) steps
  rw [hbook]
  exact Book.inHundredths_empty

/-- A request to record that is over and was refused for lack of room. -/
theorem Candid.overrun (h : t.Candid cap) {i : Nat} {context : Context} {c : Command}
    {total requested max : Decimal} (hcall : t.calls[i]? =
      some ⟨.create context c, .done (.created (.error (.capExceeded total requested max)))⟩) :
    max = cap ∧ Overrun cap total requested := by
  cases h.pending _ (List.mem_of_getElem? hcall) with
  | untouched hp =>
    rcases Accounting.create_program cap context c with ⟨e, he, hprog⟩ | ⟨entry, next, -, hprog, -⟩
    · rw [Request.program, hprog] at hp
      obtain rfl : LedgerError.capExceeded total requested max = e :=
        Except.error.inj (Response.created.inj (Program.done.inj hp))
      exact absurd he Accounting.entryOf_ne_capExceeded
    · rw [Request.program, hprog] at hp
      contradiction
  | concluding r hr hsincere =>
    obtain rfl := hr.eq_of_done
    exact hsincere context c rfl total requested max rfl

end Traffic

/-! ### What the answer shows -/

/-- The texts of the sums in an answer to a refusal for lack of room: three in its message, two in
fields of their own. -/
structure Shown where
  total : String
  requested : String
  max : String
  currentTotal : String
  maxAllowed : String

namespace Shown

def answer (s : Shown) : Web.Response where
  status := 400
  body := .json (.object [
    ("error", .text (s!"Total amount exceeds maximum: current total {s.total}, requested " ++
      s!"{s.requested}, max {s.max}")),
    ("error_code", .text "capacity_exceeded"),
    ("current_total", .text s.currentTotal),
    ("max_allowed", .text s.maxAllowed)])

/-- What a client reads off an answer. The sums are the true ones but for places of the cap beyond
the second. The check made again with the cap of the message refuses, too; made with the cap of the
field it may come out even. The two caps are one if less than half a hundredth is cut off. -/
structure Explains (s : Shown) (cap total requested : Decimal) : Prop where
  denotes_total : Denotes s.total total.toRat
  denotes_requested : Denotes s.requested requested.toRat
  denotes_max : Denotes s.max (cutTo cap.toRat 2)
  denotes_currentTotal : Denotes s.currentTotal total.toRat
  denotes_maxAllowed : Denotes s.maxAllowed (roundTo cap.toRat 2)
  lt_add : cap.toRat < total.toRat + requested.toRat
  max_lt_add : cutTo cap.toRat 2 < total.toRat + requested.toRat
  maxAllowed_le_add : roundTo cap.toRat 2 ≤ total.toRat + requested.toRat
  max_eq_iff : cutTo cap.toRat 2 = roundTo cap.toRat 2 ↔ |cap.toRat - cutTo cap.toRat 2| < 1 / 200
  max_eq_of_hasPlaces : HasPlaces cap.toRat 2 →
    cutTo cap.toRat 2 = cap.toRat ∧ roundTo cap.toRat 2 = cap.toRat

end Shown

/-- The answer to a refusal shows the sums behind it. -/
theorem Overrun.explains {cap total requested : Decimal} (h : Overrun cap total requested) :
    ∃ shown : Shown,
      (Web.Problem.ledger (.capExceeded total requested cap)).response = shown.answer ∧
      shown.Explains cap total requested := by
  obtain ⟨a, hrequested⟩ := h.amount
  have hpos := a.toRat_pos
  have hsum : 0 < total.toRat + requested.toRat := by
    rw [hrequested, Amount.toRat_toDecimal]
    linarith [h.nonneg]
  have htotal : HasPlaces total.toRat 2 := total.hasPlaces_toRat h.scale_le
  have hamount : HasPlaces requested.toRat 2 := by
    rw [hrequested]
    exact a.toDecimal.hasPlaces_toRat (Nat.le_refl 2)
  have hplaces : HasPlaces (total.toRat + requested.toRat) 2 := by
    obtain ⟨m, hm⟩ := htotal
    obtain ⟨n, hn⟩ := hamount
    exact ⟨m + n, by rw [mul_add, hm, hn, Int.cast_add]⟩
  have hcut {d : Decimal} (hd : HasPlaces d.toRat 2) : Denotes (d.toFixed 2) d.toRat := by
    have := d.denotes_toFixed 2
    rwa [(Decimal.eq_of_hasPlaces hd).1] at this
  have hrounded (d : Decimal) : Denotes (d.rescale 2).toText (roundTo d.toRat 2) := by
    have := (d.rescale 2).denotes_toText
    rwa [d.toRat_rescale] at this
  refine ⟨⟨total.toFixed 2, requested.toFixed 2, cap.toFixed 2, (total.rescale 2).toText,
    (cap.rescale 2).toText⟩, rfl, ?_⟩
  exact {
    denotes_total := hcut htotal
    denotes_requested := hcut hamount
    denotes_max := cap.denotes_toFixed 2
    denotes_currentTotal := by
      have := hrounded total
      rwa [(Decimal.eq_of_hasPlaces htotal).2] at this
    denotes_maxAllowed := hrounded cap
    lt_add := h.lt_add
    max_lt_add := Decimal.cutTo_lt h.lt_add hsum
    maxAllowed_le_add := Decimal.roundTo_le h.lt_add hsum hplaces
    max_eq_iff := by
      rw [Decimal.cutTo_eq_roundTo_iff]
      norm_num
    max_eq_of_hasPlaces := Decimal.eq_of_hasPlaces }

/-- Under every cap and in every traffic, a refusal for lack of room is answered with the sums
behind it. -/
theorem Traffic.refusal_explained {site : Deployment} (hbook : site.book = {}) (steps : List Step)
    {i : Nat} {context : Context} {c : Command} {total requested max : Decimal}
    (hcall : (run { site } steps).calls[i]? =
      some ⟨.create context c, .done (.created (.error (.capExceeded total requested max)))⟩) :
    max = site.cap ∧ ∃ shown : Shown,
      (Web.Problem.ledger (.capExceeded total requested max)).response = shown.answer ∧
      shown.Explains site.cap total requested := by
  obtain ⟨rfl, hoverrun⟩ := (candid_run hbook steps).overrun hcall
  exact ⟨rfl, hoverrun.explains⟩

/-- 400.01 refused on top of 600.00 under the cap of production. -/
theorem Traffic.refusal_explained_fresh :
    let site := Deployment.fresh "transactions" 8
    let rent : Decimal := ⟨false, 60000, 2, by decide, by decide⟩
    let food : Decimal := ⟨false, 40001, 2, by decide, by decide⟩
    let steps : List Step := [.begin (.create {} ⟨1, rent, "rent"⟩), .advance 0,
      .begin (.create {} ⟨1, food, "food"⟩), .advance 1, .advance 1]
    site.book = {} ∧
    (run { site } steps).calls[1]? = some ⟨.create {} ⟨1, food, "food"⟩,
      .done (.created (.error (.capExceeded rent food defaultCap)))⟩ ∧
    ∃ shown : Shown,
      (Web.Problem.ledger (.capExceeded rent food defaultCap)).response = shown.answer ∧
      shown.Explains defaultCap rent food := by
  intro site rent food steps
  have hcall : (run { site } steps).calls[1]? = some ⟨.create {} ⟨1, food, "food"⟩,
      .done (.created (.error (.capExceeded rent food defaultCap)))⟩ := by
    simp only [site, rent, food, steps]
    rfl
  exact ⟨rfl, hcall, (refusal_explained rfl steps hcall).2⟩

/-- Under a cap of 10.005 a first amount of 10.01 is refused. The message says that 10.00 is
allowed, the field that 10.01 is, and with the field the check comes out even. -/
theorem Traffic.refusal_even :
    let cap : Decimal := ⟨false, 10005, 3, by decide, by decide⟩
    let site : Deployment := { Deployment.fresh "transactions" 8 with cap }
    let requested : Decimal := ⟨false, 1001, 2, by decide, by decide⟩
    let steps : List Step := [.begin (.create {} ⟨1, requested, "rent"⟩), .advance 0, .advance 0]
    (run { site } steps).calls[0]? = some ⟨.create {} ⟨1, requested, "rent"⟩,
      .done (.created (.error (.capExceeded .zero requested cap)))⟩ ∧
    ∃ shown : Shown,
      (Web.Problem.ledger (.capExceeded .zero requested cap)).response = shown.answer ∧
      Denotes shown.currentTotal 0 ∧ Denotes shown.requested 10.01 ∧ Denotes shown.max 10 ∧
      Denotes shown.maxAllowed 10.01 ∧ ¬ Denotes shown.maxAllowed 10 := by
  intro cap site requested steps
  have hcall : (run { site } steps).calls[0]? = some ⟨.create {} ⟨1, requested, "rent"⟩,
      .done (.created (.error (.capExceeded .zero requested cap)))⟩ := by
    simp only [site, cap, requested, steps]
    rfl
  have hcap : cap.toRat = 10.005 := by
    simp only [Decimal.toRat, Decimal.signed, cap]
    norm_num
  have hrequested : requested.toRat = 10.01 := by
    simp only [Decimal.toRat, Decimal.signed, requested]
    norm_num
  have hcut : cutTo 10.005 2 = 10 := by
    have hfloor : ⌊|(10.005 : ℚ)| * 10 ^ 2⌋₊ = 1000 := by norm_num
    rw [cutTo, hfloor]
    norm_num [Decimal.withSign]
  have hround : roundTo 10.005 2 = 10.01 := by
    have hfloor : ⌊|(10.005 : ℚ)| * 10 ^ 2 + 1 / 2⌋₊ = 1001 := by norm_num
    rw [roundTo, hfloor]
    norm_num [Decimal.withSign]
  obtain ⟨-, hoverrun⟩ := (candid_run rfl steps).overrun hcall
  obtain ⟨shown, hresponse, hexplains⟩ := hoverrun.explains
  have hmax := hexplains.denotes_max
  have hmaxAllowed := hexplains.denotes_maxAllowed
  have htotal := hexplains.denotes_currentTotal
  have hamount := hexplains.denotes_requested
  rw [hcap, hcut] at hmax
  rw [hcap, hround] at hmaxAllowed
  rw [Decimal.toRat_zero] at htotal
  rw [hrequested] at hamount
  refine ⟨hcall, shown, hresponse, htotal, hamount, hmax, hmaxAllowed, fun hsame => ?_⟩
  have := hmaxAllowed.unique hsame
  norm_num at this

end SpendingLedger
