import SpendingLedger.Proofs.Accounting.Traffic
import SpendingLedger.Proofs.Book.Balance

/-!
The cap under traffic. Whatever operations are under way at a site and however they take turns, an
entry is recorded exactly if its amount fits under the cap on top of all entries recorded for the
user before, and a user's total is the exact sum of the user's rows.
-/

namespace SpendingLedger

/-! ### Postings -/

/-- Whether the store took the entry in. -/
def Posting.granted (p : Posting) : Bool :=
  match p.reply with
  | .answered (.ok (.recorded ..)) => true
  | _ => false

/-- What the entries taken in for a user add up to, in hundredths. -/
def grantedTo (u : UserId) (postings : List Posting) : Nat :=
  ((postings.filter (fun p => p.granted && p.entry.user = u)).map (·.entry.amount.hundredths)).sum

theorem grantedTo_append (u : UserId) (a b : List Posting) :
    grantedTo u (a ++ b) = grantedTo u a + grantedTo u b := by
  simp only [grantedTo, List.filter_append, List.map_append, List.sum_append]

theorem grantedTo_singleton (u : UserId) (p : Posting) :
    grantedTo u [p] =
      if p.granted = true ∧ p.entry.user = u then p.entry.amount.hundredths else 0 := by
  by_cases h : p.granted = true ∧ p.entry.user = u
  · simp [grantedTo, h.1, h.2]
  · have : (p.granted && decide (p.entry.user = u)) = false := by
      simpa [Bool.and_eq_false_iff] using h
    simp [grantedTo, this, h]

/-- What the store may say after these postings: it grants exactly what fits under the cap, and a
store that is not up grants nothing. -/
structure Posting.Justified (p : Posting) (cap : Decimal) (earlier : List Posting) : Prop where
  within : p.available = true →
    (grantedTo p.entry.user earlier : ℚ) / 100 + p.entry.amount.toRat ≤ cap.toRat →
    ∃ t newTotal, p.reply = .answered (.ok (.recorded t newTotal)) ∧ t.entry = p.entry
  exceeding : p.available = true →
    cap.toRat < (grantedTo p.entry.user earlier : ℚ) / 100 + p.entry.amount.toRat →
    ∃ total, p.reply = .answered (.ok (.capExceeded total)) ∧
      total.toRat = (grantedTo p.entry.user earlier : ℚ) / 100
  unavailable : p.available = false → p.granted = false

theorem Posting.Justified.of_unavailable {p : Posting} {cap : Decimal} {earlier : List Posting}
    (hdown : p.available = false) (hnot : p.granted = false) : p.Justified cap earlier where
  within hup := Bool.noConfusion (hup.symm.trans hdown)
  exceeding hup := Bool.noConfusion (hup.symm.trans hdown)
  unavailable _ := hnot

namespace Traffic

/-! ### Where a call stands -/

def Concluded (cap : Decimal) (i : Nat) (postings : List Posting) (r : Response) : Request → Prop
  | .create context c => ∀ entry, Accounting.entryOf context c = .ok entry →
    ∃ p ∈ postings, p.call = i ∧ p.entry = entry ∧
      r = .created (Accounting.createdFrom cap context entry p.reply)
  | _ => True

/-- A call has not asked the store yet, or it has and will leave the store alone from here on. -/
inductive Stands (cap : Decimal) (i : Nat) (postings : List Posting) (c : Call) : Prop where
  | untouched (hp : c.program = c.request.program cap) (h : ∀ p ∈ postings, p.call ≠ i)
  | concluding (r : Response) (hp : c.program.Yields r) (hn : c.program.EndsWithin 3)
      (h : Concluded cap i postings r c.request)

theorem Stands.mono {cap : Decimal} {i : Nat} {postings new : List Posting} {c : Call}
    (h : Stands cap i postings c) (hnew : ∀ p ∈ new, p.call ≠ i) :
    Stands cap i (postings ++ new) c := by
  cases h with
  | untouched hp h =>
    refine .untouched hp fun p hmem => ?_
    rcases List.mem_append.1 hmem with hmem | hmem
    · exact h p hmem
    · exact hnew p hmem
  | concluding r hp hn h =>
    refine .concluding r hp hn ?_
    cases hr : c.request with
    | create context cmd =>
      rw [hr] at h
      intro entry he
      obtain ⟨p, hmem, hrest⟩ := h entry he
      exact ⟨p, List.mem_append_left _ hmem, hrest⟩
    | list | pay | total => trivial

/-! ### The invariant -/

/-- What holds at every moment of traffic under a cap. -/
structure Sound (cap : Decimal) (t : Traffic) : Prop where
  cap_eq : t.site.cap = cap
  balanced : t.site.book.Balanced cap
  spent_eq : ∀ u, t.site.book.spent u = grantedTo u t.postings
  stands : ∀ i c, t.calls[i]? = some c → Stands cap i t.postings c
  asked : ∀ p ∈ t.postings, ∃ call context c, t.calls[p.call]? = some call ∧
    call.request = .create context c ∧ Accounting.entryOf context c = .ok p.entry
  nodup : (t.postings.map (·.call)).Nodup
  justified : ∀ earlier p later, t.postings = earlier ++ p :: later → p.Justified cap earlier

theorem sound_start {site : Deployment} (h : site.book = {}) :
    Sound site.cap { site } where
  cap_eq := rfl
  balanced := by
    simp only [h]
    exact Book.balanced_empty _
  spent_eq u := by simp only [h]; rfl
  stands i c hc := by simp at hc
  asked p hp := by simp at hp
  nodup := List.nodup_nil
  justified earlier p later h := by simp at h

/-- Whatever turn call `i` takes, the old postings were asked for by the same requests as before. -/
theorem Sound.asked_set {cap : Decimal} {t : Traffic} (h : t.Sound cap) {i : Nat} {c : Call}
    (hc : t.calls[i]? = some c) (program : Program Response) {p : Posting} (hp : p ∈ t.postings) :
    ∃ call context cmd, (t.calls.set i { c with program })[p.call]? = some call ∧
      call.request = .create context cmd ∧ Accounting.entryOf context cmd = .ok p.entry := by
  obtain ⟨call, context, cmd, hcall, hreq, he⟩ := h.asked p hp
  by_cases hpi : i = p.call
  · subst hpi
    obtain rfl : c = call := Option.some.inj (hc.symm.trans hcall)
    have hi := (List.getElem?_eq_some_iff.1 hc).1
    exact ⟨{ c with program }, context, cmd, by simp [hi], hreq, he⟩
  · exact ⟨call, context, cmd, by rw [List.getElem?_set_ne hpi]; exact hcall, hreq, he⟩

theorem Sound.nodup_snoc {cap : Decimal} {t : Traffic} (h : t.Sound cap) {q : Posting}
    (hfirst : ∀ p ∈ t.postings, p.call ≠ q.call) : ((t.postings ++ [q]).map (·.call)).Nodup := by
  rw [List.map_append, List.map_singleton, List.nodup_append]
  refine ⟨h.nodup, List.nodup_singleton _, ?_⟩
  intro a ha b hb
  obtain ⟨p, hp, rfl⟩ := List.mem_map.1 ha
  rw [List.mem_singleton.1 hb]
  exact hfirst p hp

theorem Sound.justified_snoc {cap : Decimal} {t : Traffic} (h : t.Sound cap) {q : Posting}
    (hq : q.Justified cap t.postings) {earlier later : List Posting} {p : Posting}
    (hsplit : t.postings ++ [q] = earlier ++ p :: later) : p.Justified cap earlier := by
  rcases List.eq_nil_or_concat later with rfl | ⟨later, last, rfl⟩
  · obtain ⟨rfl, hpq⟩ := List.append_inj' hsplit rfl
    obtain rfl := List.singleton_inj.1 hpq
    exact hq
  · rw [List.concat_eq_append, ← List.cons_append, ← List.append_assoc] at hsplit
    exact h.justified earlier p later (List.append_inj' hsplit rfl).1

/-- A turn of call `i` keeps the invariant if the new posting, if any, is its first. -/
theorem Sound.update {cap : Decimal} {t : Traffic} (h : t.Sound cap) {i : Nat} {c : Call}
    (hc : t.calls[i]? = some c) {site : Deployment} {program : Program Response}
    {new : List Posting} (hcap : site.cap = cap) (hbalanced : site.book.Balanced cap)
    (hspent : ∀ u, site.book.spent u = grantedTo u (t.postings ++ new))
    (hnew : new = [] ∨ ∃ p context cmd, new = [p] ∧ p.call = i ∧ c.request = .create context cmd ∧
      Accounting.entryOf context cmd = .ok p.entry ∧ p.Justified cap t.postings ∧
      ∀ q ∈ t.postings, q.call ≠ i)
    (hstands : Stands cap i (t.postings ++ new) { c with program }) :
    Sound cap { site
                calls := t.calls.set i { c with program }
                postings := t.postings ++ new } := by
  have hi : i < t.calls.length := (List.getElem?_eq_some_iff.1 hc).1
  have hself : (t.calls.set i { c with program })[i]? = some { c with program } := by
    simp [hi]
  have hstand : ∀ j d, (t.calls.set i { c with program })[j]? = some d →
      Stands cap j (t.postings ++ new) d := by
    intro j d hd
    by_cases hj : i = j
    · subst hj
      obtain rfl : { c with program } = d := Option.some.inj (hself.symm.trans hd)
      exact hstands
    · rw [List.getElem?_set_ne hj] at hd
      refine (h.stands j d hd).mono fun p hp => ?_
      rcases hnew with rfl | ⟨q, _, _, rfl, hq, _⟩
      · contradiction
      · obtain rfl := List.mem_singleton.1 hp
        exact fun e => hj (hq.symm.trans e)
  rcases hnew with rfl | ⟨q, context, cmd, rfl, rfl, hreq, he, hq, hfirst⟩
  · rw [List.append_nil] at hspent hstand ⊢
    exact ⟨hcap, hbalanced, hspent, hstand, fun p hp => h.asked_set hc program hp, h.nodup,
      h.justified⟩
  · refine ⟨hcap, hbalanced, hspent, hstand, fun p hp => ?_, h.nodup_snoc hfirst,
      fun _ _ _ => h.justified_snoc hq⟩
    rcases List.mem_append.1 hp with hp | hp
    · exact h.asked_set hc program hp
    · obtain rfl := List.mem_singleton.1 hp
      exact ⟨{ c with program }, context, cmd, hself, hreq, he⟩

/-- A turn that asks for anything but an insertion keeps the invariant. -/
theorem Sound.update_of_ne_insert {cap : Decimal} {t : Traffic} (h : t.Sound cap) {i : Nat}
    {c : Call} (hc : t.calls[i]? = some c) {d : Demand} (hd : ∀ e cap, d ≠ .insert e cap)
    {program : Program Response} (hstands : Stands cap i t.postings { c with program }) :
    Sound cap { site := (d.perform.run t.site).2
                calls := t.calls.set i { c with program }
                postings := t.postings ++ [] } := by
  obtain ⟨hcap, hbook⟩ := Demand.perform_of_ne_insert hd t.site
  have hspent : (d.perform.run t.site).2.book.Balanced cap ∧
      ∀ u, (d.perform.run t.site).2.book.spent u = t.site.book.spent u := by
    rcases hbook with hbook | ⟨u, hbook⟩ <;> rw [hbook]
    · exact ⟨h.balanced, fun _ => rfl⟩
    · exact ⟨h.balanced.markPaid u, Book.spent_markPaid _ u⟩
  refine h.update hc (hcap.trans h.cap_eq) hspent.1 (fun u => ?_) (.inl rfl) ?_
  · rw [hspent.2, List.append_nil]
    exact h.spent_eq u
  · rw [List.append_nil]
    exact hstands

/-- The posting that an insertion leaves is justified, and the book agrees with it. -/
theorem Sound.insert {cap : Decimal} {t : Traffic} (h : t.Sound cap)
    (hcap : cap.toRat ≤ Decimal.exactCap) (i : Nat) (e : Entry) :
    let answer := (Bookkeeping.insert e cap : Deployment.Action _).run t.site
    let p : Posting := ⟨i, e, t.site.storeUp, answer.1⟩
    answer.2.cap = cap ∧ answer.2.book.Balanced cap ∧
      (∀ u, answer.2.book.spent u = grantedTo u (t.postings ++ [p])) ∧
      p.Justified cap t.postings := by
  have hspent := h.spent_eq e.user
  -- a posting that grants nothing leaves all sums as they are
  have hsame : ∀ p : Posting, p.granted = false → ∀ u,
      t.site.book.spent u = grantedTo u (t.postings ++ [p]) := by
    intro p hp u
    rw [grantedTo_append, grantedTo_singleton, h.spent_eq u, if_neg (by simp [hp]), Nat.add_zero]
  rcases t.site.run_insert e cap with ⟨hup, hr⟩ | ⟨hup, hr | hr⟩ <;> rw [hr, hup]
  · rcases h.balanced.insert_eq hcap t.site.clock e with ⟨hlt, hle, hins⟩ | ⟨hlt, hins⟩
    · rw [hins]
      refine ⟨h.cap_eq, h.balanced.record _ _ hlt hle, fun u => ?_, fun _ _ => ⟨_, _, rfl, rfl⟩,
        fun _ hover => ?_, by rintro ⟨⟩⟩
      · rw [Book.spent_record, grantedTo_append, grantedTo_singleton, ← h.spent_eq u]
        by_cases hu : e.user = u
        · simp only [Posting.granted, hu, and_self, ↓reduceIte]
        · simp only [hu, and_false, ↓reduceIte, Nat.add_zero]
      · rw [hspent] at hle
        exact absurd hle (not_le_of_gt hover)
    · rw [hins]
      refine ⟨h.cap_eq, h.balanced, hsame _ rfl, fun _ hwithin => ?_, fun _ _ => ⟨_, rfl, ?_⟩,
        by rintro ⟨⟩⟩
      · rw [hspent] at hlt
        exact absurd hwithin (not_le_of_gt hlt)
      · rw [(h.balanced.total_isTotalOf e.user).toRat_eq, hspent]
  · exact ⟨h.cap_eq, h.balanced, hsame _ rfl, .of_unavailable rfl rfl⟩
  · exact ⟨h.cap_eq, h.balanced, hsame _ rfl, .of_unavailable rfl rfl⟩

theorem Sound.advance_concluding {cap : Decimal} {t : Traffic} (h : t.Sound cap) {i : Nat}
    {c : Call} (hc : t.calls[i]? = some c) {r : Response} (hp : c.program.Yields r)
    (hn : c.program.EndsWithin 3) (hr : Concluded cap i t.postings r c.request) :
    (t.step (.advance i)).Sound cap := by
  cases hprog : c.program with
  | done a =>
    rw [step_advance_done hc hprog]
    exact h
  | ask d next =>
    rw [hprog] at hp hn
    obtain ⟨hd, hnext⟩ := hp.of_ask
    have hne := hd.ne_insert
    rw [step_advance_ask hc hprog, posting?_eq_none hne]
    refine h.update_of_ne_insert hc hne (.concluding r (hnext _) ?_ hr)
    exact Program.EndsWithin.mono (n := 2) (by decide) (hn _)

theorem Sound.advance_untouched {cap : Decimal} {t : Traffic} (h : t.Sound cap)
    (hcap : cap.toRat ≤ Decimal.exactCap) {i : Nat} {c : Call} (hc : t.calls[i]? = some c)
    (hp : c.program = c.request.program cap) (hfirst : ∀ p ∈ t.postings, p.call ≠ i) :
    (t.step (.advance i)).Sound cap := by
  rcases c.request.program_cases cap with ⟨⟨r, hprog⟩, -⟩ |
    ⟨context, cmd, entry, next, hreq, he, hprog, hnext⟩ | ⟨hreq, d, next, hprog, hd, hnext⟩
  · rw [step_advance_done hc (hp.trans hprog)]
    exact h
  · rw [step_advance_ask hc (hp.trans hprog)]
    obtain ⟨hcap', hbalanced, hspent, hjust⟩ := h.insert hcap i entry
    refine h.update hc hcap' hbalanced hspent
      (.inr ⟨_, context, cmd, rfl, rfl, hreq, he, hjust, hfirst⟩) ?_
    refine .concluding _ (hnext _).1 (hnext _).2 ?_
    simp only [hreq, Concluded]
    intro entry' he'
    obtain rfl : entry = entry' := Except.ok.inj (he.symm.trans he')
    exact ⟨_, List.mem_append_right _ (List.mem_singleton_self _), rfl, rfl, rfl⟩
  · rw [step_advance_ask hc (hp.trans hprog), posting?_eq_none hd]
    obtain ⟨r, hr, hn⟩ := hnext (d.perform.run t.site).1
    refine h.update_of_ne_insert hc hd (.concluding r hr hn ?_)
    cases hc' : c.request with
    | create context cmd => exact absurd hc' (hreq context cmd)
    | list | pay | total => trivial

theorem Sound.begin {cap : Decimal} {t : Traffic} (h : t.Sound cap) (r : Request) :
    (t.step (.begin r)).Sound cap where
  cap_eq := h.cap_eq
  balanced := h.balanced
  spent_eq := h.spent_eq
  stands i c hc := by
    simp only [step, h.cap_eq] at hc
    by_cases hi : i < t.calls.length
    · rw [List.getElem?_append_left hi] at hc
      exact h.stands i c hc
    · rw [List.getElem?_append_right (Nat.le_of_not_lt hi), List.getElem?_singleton] at hc
      split at hc
      · next hi₀ =>
        obtain rfl := Option.some.inj hc
        refine .untouched rfl fun p hp => ?_
        obtain ⟨call, -, -, hcall, -⟩ := h.asked p hp
        have := (List.getElem?_eq_some_iff.1 hcall).1
        omega
      · contradiction
  asked p hp := by
    obtain ⟨call, context, cmd, hcall, hrest⟩ := h.asked p hp
    have hlt := (List.getElem?_eq_some_iff.1 hcall).1
    exact ⟨call, context, cmd, by rw [step, List.getElem?_append_left hlt]; exact hcall, hrest⟩
  nodup := h.nodup
  justified := h.justified

theorem Sound.step {cap : Decimal} {t : Traffic} (h : t.Sound cap)
    (hcap : cap.toRat ≤ Decimal.exactCap) (s : Step) : (t.step s).Sound cap := by
  cases s with
  | begin r => exact h.begin r
  | advance i =>
    cases hc : t.calls[i]? with
    | none =>
      rw [Traffic.step, hc]
      exact h
    | some c =>
      cases h.stands i c hc with
      | untouched hp hfirst => exact h.advance_untouched hcap hc hp hfirst
      | concluding r hp hn hr => exact h.advance_concluding hc hp hn hr
  | setStore down silent => exact ⟨h.1, h.2, h.3, h.4, h.5, h.6, h.7⟩
  | setClock time => exact ⟨h.1, h.2, h.3, h.4, h.5, h.6, h.7⟩

theorem sound_run {site : Deployment} (hbook : site.book = {})
    (hcap : site.cap.toRat ≤ Decimal.exactCap) (steps : List Step) :
    (run { site } steps).Sound site.cap :=
  run_induction (sound_start hbook) (fun _ s h => h.step hcap s) steps

/-! ### Turns see every call through -/

theorem Stands.endsWithin {cap : Decimal} {i : Nat} {postings : List Posting} {c : Call}
    (h : Stands cap i postings c) : c.program.EndsWithin 4 := by
  cases h with
  | untouched hp _ =>
    rw [hp]
    rcases c.request.program_cases cap with ⟨⟨r, hprog⟩, -⟩ | ⟨_, _, _, next, -, -, hprog, hnext⟩ |
      ⟨-, d, next, hprog, -, hnext⟩ <;> rw [hprog]
    · trivial
    · exact fun reply => (hnext reply).2
    · intro reply
      obtain ⟨_, -, hn⟩ := hnext reply
      exact hn
  | concluding r _ hn _ => exact hn.mono (by decide)

theorem run_advance_endsWithin {n : Nat} {t : Traffic} {i : Nat} {c : Call}
    (hc : t.calls[i]? = some c) (hn : c.program.EndsWithin n) :
    ∃ r, (t.run (List.replicate n (.advance i))).calls[i]? = some ⟨c.request, .done r⟩ := by
  induction n generalizing t c with
  | zero =>
    obtain ⟨request, program⟩ := c
    cases program with
    | done r => exact ⟨r, hc⟩
    | ask d next => exact hn.elim
  | succ n ih =>
    have hi : i < t.calls.length := (List.getElem?_eq_some_iff.1 hc).1
    rw [List.replicate_succ, run, List.foldl_cons]
    cases hp : c.program with
    | done r =>
      rw [step_advance_done hc hp]
      exact ih hc (by rw [hp]; cases n <;> trivial)
    | ask d next =>
      rw [hp] at hn
      rw [step_advance_ask hc hp]
      exact ih (c := { c with program := next (d.perform.run t.site).1 }) (by simp [hi]) (hn _)

/-! ### The cap -/

/-- Recording is greedy under a cap: each request that is in order and meets a store that is up is
granted exactly if its amount fits on top of what was granted to the user before, and a refusal
names that sum, the amount and the cap. The totals are the exact sums of the rows. -/
structure Greedy (cap : Decimal) (t : Traffic) : Prop where
  /-- A request to record that is over has asked the store once, between `earlier` and `later`. -/
  created : ∀ i context c r u a, t.calls[i]? = some ⟨.create context c, .done r⟩ →
    UserId.of? c.user = some u → Amount.ofDecimal c.amount = .ok a →
    (context.caller = none ∨ context.caller = some u) →
    ∃ earlier p later, t.postings = earlier ++ p :: later ∧ p.call = i ∧
      p.entry = ⟨u, a, c.description⟩ ∧
      (p.available = true →
        ((grantedTo u earlier : ℚ) / 100 + a.toRat ≤ cap.toRat ∧ p.granted = true ∧
          ∃ row, r = .created (.ok row) ∧ row.entry = p.entry) ∨
        (cap.toRat < (grantedTo u earlier : ℚ) / 100 + a.toRat ∧ p.granted = false ∧
          ∃ total, total.toRat = (grantedTo u earlier : ℚ) / 100 ∧
            r = .created (.error (.capExceeded total a.toDecimal cap)))) ∧
      (p.available = false → p.granted = false ∧ ∃ e, r = .created (.error e))
  /-- No posting is without a request to record that is in order, and no two are of one call. -/
  asked : ∀ p ∈ t.postings, ∃ call context c, t.calls[p.call]? = some call ∧
    call.request = .create context c ∧ Accounting.entryOf context c = .ok p.entry
  nodup : (t.postings.map (·.call)).Nodup
  /-- Wherever a call stands, four turns see it through. -/
  ends : ∀ i c, t.calls[i]? = some c →
    ∃ r, (t.run (List.replicate 4 (.advance i))).calls[i]? = some ⟨c.request, .done r⟩
  total_isSome_iff : ∀ u, (t.site.book.totals.get? u).isSome = true ↔
    ∃ row ∈ t.site.book.rows, row.user = u
  total_eq : ∀ u total, t.site.book.totals.get? u = some total →
    total.scale = 2 ∧ total.toRat = (t.site.book.spent u : ℚ) / 100 ∧ total ≤ cap

theorem entryOf_eq {context : Context} {c : Command} {u : UserId} {a : Amount}
    (hu : UserId.of? c.user = some u) (ha : Amount.ofDecimal c.amount = .ok a)
    (hcaller : context.caller = none ∨ context.caller = some u) :
    Accounting.entryOf context c = .ok ⟨u, a, c.description⟩ := by
  have hauth : Accounting.authorize context u = .ok () := by
    rcases hcaller with h | h <;> simp [Accounting.authorize, h]
  simp only [Accounting.entryOf, Accounting.subject, ha, hu, hauth]
  rfl

theorem createdFrom_of_not_granted {p : Posting} (h : p.granted = false) (cap : Decimal)
    (context : Context) (e : Entry) :
    ∃ err, Accounting.createdFrom cap context e p.reply = .error err := by
  obtain ⟨call, entry, available, reply⟩ := p
  cases reply with
  | silent =>
    simp only [Accounting.createdFrom, Accounting.within]
    cases context.budget <;> exact ⟨_, rfl⟩
  | answered r =>
    cases r with
    | error f => exact ⟨_, rfl⟩
    | ok outcome =>
      cases outcome with
      | recorded row newTotal => contradiction
      | capExceeded total => exact ⟨_, rfl⟩

/-- A request to record that is in order and over has left its posting. -/
theorem Sound.exists_posting {cap : Decimal} {t : Traffic} (h : t.Sound cap) {i : Nat}
    {context : Context} {c : Command} {r : Response} {entry : Entry}
    (hc : t.calls[i]? = some ⟨.create context c, .done r⟩)
    (he : Accounting.entryOf context c = .ok entry) :
    ∃ p ∈ t.postings, p.call = i ∧ p.entry = entry ∧
      r = .created (Accounting.createdFrom cap context entry p.reply) := by
  cases h.stands i _ hc with
  | untouched hp _ =>
    rcases (Request.create context c).program_cases cap with ⟨-, hbad⟩ |
      ⟨_, _, _, _, -, -, hprog, -⟩ | ⟨hne, -⟩
    · exact absurd he (hbad context c entry rfl)
    · exact nomatch hp.trans hprog
    · exact absurd rfl (hne context c)
  | concluding r' hr _ hconcl =>
    obtain rfl := hr.eq_of_done
    exact hconcl entry he

/-- Every run of operations on the ledger, in any interleaving, is greedy under the cap. -/
theorem run_greedy {site : Deployment} (hbook : site.book = {})
    (hcap : site.cap.toRat ≤ Decimal.exactCap) (steps : List Step) :
    (run { site } steps).Greedy site.cap := by
  have h := sound_run hbook hcap steps
  refine ⟨?_, h.asked, h.nodup,
    fun i c hc => run_advance_endsWithin hc (h.stands i c hc).endsWithin,
    fun u => ?_, fun u total htotal => ?_⟩
  · intro i context c r u a hc hu ha hcaller
    obtain ⟨p, hp, hcall, hentry, hr⟩ := h.exists_posting hc (entryOf_eq hu ha hcaller)
    obtain ⟨earlier, later, hsplit⟩ := List.append_of_mem hp
    have hjust := h.justified earlier p later hsplit
    refine ⟨earlier, p, later, hsplit, hcall, hentry, fun hup => ?_, fun hdown => ?_⟩
    · rcases le_or_gt ((grantedTo u earlier : ℚ) / 100 + a.toRat) site.cap.toRat with hle | hlt
      · obtain ⟨row, newTotal, hreply, hrow⟩ := hjust.within hup (by rw [hentry]; exact hle)
        refine .inl ⟨hle, by rw [Posting.granted, hreply], row, ?_, hrow⟩
        rw [hr, hreply]
        rfl
      · obtain ⟨total, hreply, htotal⟩ := hjust.exceeding hup (by rw [hentry]; exact hlt)
        rw [hentry] at htotal
        refine .inr ⟨hlt, by rw [Posting.granted, hreply], total, htotal, ?_⟩
        rw [hr, hreply]
        rfl
    · have hnot := hjust.unavailable hdown
      obtain ⟨err, herr⟩ := createdFrom_of_not_granted hnot site.cap context ⟨u, a, c.description⟩
      exact ⟨hnot, err, by rw [hr, herr]⟩
  · rw [Option.isSome_iff_ne_none, ne_eq, h.balanced.get?_eq_none_iff u, Book.rowsOf,
      List.filter_eq_nil_iff]
    simp
  · obtain ⟨hlt, rfl, hle⟩ := h.balanced.eq_of_get?_eq_some u total htotal
    exact ⟨rfl, Decimal.toRat_ofHundredths _ _, hle⟩

/-- Two requests for one user that take turns, under the cap of production. -/
theorem run_greedy_fresh :
    (Deployment.fresh "transactions" 8).book = {} ∧
      (Deployment.fresh "transactions" 8).cap.toRat ≤ Decimal.exactCap ∧
      (run { site := .fresh "transactions" 8 }
        [.begin (.create {} ⟨1, ⟨false, 60000, 2, by decide, by decide⟩, "rent"⟩),
          .begin (.create {} ⟨1, ⟨false, 40001, 2, by decide, by decide⟩, "food"⟩),
          .advance 1, .advance 0, .advance 0, .advance 1]).Greedy
        (Deployment.fresh "transactions" 8).cap := by
  have hbook : (Deployment.fresh "transactions" 8).book = {} := rfl
  have hcap : (Deployment.fresh "transactions" 8).cap.toRat ≤ Decimal.exactCap := by
    norm_num [Deployment.fresh, Decimal.toRat, Decimal.signed, defaultCap, Decimal.exactCap]
  exact ⟨hbook, hcap, run_greedy hbook hcap _⟩

end Traffic

end SpendingLedger
