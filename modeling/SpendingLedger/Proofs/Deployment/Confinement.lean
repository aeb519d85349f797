import SpendingLedger.Proofs.Deployment.Operations

/-!
Operations and the users they are not about. An operation asks the store about one user only, and
announces events of that user only. So of any other user the rows and the total stay as they are,
nothing is announced, and nothing is in the result.
-/

namespace SpendingLedger

namespace UserId

theorem eq_of_value_eq {u v : UserId} (h : u.value = v.value) : u = v := by
  cases u
  cases h
  rfl

theorem of?_eq_some_iff {i : Int64} {u : UserId} : of? i = some u ↔ u.value = i := by
  rw [of?]
  constructor
  · intro h
    split at h
    · cases h
      rfl
    · contradiction
  · rintro rfl
    exact dif_pos u.pos

end UserId

/-! ### Books -/

/-- One user's rows and total are the same in two books. -/
structure Book.SameFor (u : UserId) (b b' : Book) : Prop where
  rowsOf_eq : b'.rowsOf u = b.rowsOf u
  total_eq : b'.totals.get? u = b.totals.get? u

namespace Book

variable {u v : UserId}

theorem sameFor_refl (u : UserId) (b : Book) : SameFor u b b := ⟨rfl, rfl⟩

theorem SameFor.trans {b b' b'' : Book} (h : SameFor u b b') (h' : SameFor u b' b'') :
    SameFor u b b'' :=
  ⟨h'.rowsOf_eq.trans h.rowsOf_eq, h'.total_eq.trans h.total_eq⟩

theorem sameFor_insert (b : Book) (now : Timestamp) {e : Entry} (he : e.user ≠ u) (cap : Decimal) :
    SameFor u b (b.insert now e cap).2 := by
  rcases b.insert_cases now e cap with ⟨newTotal, -, h⟩ | h <;> rw [h]
  · exact ⟨by rw [rowsOf_record, if_neg he], b.totals.get?_insert_of_ne newTotal he⟩
  · exact sameFor_refl u b

theorem sameFor_markPaid (b : Book) (hv : v ≠ u) : SameFor u b (b.markPaid v).2 := by
  refine ⟨?_, rfl⟩
  rw [rowsOf_markPaid]
  refine (List.map_congr_left fun t ht => ?_).trans (List.map_id _)
  have hu : t.user = u := of_decide_eq_true (List.mem_filter.1 ht).2
  exact if_neg fun h => hv (h.1.symm.trans hu)

end Book

/-! ### Deployments -/

namespace Deployment

/-- Of one user nothing has changed, and nothing is announced. -/
def Spared (u : UserId) (s s' : Deployment) : Prop :=
  ∃ book announced notices, s.book.SameFor u book ∧ (∀ e ∈ announced, e.user ≠ u) ∧
    s' = { s with book, backlog := s.backlog ++ announced, notices }

variable {u : UserId} {s s' s'' : Deployment}

theorem Untouched.spared (h : s.Untouched s') (u : UserId) : Spared u s s' := by
  obtain ⟨notices, rfl⟩ := h
  exact ⟨s.book, [], notices, Book.sameFor_refl u _, fun _ he => absurd he List.not_mem_nil,
    by rw [List.append_nil]⟩

theorem Spared.trans (h : Spared u s s') (h' : Spared u s' s'') : Spared u s s'' := by
  obtain ⟨book, announced, notices, hbook, hannounced, rfl⟩ := h
  obtain ⟨book', announced', notices', hbook', hannounced', rfl⟩ := h'
  refine ⟨book', announced ++ announced', notices', hbook.trans hbook', fun e he => ?_,
    by rw [List.append_assoc]⟩
  rcases List.mem_append.1 he with he | he
  · exact hannounced e he
  · exact hannounced' e he

variable {α β : Type} {P : α → Prop} {Q : β → Prop} {x : Action α}

/-- Whenever the action is taken, `u` is spared, and the result satisfies `P`. -/
def Spares (u : UserId) (P : α → Prop) (x : Action α) : Prop :=
  ∀ s, P (x.run s).1 ∧ s.Spared u (x.run s).2

theorem spares_pure (u : UserId) {a : α} (h : P a) : Spares u P (pure a) :=
  fun s => ⟨h, s.untouched_refl.spared u⟩

theorem Spares.bind (h : Spares u P x) {f : α → Action β} (hf : ∀ a, P a → Spares u Q (f a)) :
    Spares u Q (x >>= f) := by
  intro s
  obtain ⟨hresult, hspared⟩ := h s
  obtain ⟨hresult', hspared'⟩ := hf _ hresult (x.run s).2
  exact ⟨hresult', hspared.trans hspared'⟩

/-- The action changes nothing but the notices. -/
def OnlyReports (x : Action α) : Prop := ∀ s : Deployment, s.Untouched (x.run s).2

theorem onlyReports_pure (a : α) : OnlyReports (pure a) := untouched_refl

theorem OnlyReports.bind (h : OnlyReports x) {f : α → Action β} (hf : ∀ a, OnlyReports (f a)) :
    OnlyReports (x >>= f) := by
  intro s
  obtain ⟨notices, hstate⟩ := h s
  obtain ⟨notices', hstate'⟩ := hf (x.run s).1 (x.run s).2
  refine ⟨notices', hstate'.trans ?_⟩
  rw [hstate]

theorem onlyReports_report (n : Notice) : OnlyReports (Reporting.report n : Action Unit) :=
  fun s => ⟨n :: s.notices, rfl⟩

theorem onlyReports_reports (notices : List Notice) :
    OnlyReports (notices.forM Reporting.report : Action Unit) := by
  induction notices with
  | nil => exact onlyReports_pure ()
  | cons n rest ih => exact (onlyReports_report n).bind fun _ => ih

theorem OnlyReports.spares (h : OnlyReports x) (u : UserId) (hresult : ∀ s, P (x.run s).1) :
    Spares u P x :=
  fun s => ⟨hresult s, (h s).spared u⟩

end Deployment

/-! ### Demands -/

namespace Demand

/-- The user that a demand is about. -/
def user? : Demand → Option UserId
  | insert e _ => some e.user
  | rowsOf u | total u | markPaid u => some u
  | announce e => some e.user
  | now | report _ => none

/-- Whether a store may give that answer: rows are of the user that was asked about. -/
def Admits : (d : Demand) → d.Answer → Prop
  | insert e _, r => ∀ t total, r = StoreReply.answered (.ok (.recorded t total)) → t.user = e.user
  | rowsOf u, r => ∀ ts, r = StoreReply.answered (.ok ts) → ∀ t ∈ ts, t.user = u
  | _, _ => True

theorem admits_perform (d : Demand) (s : Deployment) : d.Admits (d.perform.run s).1 := by
  cases d with
  | insert e cap =>
    intro t total ht
    rcases s.run_insert e cap with ⟨-, h⟩ | ⟨-, h | h⟩ <;>
      rw [show (insert e cap).perform.run s = _ from h] at ht
    · rcases s.book.insert_cases s.clock e cap with ⟨newTotal, -, hins⟩ | hins <;>
        rw [hins] at ht <;> cases ht
      rfl
    · contradiction
    · cases ht
  | rowsOf u =>
    intro ts hts t ht
    rcases Deployment.run_reply_consult (fun s => (s.book.rowsOf u, s)) s with ⟨-, h⟩ | ⟨-, h | h⟩ <;>
      rw [show (rowsOf u).perform.run s = _ from h] at hts
    · cases hts
      exact of_decide_eq_true (List.mem_filter.1 ht).2
    · contradiction
    · cases hts
  | _ => trivial

theorem spared_perform {u : UserId} {d : Demand} (hd : d.user? ≠ some u) (s : Deployment) :
    s.Spared u (d.perform.run s).2 := by
  have hrefl := s.untouched_refl.spared u
  cases d with
  | insert e cap =>
    have he : e.user ≠ u := fun h => hd (congrArg some h)
    rcases s.run_insert e cap with ⟨-, h⟩ | ⟨-, h | h⟩ <;>
      rw [show (insert e cap).perform.run s = _ from h]
    · exact ⟨_, [], s.notices, s.book.sameFor_insert s.clock he cap,
        fun _ he => absurd he List.not_mem_nil, by rw [List.append_nil]⟩
    · exact hrefl
    · exact hrefl
  | markPaid v =>
    have hv : v ≠ u := fun h => hd (congrArg some h)
    rcases s.run_markPaid v with ⟨-, h⟩ | ⟨-, h | h⟩ <;>
      rw [show (markPaid v).perform.run s = _ from h]
    · exact ⟨_, [], s.notices, s.book.sameFor_markPaid hv,
        fun _ he => absurd he List.not_mem_nil, by rw [List.append_nil]⟩
    · exact hrefl
    · exact hrefl
  | rowsOf v =>
    rw [show ((rowsOf v).perform.run s).2 = s from s.run_rowsOf_snd v]
    exact hrefl
  | total v =>
    rw [show ((total v).perform.run s).2 = s from s.run_total_snd v]
    exact hrefl
  | announce e =>
    have he : e.user ≠ u := fun h => hd (congrArg some h)
    refine ⟨s.book, [e], s.notices, Book.sameFor_refl u _, fun e' he' => ?_, rfl⟩
    rw [List.mem_singleton.1 he']
    exact he
  | now => exact hrefl
  | report n => exact Deployment.Untouched.spared ⟨_, rfl⟩ u

end Demand

/-! ### Programs -/

/-- No demand of a program is about `u`, and its result satisfies `P`. -/
inductive Program.Avoids {α : Type} (u : UserId) (P : α → Prop) : Program α → Prop
  | done {a : α} (h : P a) : Avoids u P (.done a)
  | ask {d : Demand} {next : d.Answer → Program α} (hd : d.user? ≠ some u)
      (h : ∀ r, d.Admits r → Avoids u P (next r)) : Avoids u P (.ask d next)

namespace Program

variable {α β : Type} {u : UserId} {P : α → Prop} {p : Program α}

theorem Avoids.report {n : Notice} {next : Unit → Program α} (h : (next ()).Avoids u P) :
    Avoids u P (.ask (.report n) next) :=
  .ask (Option.some_ne_none u).symm fun _ _ => h

theorem Avoids.now {next : Timestamp → Program α} (h : ∀ time, (next time).Avoids u P) :
    Avoids u P (.ask .now next) :=
  .ask (Option.some_ne_none u).symm fun time _ => h time

theorem Avoids.map (h : p.Avoids u P) {Q : β → Prop} {f : α → β} (hf : ∀ a, P a → Q (f a)) :
    (f <$> p).Avoids u Q := by
  induction h with
  | done h => exact .done (hf _ h)
  | ask hd _ ih => exact .ask hd ih

/-- It does not matter whether such a program takes the next turn. -/
theorem Avoids.step (h : p.Avoids u P) (s : Deployment) :
    (p.step.run s).1.Avoids u P ∧ s.Spared u (p.step.run s).2 := by
  cases h with
  | done h => exact ⟨.done h, s.untouched_refl.spared u⟩
  | ask hd h => exact ⟨h _ (Demand.admits_perform _ s), Demand.spared_perform hd s⟩

theorem Avoids.run (h : p.Avoids u P) : Deployment.Spares u P p.run := by
  induction h with
  | done h => exact Deployment.spares_pure u h
  | @ask d next hd _ ih =>
    exact Deployment.Spares.bind (P := d.Admits)
      (fun s => ⟨d.admits_perform s, Demand.spared_perform hd s⟩) ih

end Program

/-! ### The operations -/

namespace Accounting

open Program

variable {context : Context} {u : UserId}

/-- An operation is about the user with the number given, and about the caller if there is one. -/
theorem of_subject_eq_ok {value : Int64} (h : subject context value = .ok u) :
    u.value = value ∧ ∀ v, context.caller = some v → v = u := by
  rw [subject] at h
  cases hu : UserId.of? value with
  | none =>
    rw [hu] at h
    contradiction
  | some w =>
    rw [hu] at h
    have hvalue := UserId.of?_eq_some_iff.1 hu
    cases hcaller : context.caller with
    | none =>
      simp only [authorize, hcaller] at h
      cases h
      exact ⟨hvalue, nofun⟩
    | some v =>
      simp only [authorize, hcaller] at h
      by_cases hv : v = w
      · rw [if_pos hv] at h
        cases h
        refine ⟨hvalue, ?_⟩
        rintro _ ⟨⟩
        exact hv
      · rw [if_neg hv] at h
        contradiction

theorem of_entryOf_eq_ok {c : Command} {entry : Entry} (h : entryOf context c = .ok entry) :
    entry.user.value = c.user ∧ ∀ v, context.caller = some v → v = entry.user := by
  rw [entryOf] at h
  split at h
  · contradiction
  · cases hu : subject context c.user with
    | error e =>
      rw [hu] at h
      contradiction
    | ok w =>
      rw [hu] at h
      cases h
      exact of_subject_eq_ok hu

theorem within_eq_ok_iff {α : Type} {reply : StoreReply α} {v : α} :
    within context reply = .ok v ↔ reply = .answered (.ok v) := by
  constructor
  · intro h
    rcases reply with (f | v') | _
    · contradiction
    · cases h
      rfl
    · rw [within] at h
      split at h <;> contradiction
  · rintro rfl
    rfl

theorem avoids_create (cap : Decimal) {c : Command}
    (h : ∀ entry, entryOf context c = .ok entry → entry.user ≠ u) :
    (create (m := Program) cap context c).Avoids u (fun r => ∀ t, r = .ok t → t.user ≠ u) := by
  rw [create]
  cases hentry : entryOf context c with
  | error e => exact .done (by rintro _ ⟨⟩)
  | ok entry =>
    have hne := h entry hentry
    refine .ask (fun h => hne (Option.some.inj h)) fun reply hreply => ?_
    simp only [Program.bind]
    cases hwithin : within context reply with
    | error e => exact .done (by rintro _ ⟨⟩)
    | ok outcome =>
      cases outcome with
      | capExceeded total => exact .report (.done (by rintro _ ⟨⟩))
      | recorded t newTotal =>
        have ht : t.user ≠ u := by
          rw [hreply t newTotal (within_eq_ok_iff.1 hwithin)]
          exact hne
        refine .report (.now fun time => .ask (fun h => ht (Option.some.inj h)) fun _ _ => ?_)
        refine .done ?_
        rintro _ ⟨⟩
        exact ht

theorem avoids_list {user : Int64} (h : ∀ v, subject context user = .ok v → v ≠ u) :
    (list (m := Program) context user).Avoids u
      (fun r => ∀ ts, r = .ok ts → ∀ t ∈ ts, t.user ≠ u) := by
  rw [list]
  cases hv : subject context user with
  | error e => exact .done (by rintro _ ⟨⟩)
  | ok v =>
    have hne := h v hv
    refine .ask (fun h => hne (Option.some.inj h)) fun reply hreply => .done fun ts hts t ht => ?_
    rw [hreply ts (within_eq_ok_iff.1 hts) t ht]
    exact hne

theorem avoids_pay {user : Int64} (h : ∀ v, subject context user = .ok v → v ≠ u) :
    (pay (m := Program) context user).Avoids u (fun _ => True) := by
  rw [pay]
  cases hv : subject context user with
  | error e => exact .done trivial
  | ok v =>
    have hne := h v hv
    refine .ask (fun h => hne (Option.some.inj h)) fun reply _ => ?_
    simp only [Program.bind]
    cases within context reply with
    | error e => exact .done trivial
    | ok count =>
      refine .report ?_
      split
      · exact .now fun time => .ask (fun h => hne (Option.some.inj h)) fun _ _ => .done trivial
      · exact .done trivial

theorem avoids_total {user : Int64} (h : ∀ v, subject context user = .ok v → v ≠ u) :
    (total (m := Program) context user).Avoids u (fun _ => True) := by
  rw [total]
  cases hv : subject context user with
  | error e => exact .done trivial
  | ok v =>
    have hne := h v hv
    exact .ask (fun h => hne (Option.some.inj h)) fun _ _ => .done trivial

end Accounting

/-- The number of the user that a request is about. -/
def Request.subject : Request → Int64
  | create _ c => c.user
  | list _ user | pay _ user | total _ user => user

/-- A request has nothing to do with a user that it is not about. -/
theorem Request.avoids_program (cap : Decimal) {r : Request} {u : UserId}
    (h : r.subject ≠ u.value) : (r.program cap).Avoids u (fun _ => True) := by
  have hsubject {context : Context} {user : Int64} (huser : user ≠ u.value) :
      ∀ v, Accounting.subject context user = .ok v → v ≠ u := by
    rintro v hv rfl
    exact huser (Accounting.of_subject_eq_ok hv).1.symm
  cases r with
  | create context c =>
    refine (Accounting.avoids_create cap ?_).map fun _ _ => trivial
    rintro entry hentry rfl
    exact h (Accounting.of_entryOf_eq_ok hentry).1.symm
  | list context user => exact (Accounting.avoids_list (hsubject h)).map fun _ _ => trivial
  | pay context user => exact (Accounting.avoids_pay (hsubject h)).map fun _ _ => trivial
  | total context user => exact (Accounting.avoids_total (hsubject h)).map fun _ _ => trivial

end SpendingLedger
