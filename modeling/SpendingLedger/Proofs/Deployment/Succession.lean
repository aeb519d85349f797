import SpendingLedger.Proofs.Deployment.Dispatch

/-!
The order of a user's events. Calls and tasks have two ways to get ahead of one another: a call may
set off its task before one that acted earlier, and a task may publish before one that was set off
earlier. Where neither happens, the user's events are queued and seen in the order of the deeds, and
so it is where each deed waits for what the one before it is to announce.
-/

namespace SpendingLedger.Dispatch

variable {d : Dispatch} {u : UserId}

/-! ### Turns -/

/-- If a call sets off a task for the user, the deed is the user's first that has yet to be told;
and if a task of the user publishes, no earlier one of the user is still under way. -/
def KeepsTurn (u : UserId) (d : Dispatch) : Step → Prop
  | .traffic s => ∀ τ ∈ telling? d.traffic s, τ.event.user = u →
    (d.untoldOf u).head?.map Deed.call = some τ.call
  | .announce k => ∀ e ∈ d.site.backlog[k]?, e.user = u → ∀ e' ∈ d.site.backlog.take k, e'.user ≠ u
  | .receive | .settle .. => True

/-- The tasks of a user are set off in the order of the deeds, and publish in that order. -/
def InTurn (u : UserId) : Dispatch → List Step → Prop
  | _, [] => True
  | d, s :: rest => KeepsTurn u d s ∧ InTurn u (d.step s) rest

/-- The user's first deeds have been told, in their order, and what tells of them is published or
under way, in that order too. -/
def InOrder (d : Dispatch) (u : UserId) : Prop :=
  ∃ first, d.deedsOf u = first ++ d.untoldOf u ∧
    List.Forall₂ (fun δ e => δ.act.ToldBy e) first (d.publishedOf u ++ d.waitingOf u)

/-- The events of a user come in the order of the deeds. -/
structure Chronological (d : Dispatch) (u : UserId) : Prop where
  inOrder : d.InOrder u
  /-- They are queued on the lane of the user in the order of the deeds. -/
  queued : ∃ first, first <+: d.deedsOf u ∧
    List.Forall₂ (fun δ x => ∃ e, δ.act.ToldBy e ∧ x.payload = e.encode) first (d.queuedOf u)
  /-- Consumers see them in that order, and no payment before the records of the rows it paid. -/
  seen : ∃ stays first, d.seenOf u = stays.flatMap Stay.deliveries ∧ first <+: d.deedsOf u ∧
    List.Forall₂ (fun δ s => ∃ e, δ.act.ToldBy e ∧ Carries s e) first stays ∧ Founded first

/-! ### Steps among the calls -/

/-- What a step among the calls adds: nothing, a deed of a call that has told nothing, or what tells
of the only deed of a call that has told nothing. -/
theorem Sound.step_traffic_cases (h : d.Sound) (s : Traffic.Step) :
    let d' := d.step (.traffic s)
    (deed? d.traffic s = none ∧ telling? d.traffic s = none ∧ d'.site.backlog = d.site.backlog) ∨
    (∃ δ, deed? d.traffic s = some δ ∧ telling? d.traffic s = none ∧
      d'.site.backlog = d.site.backlog ∧ d.toldBy δ.call = []) ∨
    (∃ τ a, deed? d.traffic s = none ∧ telling? d.traffic s = some τ ∧
      d'.site.backlog = d.site.backlog ++ [τ.event] ∧
      d.actsBy τ.call = [a] ∧ d.toldBy τ.call = [] ∧ a.ToldBy τ.event) := by
  cases s with
  | begin | setStore | setClock => exact .inl ⟨rfl, rfl, rfl⟩
  | advance i =>
    rcases d.advance_cases i with ⟨hdeed, htelling, hsame⟩ | ⟨c, dm, next, hc, hp⟩
    · refine .inl ⟨hdeed, htelling, ?_⟩
      rw [step_traffic_of_none hdeed htelling, hsame]
    obtain ⟨book, notices, postings, hstep, -⟩ := exists_step_advance hc hp
    have hstage := (hp ▸ h.stage i c hc : Program.Stage (.ask dm next) _ _)
    have hdeed : deed? d.traffic (.advance i) = (dm.act? d.site).map (Deed.mk i) := by
      simp only [deed?, hc, Option.bind_some, hp, Program.act?, site]
    have htelling : telling? d.traffic (.advance i) = dm.event?.map (Telling.mk i) := by
      simp only [telling?, hc, Option.bind_some, hp, Program.event?]
    rw [hdeed, htelling, hstep]
    cases hact : dm.act? d.site with
    | some a =>
      obtain ⟨-, htold, hevent⟩ := hstage.of_act?_eq_some hact
      rw [hevent]
      exact .inr (.inl ⟨⟨i, a⟩, rfl, rfl, List.append_nil _, htold⟩)
    | none =>
      cases hevent : dm.event? with
      | none => exact .inl ⟨rfl, rfl, List.append_nil _⟩
      | some e =>
        obtain ⟨a, hacts, htold, he⟩ := hstage.of_event?_eq_some hevent
        exact .inr (.inr ⟨⟨i, e⟩, a, rfl, rfl, rfl, hacts, htold, he⟩)

/-! ### The order of the deeds -/

theorem untoldOf_of_none {s : Traffic.Step} (hdeed : deed? d.traffic s = none)
    (htelling : telling? d.traffic s = none) :
    (d.step (.traffic s)).untoldOf u = d.untoldOf u := by
  rw [step_traffic_of_none hdeed htelling]
  rfl

theorem call_notMem_told {i : Nat} (h : d.toldBy i = []) : i ∉ d.told.map Telling.call := by
  intro hmem
  obtain ⟨τ, hτ, rfl⟩ := List.mem_map.1 hmem
  have := mem_toldBy hτ
  rw [h] at this
  contradiction

/-- A new deed has yet to be told. -/
theorem untoldOf_of_deed? {s : Traffic.Step} {δ : Deed} (hdeed : deed? d.traffic s = some δ)
    (htelling : telling? d.traffic s = none) (htold : d.toldBy δ.call = []) :
    (d.step (.traffic s)).untoldOf u =
      d.untoldOf u ++ [δ].filter (fun δ => δ.act.user = u ∧ δ.act.isTold) := by
  have hcall := call_notMem_told htold
  have hfilter : ([δ].filter (fun δ => δ.act.user = u ∧ δ.act.isTold)).filter
      (·.call ∉ d.told.map Telling.call) =
      [δ].filter (fun δ => δ.act.user = u ∧ δ.act.isTold) := by
    refine List.filter_eq_self.2 fun σ hσ => ?_
    obtain rfl := List.mem_singleton.1 (List.mem_filter.1 hσ).1
    exact decide_eq_true hcall
  rw [step, hdeed, htelling, untoldOf, deedsOf, Option.toList_none, List.append_nil,
    Option.toList_some, List.filter_append, List.filter_append, hfilter]
  rfl

/-- A call that has told of its deed has no other to tell of. -/
theorem untoldOf_of_telling? {s : Traffic.Step} {τ : Telling} (hdeed : deed? d.traffic s = none)
    (htelling : telling? d.traffic s = some τ) :
    (d.step (.traffic s)).untoldOf u = (d.untoldOf u).filter (·.call ≠ τ.call) := by
  rw [step, hdeed, htelling, Option.toList_none, List.append_nil]
  show (d.deedsOf u).filter (·.call ∉ (d.told ++ [τ]).map Telling.call) = _
  rw [untoldOf, List.filter_filter]
  refine List.filter_congr fun δ _ => ?_
  rw [← Bool.decide_and, decide_eq_decide, List.map_append, List.mem_append, not_or, and_comm,
    List.map_singleton, List.mem_singleton]

theorem act_eq_of_mem_untoldOf {i : Nat} {a : Act} (hacts : d.actsBy i = [a]) {δ : Deed}
    (hδ : δ ∈ d.untoldOf u) (hcall : δ.call = i) : δ.act = a ∧ δ.act.user = u := by
  obtain ⟨hdeed, h⟩ := List.mem_filter.1 (List.mem_filter.1 hδ).1
  obtain ⟨huser, htold⟩ := of_decide_eq_true h
  have hmem := mem_actsBy hdeed htold
  rw [hcall, hacts] at hmem
  exact ⟨List.mem_singleton.1 hmem, huser⟩

/-- A call with one deed has no more than one yet to tell of. -/
theorem length_filter_untoldOf_le {i : Nat} {a : Act} (hacts : d.actsBy i = [a]) :
    ((d.untoldOf u).filter (·.call = i)).length ≤ 1 := by
  have hlength := congrArg List.length hacts
  rw [actsBy, List.length_map, List.length_singleton] at hlength
  rw [← hlength, untoldOf, deedsOf, List.filter_filter, List.filter_filter]
  refine (List.monotone_filter_right _ fun δ h => ?_).length_le
  simp only [Bool.and_eq_true, decide_eq_true_eq] at h ⊢
  exact ⟨h.1.1, h.2.2⟩

/-- The first deed that has yet to be told is the only one of its call. -/
theorem filter_untoldOf_eq_of_cons {i : Nat} {a : Act} (hacts : d.actsBy i = [a]) {δ : Deed}
    {rest : List Deed} (huntold : d.untoldOf u = δ :: rest) (hcall : δ.call = i) :
    (d.untoldOf u).filter (·.call ≠ i) = rest := by
  have hlength := length_filter_untoldOf_le (u := u) hacts
  rw [huntold, List.filter_cons_of_pos (by simp [hcall]), List.length_cons] at hlength
  have hnil := List.length_eq_zero_iff.1 (Nat.le_zero.1 (Nat.le_of_succ_le_succ hlength))
  rw [huntold, List.filter_cons_of_neg (by simp [hcall])]
  refine List.filter_eq_self.2 fun σ hσ => ?_
  have := List.filter_eq_nil_iff.1 hnil σ hσ
  simpa using this

theorem filter_eq_of_getElem? {backlog : List Event} {k : Nat} {e : Event}
    (hk : backlog[k]? = some e) (u : UserId) :
    backlog.filter (·.user = u) = (backlog.take k).filter (·.user = u) ++
      ([e].filter (·.user = u) ++ (backlog.drop (k + 1)).filter (·.user = u)) := by
  obtain ⟨hlt, rfl⟩ := List.getElem?_eq_some_iff.1 hk
  rw [← List.filter_append, ← List.filter_append, List.singleton_append,
    ← List.drop_eq_getElem_cons hlt, List.take_append_drop]

/-- A task that does not overtake another of its user publishes the user's next event. -/
theorem filter_eraseIdx_of_turn {u : UserId} {backlog : List Event} {k : Nat} {e : Event}
    (hk : backlog[k]? = some e)
    (hturn : e.user = u → ∀ e' ∈ backlog.take k, e'.user ≠ u) :
    backlog.filter (·.user = u) =
      [e].filter (·.user = u) ++ (backlog.eraseIdx k).filter (·.user = u) := by
  rw [filter_eq_of_getElem? hk, List.eraseIdx_eq_take_drop_succ, List.filter_append]
  by_cases huser : e.user = u
  · have hnone : (backlog.take k).filter (·.user = u) = [] := by
      rw [List.filter_eq_nil_iff]
      exact fun e' he' => by simpa using hturn huser e' he'
    rw [hnone, List.nil_append, List.nil_append]
  · have hnone : [e].filter (·.user = u) = [] := by simp [huser]
    rw [hnone, List.nil_append, List.nil_append]

theorem deedsOf_step_traffic (d : Dispatch) (s : Traffic.Step) (u : UserId) :
    (d.step (.traffic s)).deedsOf u = d.deedsOf u ++
      (deed? d.traffic s).toList.filter (fun δ => δ.act.user = u ∧ δ.act.isTold) :=
  List.filter_append ..

/-- A call that tells of the user's first deed that was yet to be told adds to what is told, and to
what is under way, at their ends; one that tells of another user's deed adds to neither. -/
theorem InOrder.of_telling (hu : d.InOrder u) {s : Traffic.Step} {τ : Telling} {a : Act}
    (hdeed : deed? d.traffic s = none) (htelling : telling? d.traffic s = some τ)
    (hbacklog : (d.step (.traffic s)).site.backlog = d.site.backlog ++ [τ.event])
    (hacts : d.actsBy τ.call = [a]) (he : a.ToldBy τ.event)
    (hhead : τ.event.user = u → (d.untoldOf u).head?.map Deed.call = some τ.call) :
    (d.step (.traffic s)).InOrder u := by
  obtain ⟨first, hdeeds, hevents⟩ := hu
  have hpublished : (d.step (.traffic s)).publishedOf u = d.publishedOf u := rfl
  have hdeeds' : (d.step (.traffic s)).deedsOf u = first ++ d.untoldOf u := by
    rw [deedsOf_step_traffic, hdeed, ← hdeeds]
    exact List.append_nil _
  by_cases huser : τ.event.user = u
  · have hhead := hhead huser
    cases huntold : d.untoldOf u with
    | nil =>
      rw [huntold] at hhead
      contradiction
    | cons δ rest =>
      rw [huntold] at hhead hdeeds'
      have hcall : δ.call = τ.call := Option.some.inj hhead
      have hact := (act_eq_of_mem_untoldOf hacts (huntold ▸ List.mem_cons_self) hcall).1
      refine ⟨first ++ [δ], ?_, ?_⟩
      · rw [hdeeds', untoldOf_of_telling? hdeed htelling,
          filter_untoldOf_eq_of_cons hacts huntold hcall, List.append_assoc]
        rfl
      · rw [hpublished, waitingOf, hbacklog, List.filter_append, ← List.append_assoc,
          List.filter_cons_of_pos (by simp [huser]), List.filter_nil]
        exact List.rel_append hevents (.cons (hact ▸ he) .nil)
  · refine ⟨first, ?_, ?_⟩
    · rw [hdeeds', untoldOf_of_telling? hdeed htelling, List.filter_eq_self.2 fun δ hδ => ?_]
      refine decide_eq_true fun hcall => huser ?_
      obtain ⟨hact, hδuser⟩ := act_eq_of_mem_untoldOf hacts hδ hcall
      rw [he.user_eq, ← hact, hδuser]
    · rw [hpublished, waitingOf, hbacklog, List.filter_append,
        List.filter_cons_of_neg (by simp [huser]), List.filter_nil, List.append_nil]
      exact hevents

theorem Sound.inOrder_traffic (h : d.Sound) (hu : d.InOrder u) {s : Traffic.Step}
    (hturn : KeepsTurn u d (.traffic s)) : (d.step (.traffic s)).InOrder u := by
  have hpublished : (d.step (.traffic s)).publishedOf u = d.publishedOf u := rfl
  rcases h.step_traffic_cases s with ⟨hdeed, htelling, hbacklog⟩ |
    ⟨δ, hdeed, htelling, hbacklog, htold⟩ | ⟨τ, a, hdeed, htelling, hbacklog, hacts, -, he⟩
  · obtain ⟨first, hdeeds, hevents⟩ := hu
    refine ⟨first, ?_, ?_⟩
    · rw [deedsOf_step_traffic, hdeed, untoldOf_of_none hdeed htelling, ← hdeeds]
      exact List.append_nil _
    · rw [hpublished, waitingOf, hbacklog]
      exact hevents
  · obtain ⟨first, hdeeds, hevents⟩ := hu
    refine ⟨first, ?_, ?_⟩
    · rw [deedsOf_step_traffic, hdeed, untoldOf_of_deed? hdeed htelling htold,
        ← List.append_assoc, ← hdeeds]
      rfl
    · rw [hpublished, waitingOf, hbacklog]
      exact hevents
  · exact hu.of_telling hdeed htelling hbacklog hacts he (hturn τ htelling)

theorem Sound.inOrder_step (h : d.Sound) (hu : d.InOrder u) {s : Step}
    (hturn : KeepsTurn u d s) : (d.step s).InOrder u := by
  cases s with
  | traffic s => exact h.inOrder_traffic hu hturn
  | announce k =>
    cases hk : d.site.backlog[k]? with
    | none =>
      rw [Dispatch.step, hk]
      exact hu
    | some e =>
      obtain ⟨notices, hstep⟩ := h.exists_step_announce hk
      obtain ⟨first, hdeeds, hevents⟩ := hu
      refine ⟨first, by rw [hstep]; exact hdeeds, ?_⟩
      rw [waitingOf, filter_eraseIdx_of_turn hk (hturn e hk), ← List.append_assoc] at hevents
      rw [hstep, publishedOf, List.filter_append]
      exact hevents
  | receive | settle => exact hu

theorem Sound.inOrder_run (h : d.Sound) (hu : d.InOrder u) {steps : List Step}
    (hturn : InTurn u d steps) : (d.run steps).InOrder u := by
  induction steps generalizing d with
  | nil => exact hu
  | cons s rest ih => exact ih (h.step s) (h.inOrder_step hu hturn.1) hturn.2

/-- What the first deeds are told by, as the messages of their stays carry it. -/
theorem forall₂_carries_of_toldBy {first : List Deed} {events : List Event} {stays : List Stay}
    (htold : List.Forall₂ (fun δ e => δ.act.ToldBy e) first events)
    (hcarries : List.Forall₂ Carries stays events) :
    List.Forall₂ (fun δ s => ∃ e, δ.act.ToldBy e ∧ Carries s e) first stays := by
  induction htold generalizing stays with
  | nil =>
    obtain rfl := List.forall₂_nil_right_iff.1 hcarries
    exact .nil
  | cons he _ ih =>
    obtain ⟨s, rest, hs, hrest, rfl⟩ := List.forall₂_cons_right_iff.1 hcarries
    exact .cons ⟨_, he, hs⟩ (ih hrest)

theorem Sound.chronological (h : d.Sound) (hu : d.InOrder u) : d.Chronological u := by
  obtain ⟨first, hdeeds, hevents⟩ := hu
  have hprefix (n : Nat) : first.take n <+: d.deedsOf u :=
    (List.take_prefix n first).trans (hdeeds ▸ List.prefix_append ..)
  have hpublished := List.forall₂_take_append _ _ _ hevents
  obtain ⟨stays, gone, hseen, ⟨rest, hgone⟩, hcarries⟩ := (h.delivered u).seen
  refine ⟨⟨first, hdeeds, hevents⟩, ⟨first.take (d.publishedOf u).length, hprefix _, ?_⟩,
    stays, first.take gone.length, hseen, hprefix _, ?_, ?_⟩
  · have hcarried : List.Forall₂ (fun δ payload => ∃ e, δ.act.ToldBy e ∧ payload = e.encode)
        (first.take (d.publishedOf u).length) ((d.publishedOf u).map Event.encode) :=
      List.forall₂_map_right_iff.2 (hpublished.imp fun _ e he => ⟨e, he, rfl⟩)
    rw [← h.queued_eq u] at hcarried
    exact List.forall₂_map_right_iff.1 hcarried
  · rw [← hgone, List.append_assoc] at hevents
    exact forall₂_carries_of_toldBy (List.forall₂_take_append _ _ _ hevents) hcarries
  · obtain ⟨rest, hrest⟩ := hprefix gone.length
    have hfounded := (h.founded.ofUser u).take (first.take gone.length).length
    rwa [← deedsOf, ← hrest, List.take_left] at hfounded

/-! ### Waiting for the tasks -/

/-- Something is done to the rows of the user that is to be announced only once the user's earlier
deeds are told and no task of the user is under way. -/
def Awaits (u : UserId) (d : Dispatch) : Step → Prop
  | .traffic s => ∀ δ ∈ deed? d.traffic s, δ.act.user = u → δ.act.isTold = true →
    d.untoldOf u = [] ∧ d.waitingOf u = []
  | .announce _ | .receive | .settle .. => True

/-- Each deed of the user waits for what the one before it is to announce. -/
def Awaited (u : UserId) : Dispatch → List Step → Prop
  | _, [] => True
  | d, s :: rest => Awaits u d s ∧ Awaited u (d.step s) rest

instance (u : UserId) (d : Dispatch) : (s : Step) → Decidable (Awaits u d s)
  | .traffic s => inferInstanceAs (Decidable (∀ δ ∈ deed? d.traffic s, _ → _ → _ ∧ _))
  | .announce _ | .receive | .settle .. => instDecidableTrue

instance decidableAwaited (u : UserId) : (d : Dispatch) → (steps : List Step) →
    Decidable (Awaited u d steps)
  | _, [] => instDecidableTrue
  | d, s :: rest => @instDecidableAnd _ _ _ (decidableAwaited u (d.step s) rest)

/-- How many events of a user are yet to be published. -/
def due (d : Dispatch) (u : UserId) : Nat := (d.untoldOf u).length + (d.waitingOf u).length

/-- The deed that a call tells of was yet to be told. -/
theorem exists_mem_untoldOf {τ : Telling} {a : Act} (hacts : d.actsBy τ.call = [a])
    (htold : d.toldBy τ.call = []) (huser : a.user = u) :
    ∃ δ ∈ d.untoldOf u, δ.call = τ.call := by
  obtain ⟨δ, hδ, hcall, rfl, hisTold⟩ := exists_deed_of_mem_actsBy (hacts ▸ List.mem_cons_self)
  have hof : δ ∈ d.deedsOf u := List.mem_filter.2 ⟨hδ, decide_eq_true ⟨huser, hisTold⟩⟩
  exact ⟨δ, List.mem_filter.2 ⟨hof, decide_eq_true (hcall ▸ call_notMem_told htold)⟩, hcall⟩

/-- If no more than one event of the user is due, none gets ahead of another. -/
theorem Sound.keepsTurn_of_due_le (h : d.Sound) (hdue : d.due u ≤ 1) (s : Step) :
    KeepsTurn u d s := by
  cases s with
  | traffic s =>
    intro τ hτ huser
    rcases h.step_traffic_cases s with ⟨-, hnone, -⟩ | ⟨δ, -, hnone, -⟩ |
      ⟨τ', a, -, hsome, -, hacts, htold, he⟩
    · rw [hnone] at hτ
      contradiction
    · rw [hnone] at hτ
      contradiction
    · obtain rfl : τ' = τ := Option.some.inj (hsome.symm.trans hτ)
      obtain ⟨δ, hδ, hcall⟩ := exists_mem_untoldOf hacts htold (he.user_eq.symm.trans huser)
      rw [due] at hdue
      cases huntold : d.untoldOf u with
      | nil =>
        rw [huntold] at hδ
        contradiction
      | cons σ rest =>
        rw [huntold, List.length_cons] at hdue
        obtain rfl : rest = [] := List.length_eq_zero_iff.1 (by omega)
        rw [huntold] at hδ
        obtain rfl := List.mem_singleton.1 hδ
        exact congrArg some hcall
  | announce k =>
    intro e hk huser e' he' he'user
    have hearlier : 0 < ((d.site.backlog.take k).filter (·.user = u)).length :=
      List.length_pos_of_mem (List.mem_filter.2 ⟨he', decide_eq_true he'user⟩)
    have hone : [e].filter (·.user = u) = [e] := by simp [huser]
    rw [due, waitingOf, filter_eq_of_getElem? hk, hone] at hdue
    simp only [List.length_append, List.length_singleton] at hdue
    omega
  | receive | settle => trivial

theorem Sound.due_step (h : d.Sound) (hdue : d.due u ≤ 1) {s : Step} (hawaits : Awaits u d s) :
    (d.step s).due u ≤ 1 := by
  cases s with
  | traffic s =>
    rcases h.step_traffic_cases s with ⟨hdeed, htelling, hbacklog⟩ |
      ⟨δ, hdeed, htelling, hbacklog, htold⟩ | ⟨τ, a, hdeed, htelling, hbacklog, hacts, htold, he⟩
    · rw [due, untoldOf_of_none hdeed htelling, waitingOf, hbacklog]
      exact hdue
    · rw [due, untoldOf_of_deed? hdeed htelling htold, waitingOf, hbacklog, ← waitingOf]
      by_cases hδ : δ.act.user = u ∧ δ.act.isTold = true
      · obtain ⟨huntold, hwaiting⟩ := hawaits δ hdeed hδ.1 hδ.2
        rw [huntold, hwaiting, List.nil_append, List.length_nil, Nat.add_zero]
        exact List.length_filter_le _ [δ]
      · rw [List.filter_cons_of_neg (by simpa using hδ), List.filter_nil, List.append_nil]
        exact hdue
    · rw [due, untoldOf_of_telling? hdeed htelling, waitingOf, hbacklog, List.filter_append,
        ← waitingOf, List.length_append]
      rw [due] at hdue
      by_cases huser : τ.event.user = u
      · -- The event is no longer yet to be told, but under way.
        obtain ⟨δ, hδ, hcall⟩ := exists_mem_untoldOf hacts htold (he.user_eq.symm.trans huser)
        have hlt : ((d.untoldOf u).filter (·.call ≠ τ.call)).length < (d.untoldOf u).length :=
          List.length_filter_lt_length_iff_exists.2 ⟨δ, hδ, by simp [hcall]⟩
        have hone := List.length_filter_le (fun e : Event => decide (e.user = u)) [τ.event]
        rw [List.length_singleton] at hone
        omega
      · rw [List.filter_cons_of_neg (by simp [huser]), List.filter_nil, List.length_nil]
        exact Nat.le_trans (Nat.add_le_add_right (List.length_filter_le ..) _) hdue
  | announce k =>
    cases hk : d.site.backlog[k]? with
    | none =>
      rw [Dispatch.step, hk]
      exact hdue
    | some e =>
      obtain ⟨notices, hstep⟩ := h.exists_step_announce hk
      rw [hstep]
      have hle := ((List.eraseIdx_sublist d.site.backlog k).filter (·.user = u)).length_le
      exact Nat.le_trans (Nat.add_le_add_left hle _) hdue
  | receive | settle => exact hdue

/-- Deeds that are waited for are told and published in turn. -/
theorem Sound.inTurn_of_awaited (h : d.Sound) (hdue : d.due u ≤ 1) {steps : List Step}
    (hawaited : Awaited u d steps) : InTurn u d steps := by
  induction steps generalizing d with
  | nil => trivial
  | cons s rest ih =>
    exact ⟨h.keepsTurn_of_due_le hdue s, ih (h.step s) (h.due_step hdue hawaited.1) hawaited.2⟩

/-! ### Every run -/

/-- Whatever calls and tasks do, each deed is told once by its call, and what is published of a user
is queued and seen in the order of publishing. If tasks are set off and publish in turn, as they do
when each deed waits for the one before it, that is the order of the deeds. -/
theorem run_delivered (channel : String) (lanes : UInt32) (cap : Decimal) (clock : Timestamp)
    (u : UserId) (steps : List Step) :
    ((start channel lanes cap clock).run steps).Delivered u ∧
      (InTurn u (start channel lanes cap clock) steps →
        ((start channel lanes cap clock).run steps).Chronological u) ∧
      (Awaited u (start channel lanes cap clock) steps →
        InTurn u (start channel lanes cap clock) steps) := by
  have hstart := sound_start channel lanes cap clock
  have h := hstart.run steps
  refine ⟨h.delivered u, fun hturn => ?_, fun hawaited => ?_⟩
  · exact h.chronological (hstart.inOrder_run ⟨[], rfl, .nil⟩ hturn)
  · exact hstart.inTurn_of_awaited (Nat.zero_le 1) hawaited

/-- A payment once the row it pays has been published, and the row's message on its way. -/
theorem run_delivered_awaited :
    let u : UserId := ⟨1, by decide⟩
    let rent : Request := .create {} ⟨1, ⟨false, 1050, 2, by decide, by decide⟩, "x"⟩
    let steps : List Step :=
      .traffic (.begin rent) :: List.replicate 4 (.traffic (.advance 0)) ++
        [.announce 0, .receive] ++
        .traffic (.begin (.pay {} 1)) :: List.replicate 4 (.traffic (.advance 1)) ++ [.announce 0]
    Awaited u (start "transactions" 1 defaultCap default) steps ∧
      InTurn u (start "transactions" 1 defaultCap default) steps ∧
      ((start "transactions" 1 defaultCap default).run steps).Chronological u := by
  intro u rent steps
  have hawaited : Awaited u (start "transactions" 1 defaultCap default) steps := by decide +kernel
  obtain ⟨-, hchronological, hturn⟩ := run_delivered "transactions" 1 defaultCap default u steps
  exact ⟨hawaited, hturn hawaited, hchronological (hturn hawaited)⟩

/-- The task of a payment overtakes that of the row it paid, and a consumer sees the payment
first. -/
theorem run_overtaken :
    let u : UserId := ⟨1, by decide⟩
    let row : Transaction := ⟨1, u, ⟨1050, by decide, by decide⟩, "x", false, default⟩
    let rent : Request := .create {} ⟨1, ⟨false, 1050, 2, by decide, by decide⟩, "x"⟩
    let d := (start "transactions" 1 defaultCap default).run
      (.traffic (.begin rent) :: List.replicate 4 (.traffic (.advance 0)) ++
        .traffic (.begin (.pay {} 1)) :: List.replicate 4 (.traffic (.advance 1)) ++
        [.announce 1, .announce 0, .receive])
    d.deeds = [⟨0, .record row⟩, ⟨1, .pay u [row]⟩] ∧
      d.told.map Telling.event = [.ofTransaction row default, .paid u 1 default] ∧
      (d.queuedOf u).map Letter.payload =
        [(Event.paid u 1 default).encode, (Event.ofTransaction row default).encode] ∧
      (d.seenOf u).map Delivery.payload = [(Event.paid u 1 default).encode] := by
  intro u row rent d
  have hpublished : d.publishedOf u = [.paid u 1 default, .ofTransaction row default] := by
    decide +kernel
  refine ⟨by decide +kernel, by decide +kernel, ?_, by decide +kernel⟩
  rw [((sound_start ..).run _).queued_eq u, hpublished]
  rfl

/-- A payment sets off its task before the call that recorded the row it paid; the tasks publish in
the order in which they were set off, and a consumer sees the payment first. -/
theorem run_outrun :
    let u : UserId := ⟨1, by decide⟩
    let row : Transaction := ⟨1, u, ⟨1050, by decide, by decide⟩, "x", false, default⟩
    let rent : Request := .create {} ⟨1, ⟨false, 1050, 2, by decide, by decide⟩, "x"⟩
    let d := (start "transactions" 1 defaultCap default).run
      ([.traffic (.begin rent), .traffic (.begin (.pay {} 1)), .traffic (.advance 0)] ++
        List.replicate 4 (.traffic (.advance 1)) ++ List.replicate 3 (.traffic (.advance 0)) ++
        [.announce 0, .announce 0, .receive])
    d.deeds = [⟨0, .record row⟩, ⟨1, .pay u [row]⟩] ∧
      d.told.map Telling.event = [.paid u 1 default, .ofTransaction row default] ∧
      (d.queuedOf u).map Letter.payload =
        [(Event.paid u 1 default).encode, (Event.ofTransaction row default).encode] ∧
      (d.seenOf u).map Delivery.payload = [(Event.paid u 1 default).encode] := by
  intro u row rent d
  have hpublished : d.publishedOf u = [.paid u 1 default, .ofTransaction row default] := by
    decide +kernel
  refine ⟨by decide +kernel, by decide +kernel, ?_, by decide +kernel⟩
  rw [((sound_start ..).run _).queued_eq u, hpublished]
  rfl

end SpendingLedger.Dispatch
