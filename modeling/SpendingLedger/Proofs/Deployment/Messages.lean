import SpendingLedger.Deployment.Consumption
import SpendingLedger.Proofs.Broker.Holding
import SpendingLedger.Proofs.Deployment.Operations
import SpendingLedger.Proofs.Statistics.Fold

/-!
What announcing, receiving and processing leave behind in a deployment. An event that is announced
is posted or lost; a message whose event is counted is acknowledged.
-/

namespace SpendingLedger.Deployment

variable {s : Deployment} {channel : String}

/-! ### Announcing -/

theorem run_publish (s : Deployment) (channel key : String) (payload : ByteArray) :
    (∃ e, (publish channel key payload).run s = (.error e, s)) ∨
    ∃ notices, (publish channel key payload).run s =
      (.ok (), { s with broker := s.broker.post s.clock channel key payload, notices }) := by
  unfold publish
  rw [run_get_bind]
  rcases s.broker.publish_cases s.clock channel key payload with ⟨e, h⟩ | h <;> rw [h]
  · exact .inl ⟨e, rfl⟩
  · exact .inr ⟨_, rfl⟩

def posted (s : Deployment) (channel : String) (e : Event) : Broker :=
  s.broker.post s.clock channel e.user.routingKey e.encode

theorem run_deliver (s : Deployment) (channel : String) (e : Event) :
    (∃ err notices, (Announcement.deliver channel e : Action _).run s =
      (.error err, { s with notices })) ∨
    ∃ notices, (Announcement.deliver channel e : Action _).run s =
      (.ok (), { s with broker := s.posted channel e, notices }) := by
  unfold Announcement.deliver Announcement.publish
  simp only [run_bind]
  rcases s.run_publish channel e.user.routingKey e.encode with ⟨err, h⟩ | ⟨notices, h⟩
  · refine .inl ⟨.broker err, .eventDropped e.kind e.user channel :: s.notices, ?_⟩
    rw [show (Transport.publish channel e.user.routingKey e.encode : Action _).run s = _ from h]
    rfl
  · refine .inr ⟨.eventPublished e.kind e.user channel :: notices, ?_⟩
    rw [show (Transport.publish channel e.user.routingKey e.encode : Action _).run s = _ from h]
    rfl

/-- What comes of announcing events one after the other, and the deployment afterwards. -/
inductive Announces (channel : String) : Deployment → List Event →
    List (Event × Except AnnouncementError Unit) → Deployment → Prop
  | done (s : Deployment) : Announces channel s [] [] s
  | lost {s s' : Deployment} {rest : List Event}
      {results : List (Event × Except AnnouncementError Unit)} (e : Event)
      (err : AnnouncementError) (notices : List Notice)
      (h : Announces channel { s with notices } rest results s') :
    Announces channel s (e :: rest) ((e, .error err) :: results) s'
  | posted {s s' : Deployment} {rest : List Event}
      {results : List (Event × Except AnnouncementError Unit)} (e : Event) (notices : List Notice)
      (h : Announces channel { s with broker := s.posted channel e, notices } rest results s') :
    Announces channel s (e :: rest) ((e, .ok ()) :: results) s'

theorem announces_deliverAll (channel : String) (events : List Event) (s : Deployment) :
    Announces channel s events ((Announcement.deliverAll channel events : Action _).run s).1
      ((Announcement.deliverAll channel events : Action _).run s).2 := by
  unfold Announcement.deliverAll
  induction events generalizing s with
  | nil => exact .done s
  | cons e rest ih =>
    rw [List.mapM_cons]
    simp only [run_bind]
    rcases s.run_deliver channel e with ⟨err, notices, h⟩ | ⟨notices, h⟩ <;> rw [h]
    · exact .lost e err notices (ih _)
    · exact .posted e notices (ih _)

/-- What was in the backlog is announced, and the backlog is empty. -/
theorem announces_flush (s : Deployment) :
    Announces s.channel { s with backlog := [] } s.backlog (flush.run s).1 (flush.run s).2 :=
  announces_deliverAll s.channel s.backlog { s with backlog := [] }

/-! ### Processing -/

theorem run_handle (s : Deployment) (hverdicts : s.handler.verdicts = none) (d : Delivery) :
    (handle d).run s = ((s.handler.statistics.handle d).verdict,
      { s with
        handler := { s.handler with statistics := (s.handler.statistics.handle d).statistics }
        notices := (s.handler.statistics.handle d).notice :: s.notices }) := by
  have hcount : s.handler.handle d = s.handler.count d := by rw [Handler.handle, hverdicts]
  unfold handle consultHandler
  rw [run_get_bind]
  simp only [hcount]
  rfl

theorem run_settleForWorker {d : Delivery} {b : Broker} (hfaults : s.settleFaults = 0)
    (hsettle : s.broker.settle d .acknowledge = (.ok (), b)) :
    (settleForWorker d .acknowledge).run s = (.ok (), { s with broker := b }) := by
  have hnot : ¬ 0 < s.settleFaults := by omega
  unfold settleForWorker settle
  rw [run_get_bind, if_neg hnot, run_bind, run_get_bind, hsettle]
  rfl

/-- A message whose event is counted is acknowledged. -/
theorem run_process {d : Delivery} {e : Event} {statistics : Statistics} {b : Broker}
    (hverdicts : s.handler.verdicts = none) (hfaults : s.settleFaults = 0)
    (hdecode : Event.decode d.payload = .ok (.event e))
    (happly : s.handler.statistics.apply e = .ok statistics)
    (hsettle : s.broker.settle d .acknowledge = (.ok (), b)) :
    ∃ notices, (process d).run s = (.ok .acknowledge,
      { s with broker := b, handler := { s.handler with statistics }, notices }) := by
  have hhandle : s.handler.statistics.handle d =
      ⟨statistics, .done, .eventProcessed e.kind e.user d.lane⟩ :=
    Statistics.handle_of_decode hdecode happly
  let received : Deployment := { s with notices := .messageReceived d :: s.notices }
  let handled : Deployment := { received with
    handler := { s.handler with statistics }
    notices := .eventProcessed e.kind e.user d.lane :: received.notices }
  have hverdict : (handle d).run received = (.done, handled) := by
    rw [run_handle received hverdicts]
    simp only [received, hhandle, handled]
  have hsettled : (settleForWorker d .acknowledge).run handled =
      (.ok (), { handled with broker := b }) := run_settleForWorker hfaults hsettle
  have hne : Settlement.acknowledge ≠ .requeue := by decide
  refine ⟨handled.notices, ?_⟩
  unfold process Worker.process
  rw [run_get_bind, run_bind, run_bind]
  rw [show (Reporting.report (.messageReceived d) : Action Unit).run s = ((), received) from rfl]
  rw [hverdict]
  simp only [RetryPolicy.settlement, hne, ↓reduceIte]
  rw [run_bind]
  rw [show (Transport.settle d .acknowledge : Action _).run handled = _ from hsettled]
  rfl

/-! ### The book -/

/-- An action that leaves the book alone. -/
def KeepsBook {α : Type} (x : Action α) : Prop := ∀ s, (x.run s).2.book = s.book

theorem KeepsBook.bind {α β : Type} {x : Action α} {f : α → Action β} (hx : KeepsBook x)
    (hf : ∀ a, KeepsBook (f a)) : KeepsBook (x >>= f) :=
  fun s => (hf _ _).trans (hx s)

theorem keepsBook_report (n : Notice) : KeepsBook (Reporting.report n) := fun _ => rfl

theorem keepsBook_reports (notices : List Notice) :
    KeepsBook (notices.forM Reporting.report) := by
  induction notices with
  | nil => exact fun _ => rfl
  | cons n rest ih => exact (keepsBook_report n).bind fun _ => ih

theorem keepsBook_handle (d : Delivery) : KeepsBook (handle d) := by
  intro s
  unfold handle consultHandler
  rw [run_get_bind]
  exact keepsBook_reports _ _

theorem keepsBook_settle (d : Delivery) (how : Settlement) : KeepsBook (settle d how) := by
  intro s
  unfold settle
  rw [run_get_bind]
  rcases s.broker.settle d how with ⟨_ | _, b⟩
  · rfl
  · cases how <;> rfl

theorem keepsBook_settleForWorker (d : Delivery) (how : Settlement) :
    KeepsBook (settleForWorker d how) := by
  intro s
  unfold settleForWorker
  rw [run_get_bind]
  split
  · rfl
  · refine ((keepsBook_settle d how).bind fun outcome => ?_) s
    cases outcome with
    | error e => exact fun _ => rfl
    | ok => cases how <;> exact fun _ => rfl

theorem keepsBook_process (d : Delivery) : KeepsBook (process d) := by
  intro s
  unfold process Worker.process
  rw [run_get_bind]
  refine ((keepsBook_report _).bind fun _ => (keepsBook_handle d).bind fun verdict => ?_) s
  by_cases hrequeue : s.policy.settlement d.count verdict = .requeue
  · simp only [hrequeue, ↓reduceIte]
    refine (keepsBook_report _).bind fun _ => (keepsBook_settleForWorker d _).bind fun outcome => ?_
    cases outcome <;> exact fun _ => rfl
  · simp only [hrequeue, ↓reduceIte]
    refine (keepsBook_settleForWorker d _).bind fun outcome => ?_
    cases outcome <;> exact fun _ => rfl

theorem Announces.book_eq {s s' : Deployment} {events : List Event}
    {results : List (Event × Except AnnouncementError Unit)}
    (h : Announces channel s events results s') : s'.book = s.book := by
  induction h with
  | done => rfl
  | lost _ _ _ _ ih => exact ih
  | posted _ _ _ ih => exact ih

end SpendingLedger.Deployment
