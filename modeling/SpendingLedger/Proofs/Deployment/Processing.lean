import SpendingLedger.Proofs.Deployment.Messages
import SpendingLedger.Proofs.Broker.Service

/-!
The workers of a deployment are consumers of its channel: to process a message is to have it handled
and to settle it as the verdict and the policy demand. Nothing else comes of it but notices, and a
reason kept with what is set aside.
-/

namespace SpendingLedger

namespace Deployment

theorem run_reports (notices : List Notice) (s : Deployment) :
    ∃ notices', (notices.forM Reporting.report : Action Unit).run s =
      ((), { s with notices := notices' }) := by
  induction notices generalizing s with
  | nil => exact ⟨s.notices, rfl⟩
  | cons n rest ih => exact ih { s with notices := n :: s.notices }

/-- The verdict is that of the handler. -/
theorem run_handle_eq (s : Deployment) (d : Delivery) :
    ∃ notices, (handle d).run s = ((s.handler.handle d).1,
      { s with handler := (s.handler.handle d).2.2, notices }) := by
  obtain ⟨notices, hreports⟩ := run_reports (s.handler.handle d).2.1
    { s with handler := (s.handler.handle d).2.2 }
  refine ⟨notices, ?_⟩
  unfold handle consultHandler
  rw [run_get_bind]
  show ((s.handler.handle d).1, ((((s.handler.handle d).2.1).forM Reporting.report : Action Unit).run
    { s with handler := (s.handler.handle d).2.2 }).2) = _
  rw [hreports]

theorem broker_settleForWorker (s : Deployment) (hfaults : s.settleFaults = 0) (d : Delivery)
    (how : Settlement) :
    ((settleForWorker d how).run s).2.broker = (s.broker.settle d how).2 := by
  have hnot : ¬ 0 < s.settleFaults := by omega
  unfold settleForWorker settle
  rw [run_get_bind, if_neg hnot, run_bind, run_get_bind]
  rcases s.broker.settle_cases d how with ⟨-, hsettle⟩ | ⟨_, m, _, cursor, -, -, -, -, hsettle⟩ <;>
    rw [hsettle]
  · rfl
  · cases how <;> rfl

theorem handler_settleForWorker (s : Deployment) (d : Delivery) (how : Settlement) :
    ((settleForWorker d how).run s).2.handler = s.handler := by
  unfold settleForWorker settle
  rw [run_get_bind]
  split
  · rfl
  · rw [run_bind, run_get_bind]
    rcases s.broker.settle d how with ⟨_ | _, b⟩
    · rfl
    · cases how <;> rfl

/-- Notices apart, processing is handling, and settling as the verdict and the policy demand. -/
theorem run_process_snd (s : Deployment) (d : Delivery) :
    ∃ notices, ((process d).run s).2 =
      ((settleForWorker d (s.policy.settlement d.count (s.handler.handle d).1)).run
        { s with handler := (s.handler.handle d).2.2, notices }).2 := by
  obtain ⟨notices, hhandle⟩ := run_handle_eq { s with notices := .messageReceived d :: s.notices } d
  -- nothing happens after settling
  have hsettle (how : Settlement) (s' : Deployment)
      {f : Except BrokerError Unit → Action (Except BrokerError Settlement)}
      (hf : ∀ answer s'', ((f answer).run s'').2 = s'') :
      ((Transport.settle d how >>= f).run s').2 = ((settleForWorker d how).run s').2 := by
    rw [run_bind, hf]
    rfl
  unfold process Worker.process
  rw [run_get_bind, run_bind, run_bind,
    show (Reporting.report (.messageReceived d) : Action Unit).run s =
      ((), { s with notices := .messageReceived d :: s.notices }) from rfl, hhandle]
  by_cases hrequeue : s.policy.settlement d.count (s.handler.handle d).1 = .requeue
  · simp only [hrequeue, ↓reduceIte]
    rw [run_bind]
    refine ⟨.messageRequeued d :: notices, hsettle .requeue _ fun answer _ => ?_⟩
    cases answer <;> rfl
  · simp only [hrequeue, ↓reduceIte]
    refine ⟨notices, hsettle _ _ fun answer _ => ?_⟩
    cases answer <;> rfl

/-- Processing leaves the broker as settling does that the verdict and the policy demand. -/
theorem broker_process (s : Deployment) (hfaults : s.settleFaults = 0) (d : Delivery) :
    ((process d).run s).2.broker =
      (s.broker.settle d (s.policy.settlement d.count (s.handler.handle d).1)).2 := by
  obtain ⟨notices, hprocess⟩ := s.run_process_snd d
  rw [hprocess]
  exact broker_settleForWorker { s with handler := (s.handler.handle d).2.2, notices } hfaults d _

/-- Processing leaves the handler as handling does. -/
theorem handler_process (s : Deployment) (d : Delivery) :
    ((process d).run s).2.handler = (s.handler.handle d).2.2 := by
  obtain ⟨notices, hprocess⟩ := s.run_process_snd d
  rw [hprocess]
  exact handler_settleForWorker ..

/-- A settlement that the broker takes is made, and a reason is kept with what is set aside. -/
theorem run_settleForWorker_eq {s : Deployment} {d : Delivery} {how : Settlement} {b : Broker}
    (hfaults : s.settleFaults = 0) (hsettle : s.broker.settle d how = (.ok (), b)) :
    ∃ setAside notices, (settleForWorker d how).run s =
      (.ok (), { s with broker := b, setAside, notices }) := by
  have hnot : ¬ 0 < s.settleFaults := by omega
  unfold settleForWorker settle
  rw [run_get_bind, if_neg hnot, run_bind, run_get_bind, hsettle]
  cases how with
  | acknowledge | requeue => exact ⟨s.setAside, s.notices, rfl⟩
  | setAside reason =>
    exact ⟨(d.id, reason) :: s.setAside, .messageSetAside d reason :: s.notices, rfl⟩

/-- Where the broker takes the settlement, a message is settled as the verdict and the policy
demand. -/
theorem run_process_eq {s : Deployment} {d : Delivery} {how : Settlement} {b : Broker}
    (hfaults : s.settleFaults = 0)
    (hhow : s.policy.settlement d.count (s.handler.handle d).1 = how)
    (hsettle : s.broker.settle d how = (.ok (), b)) :
    ∃ setAside notices, (process d).run s = (.ok how,
      { s with broker := b, handler := (s.handler.handle d).2.2, setAside, notices }) := by
  obtain ⟨notices, hhandle⟩ := run_handle_eq { s with notices := .messageReceived d :: s.notices } d
  -- what is reported before settling does not matter
  have hsettled (notices : List Notice)
      {f : Except BrokerError Unit → Action (Except BrokerError Settlement)}
      (hf : f (.ok ()) = return .ok how) :
      ∃ setAside notices', (Transport.settle d how >>= f).run
          { s with handler := (s.handler.handle d).2.2, notices } = (.ok how,
        { s with
          broker := b, handler := (s.handler.handle d).2.2, setAside, notices := notices' }) := by
    obtain ⟨setAside, notices', h⟩ := run_settleForWorker_eq
      (s := { s with handler := (s.handler.handle d).2.2, notices }) hfaults hsettle
    refine ⟨setAside, notices', ?_⟩
    rw [run_bind, show (Transport.settle d how : Action _).run _ = _ from h, hf]
    rfl
  unfold process Worker.process
  rw [run_get_bind, run_bind, run_bind,
    show (Reporting.report (.messageReceived d) : Action Unit).run s =
      ((), { s with notices := .messageReceived d :: s.notices }) from rfl, hhandle]
  simp only [hhow]
  by_cases hrequeue : how = .requeue
  · simp only [hrequeue, ↓reduceIte] at hsettled ⊢
    rw [run_bind]
    exact hsettled (.messageRequeued d :: notices) rfl
  · simp only [hrequeue, ↓reduceIte]
    exact hsettled notices rfl

/-- A message that cannot be opened leaves the handler as it is, and is given up, whatever the
policy on retries. -/
theorem process_undecodable {s : Deployment} {d : Delivery} {fault : Json.Fault}
    (hdecode : Event.decode d.payload = .error fault) (hverdicts : s.handler.verdicts = none) :
    let how : Settlement := .setAside s!"undecodable envelope: {fault.summary}"
    ((process d).run s).2.handler = s.handler ∧
    ∀ b, s.settleFaults = 0 → s.broker.settle d how = (.ok (), b) →
      ∃ setAside notices,
        (process d).run s = (.ok how, { s with broker := b, setAside, notices }) := by
  intro how
  have hcount : s.handler.handle d = s.handler.count d := by rw [Handler.handle, hverdicts]
  have hhandle : s.handler.handle d = (.permanent s!"undecodable envelope: {fault.summary}",
      [.eventUndecodable d.channel d.id], s.handler) := by
    rw [hcount, Handler.count]
    simp only [Statistics.handle, hdecode]
  refine ⟨by rw [handler_process, hhandle], fun b hfaults hsettle => ?_⟩
  obtain ⟨setAside, notices, hrun⟩ := run_process_eq hfaults (by rw [hhandle]; rfl) hsettle
  rw [hhandle] at hrun
  exact ⟨setAside, notices, hrun⟩

end Deployment

/-- A consumer that has a delivery handled and then settles does what a worker does that processes
it. -/
theorem Service.broker_process (s : Service) (site : Deployment) {d : Delivery} (hd : d ∈ s.held)
    (hbroker : s.history.broker = site.broker) (hpolicy : s.policy = site.policy)
    (hfaults : site.settleFaults = 0) :
    let t : Trial := ⟨d, (site.handler.handle d).1⟩
    (s.run [.handle t, .settle t]).history.broker = ((Deployment.process d).run site).2.broker := by
  intro t
  have hhandle : s.step (.handle t) =
      { s with
        held := s.held.erase d
        judged := s.judged ++ [t]
        trials := s.trials ++ [t] } := if_pos hd
  have hsettle (s' : Service) (ht : t ∈ s'.judged) : (s'.step (.settle t)).history =
      s'.history.perform (.settle d (t.settlement s'.policy)) := by
    rw [step, if_pos ht]
  rw [site.broker_process hfaults, run, List.foldl_cons, List.foldl_cons, List.foldl_nil, hhandle,
    hsettle _ List.mem_concat_self, History.broker_perform_settle, hbroker, Trial.settlement, hpolicy]

end SpendingLedger
