import SpacerocksCoa.StageRuns
import SpacerocksCoa.SubmissionTimes

/-!
# No stage of an order is ever without its next step

Along every run of the service: workers that stop between any two transactions, tasks that
cannot be created, retries, senders and operators in any order.
-/
namespace BatonNeverLost
open OrderStates ProofRecords OrderRows JobClaims FulfillmentAdapters NotificationAdapters
open FulfillmentHandlers WorkerRuns PaymentWebhooks OrderStateMachine
open JobSuccession BatonInvariant StageHandover StageRuns
open DeliveryGuard (DeliveryArrival SenderArrival deliveryService arriveDelivery NewOrder outboxOf
  sendOutbox send)
open SubmissionTimes (Arrives ArrivesLater)
open TransactionalPrograms

/-! ## The messages keep their kinds -/

theorem kinds_modify (rows : List OutboxRecord) (id : Nat) {f : OutboxRecord → OutboxRecord}
    (same : ∀ m, (f m).kind = m.kind) :
    (rows.map fun m => if m.id = id then f m else m).map OutboxRecord.kind =
      rows.map OutboxRecord.kind := by
  rw [List.map_map]
  refine List.map_congr_left fun m _ => ?_
  simp only [Function.comp_apply]
  split
  · exact same m
  · rfl

section
variable {p : Platform} {r r' : OrderRecord}

theorem modifyMessage_kinds (r : OrderRecord) (id : Nat) {f : OutboxRecord → OutboxRecord}
    (same : ∀ m, (f m).kind = m.kind) :
    (modifyMessage id f r).outbox.map OutboxRecord.kind = r.outbox.map OutboxRecord.kind :=
  kinds_modify r.outbox id same

theorem applyDeliveredEvent_kinds {record : OutboxRecord} {event : ResendWebhookEvent}
    {now : Instant} {result : WebhookProcessResult}
    (done : applyDeliveredEvent p record event now r = .ok (result, r')) :
    r'.outbox.map OutboxRecord.kind = r.outbox.map OutboxRecord.kind := by
  rcases (OutboxLeases.applyDeliveredEvent_outbox done).1 with same | delivered
  · rw [same]
  · rw [delivered]
    exact modifyMessage_kinds r _ fun _ => rfl

theorem markFailed_kind (type : ResendEventType) (m : OutboxRecord) :
    (markFailed type m).kind = m.kind := by
  unfold markFailed
  split <;> rfl

theorem processEvent_kinds {event : VerifiedResendEvent} {payloadSha256 : Sha256} {now : Instant}
    {result : WebhookProcessResult}
    (done : processEvent p event payloadSha256 now r = .ok (result, r')) :
    r'.outbox.map OutboxRecord.kind = r.outbox.map OutboxRecord.kind := by
  unfold processEvent at done
  split at done
  · split at done
    · unfold reconcileReplayedEvent at done
      split at done
      · cases done
        rfl
      · split at done
        · cases done
          rfl
        · split at done
          · cases done
            rfl
          · split at done
            · cases done
            · next applied =>
              cases done
              exact applyDeliveredEvent_kinds applied
    · cases done
  · split at done
    · cases done
      rfl
    · next record _ =>
      split at done
      · cases done
        rfl
      · split at done
        · cases done
          exact modifyMessage_kinds r record.id (markFailed_kind event.eventType)
        · split at done
          · cases done
            rfl
          · have applied := applyDeliveredEvent_kinds done
            exact applied

theorem recorded_kinds {message : ClaimedNotification} {o o' : OutboxLeases.Outbox}
    (recorded : OutboxLeases.Recorded message o o') :
    o'.rows.map OutboxRecord.kind = o.rows.map OutboxRecord.kind := by
  obtain ⟨_, _, onRow, onAttempt, _, settles, rfl⟩ := recorded
  exact kinds_modify _ _ fun m => (settles.same m).kind

theorem recordAccepted_kinds {message : ClaimedNotification} {acceptance : ProviderAcceptance}
    {now : Instant} (done : recordAccepted p message acceptance now r = .ok r') :
    r'.outbox.map OutboxRecord.kind = r.outbox.map OutboxRecord.kind := by
  obtain ⟨_, refined⟩ := OutboxLeases.recordAccepted_refines done
  exact recorded_kinds (OutboxLeases.recordAccepted_ok refined)

theorem claim_kinds {workerId : String} {now leaseFor : Int} {token : Nat} {locked : List Nat}
    {o o' : OutboxLeases.Outbox} {c : Option OutboxLeases.Claimed}
    (done : OutboxLeases.claim p.sha256 workerId now leaseFor token locked o = .ok (c, o')) :
    o'.rows.map OutboxRecord.kind = o.rows.map OutboxRecord.kind := by
  have expired : (OutboxLeases.expireUnclaimable locked now o).rows.map OutboxRecord.kind =
      o.rows.map OutboxRecord.kind := by
    rw [OutboxLeases.expireUnclaimable, List.map_map]
    refine List.map_congr_left fun m _ => ?_
    simp only [Function.comp_apply]
    split <;> rfl
  unfold OutboxLeases.claim at done
  split at done
  · cases done
  · split at done
    · cases done
    · split at done
      · cases done
        exact expired
      · next m _ =>
        split at done
        · cases done
        · cases done
          have taken := @kinds_modify (OutboxLeases.expireUnclaimable locked now o).rows m.id
            (OutboxLeases.leaseRow workerId (now + leaseFor) token) fun _ => rfl
          exact taken.trans expired

theorem send_kinds (a : SenderArrival) :
    (send p r a).outbox.map OutboxRecord.kind = r.outbox.map OutboxRecord.kind := by
  unfold send sendOutbox
  cases a with
  | claim workerId now leaseFor token locked =>
    simp only
    split
    · next done => exact claim_kinds done
    · rfl
  | retry message now retryAt code status =>
    simp only
    split
    · next done => exact recorded_kinds (OutboxLeases.recordRetry_ok done)
    · rfl
  | terminalFailure message now code status =>
    simp only
    split
    · next done => exact recorded_kinds (OutboxLeases.recordTerminalFailure_ok done)
    · rfl

end

/-! ## Arrivals -/

section
variable {s : Services} {w : World}

theorem keeps_of_messages {w' : World} {p : Platform} (baton : Baton w)
    (clock : w.clock ≤ w'.clock)
    (changed : OnlyMessages w.record w'.record ∨ Delivers p w.record w'.record)
    (kinds : w'.record.outbox.map OutboxRecord.kind = w.record.outbox.map OutboxRecord.kind) :
    Keeps w w' := by
  rcases changed with messages | ⟨verified, -, _, _, moved⟩
  · unfold OnlyMessages at messages
    have same : ∀ {β : Type} (f : OrderRecord → β), f w'.record = f { w.record with
        outbox := w'.record.outbox
        notificationAttempts := w'.record.notificationAttempts
        resendEvents := w'.record.resendEvents } := fun f => congrArg f messages
    exact keeps_of_unmoved baton clock ⟨same fun r => r.order.paymentState,
      same fun r => r.order.fulfillmentState, same OrderRecord.stateEvents, kinds⟩
      (same OrderRecord.tables)
  · have same : ∀ {β : Type} (f : OrderRecord → β), f w'.record = f _ := fun f => congrArg f moved
    have settled : Settled w.record.order.paymentState := by
      by_contra unsettled
      have waiting := (baton.coupled unsettled).1
      rw [verified] at waiting
      cases waiting
    refine @keeps_of_edge w w' baton clock .delivered ?_ settled (by decide) (fun _ _ => ?_)
      (same fun r => r.order.paymentState) (same fun r => r.order.fulfillmentState) ?_ kinds
      (same OrderRecord.tables)
    · rw [verified]
      decide
    · refine baton.upgraded ?_ ?_ <;> rw [stage, verified] <;> decide
    · intro e member
      rw [same OrderRecord.stateEvents] at member
      refine (List.mem_append.1 member).imp_right fun new => ?_
      rw [List.mem_singleton.1 new]
      rfl

theorem keeps_of_rows (baton : Baton w) {now : Instant} {tip : Nat} (clock : w.clock ≤ now)
    {t : JobTables} (rows : GoOn noEnds now w.record.tables t) :
    Keeps w ⟨{ w.record with tables := t }, now, tip⟩ :=
  keeps_of_moves baton (moves_of_unmoved clock ⟨rfl, rfl, rfl, rfl⟩ rows)

theorem keeps_of_clock (baton : Baton w) {now : Instant} {tip : Nat} (clock : w.clock ≤ now) :
    Keeps w ⟨w.record, now, tip⟩ :=
  keeps_of_unmoved baton clock (unmoved_refl _) rfl

/-- A claim takes a row that is due, and the run it starts knows so. -/
theorem startJob_keeps (baton : Baton w) {now : Instant} {tip : Nat} (clock : w.clock ≤ now)
    {claimed : Option (ClaimedJob × JobTables)} {workerId : String}
    (due : ∀ c, claimed = some c → ∃ row ∈ w.record.tables.jobs, row.availableAt ≤ now ∧
      c = lease row workerId now leaseFor w.record.tables) :
    Keeps w ⟨(startJob s w.record claimed).1, now, tip⟩ ∧
      ∀ run ∈ (startJob s w.record claimed).2,
        SafeRun s run.tag Anywhere run.prog ⟨(startJob s w.record claimed).1, now, tip⟩ := by
  cases claimed with
  | none => exact ⟨keeps_of_clock baton clock, fun run none_ => absurd none_ List.not_mem_nil⟩
  | some c =>
    obtain ⟨row, member, ripe, rfl⟩ := due c rfl
    have rows := @goOn_lease noEnds now w.record.tables baton.unique row member ripe workerId
      leaseFor
    have keeps := @keeps_of_rows w baton now tip clock _ rows
    refine ⟨keeps, fun run started => ?_⟩
    rw [List.mem_singleton.1 started]
    refine safe_runClaimed ⟨keeps.onward.settled ?_, ?_, ?_⟩
    · by_contra unsettled
      rw [(baton.coupled unsettled).2] at member
      exact absurd member List.not_mem_nil
    · obtain ⟨row', member', same⟩ := keeps.onward.jobs row member
      exact ⟨row', member', same.id, same.key, same.kind, same.attempts⟩
    · intro seconds named
      rcases baton.due row member seconds named with past | waits
      · exact past.trans clock
      · exact waits.due.trans ripe

theorem worker_keeps (baton : Baton w) {now : Instant} {tip : Nat} (clock : w.clock ≤ now)
    (a : Arrival) :
    Keeps w ⟨(arriveRecord s now w.record a).1, now, tip⟩ ∧
      ∀ run ∈ (arriveRecord s now w.record a).2,
        SafeRun s run.tag Anywhere run.prog ⟨(arriveRecord s now w.record a).1, now, tip⟩ := by
  have noRuns : ∀ w', ∀ run ∈ ([] : List HandlerRun), SafeRun s run.tag Anywhere run.prog w' :=
    fun _ run none_ => absurd none_ List.not_mem_nil
  cases a with
  | claim workerId =>
    exact startJob_keeps baton clock fun c taken => claim_due taken
  | claimSpecific jobId generation workerId =>
    simp only [arriveRecord]
    split
    · next claimed taken =>
      have due : ∀ c, claimed = some c → ∃ row ∈ w.record.tables.jobs, row.availableAt ≤ now ∧
          c = lease row workerId now leaseFor w.record.tables := by
        rintro c rfl
        exact claimSpecific_due taken
      exact startJob_keeps baton clock due
    · exact ⟨keeps_of_clock baton clock, noRuns _⟩
  | heartbeat job leaseUntil =>
    exact ⟨keeps_of_rows baton clock (goOn_heartbeat _ _ _ _ _), noRuns _⟩
  | operatorReplay jobId =>
    simp only [arriveRecord]
    split
    · next target tables replayed =>
      refine ⟨keeps_of_rows baton clock (goOn_replay baton.unique replayed), fun run started => ?_⟩
      rw [List.mem_singleton.1 started]
      exact safe_dispatchCommand
    · exact ⟨keeps_of_clock baton clock, noRuns _⟩
  | recoverStale staleGrace limit =>
    simp only [arriveRecord]
    split
    · next targets tables recovered =>
      refine ⟨keeps_of_rows baton clock (goOn_recoverStale recovered), fun run started => ?_⟩
      obtain ⟨target, -, rfl⟩ := List.mem_map.1 started
      exact safe_dispatchCommand
    · exact ⟨keeps_of_clock baton clock, noRuns _⟩
  | operatorReverify requestId =>
    refine ⟨keeps_of_clock baton clock, fun run started => ?_⟩
    rw [List.mem_singleton.1 started]
    exact safe_operatorReverify
  | operatorUpgrade =>
    refine ⟨keeps_of_clock baton clock, fun run started => ?_⟩
    rw [List.mem_singleton.1 started]
    exact safe_operatorUpgrade
  | reconcile jobId generation =>
    refine ⟨keeps_of_clock baton clock, fun run started => ?_⟩
    rw [List.mem_singleton.1 started]
    exact safe_dispatchCommand
  | resendEvent event payload =>
    refine ⟨?_, noRuns _⟩
    simp only [arriveRecord]
    cases done : processEvent s.platform event payload now w.record with
    | error e => exact keeps_of_clock baton clock
    | ok result =>
      exact keeps_of_messages baton clock (processEvent_ok done) (processEvent_kinds done)
  | senderAccepted message acceptance =>
    refine ⟨?_, noRuns _⟩
    simp only [arriveRecord]
    cases done : recordAccepted s.platform message acceptance now w.record with
    | error e => exact keeps_of_clock baton clock
    | ok r' =>
      exact keeps_of_messages baton clock (recordAccepted_ok done) (recordAccepted_kinds done)

/-! ## Payments -/

/-- A payment that is confirmed queues the order with the first job. -/
theorem keeps_of_queued {w' : World} (baton : Baton w) (clock : w.clock ≤ w'.clock)
    (unsettled : ¬Settled w.record.order.paymentState)
    (paid : w'.record.order.paymentState = .paid)
    (queued : w'.record.order.fulfillmentState = .queued) {row : DurableJob}
    (rows : w'.record.tables.jobs = [row]) (available : row.state = .available)
    (kind : row.kind = .stampManifestDigest) (keyed : kindOf row.jobKey = .stampManifestDigest)
    (unpolled : pollSecond row.jobKey = none)
    (messages : ∀ m ∈ w.record.outbox, m ∈ w'.record.outbox)
    (noticed : ¬HasNotice w.record .initialConfirmation → ¬HasNotice w'.record .initialConfirmation)
    (events : ∀ e ∈ w'.record.stateEvents, e ∈ w.record.stateEvents ∨
      e.fulfillmentState = .queued) : Keeps w w' := by
  obtain ⟨waiting, idle⟩ := baton.coupled unsettled
  have before : stage w.record = 0 := by rw [stage, waiting]; rfl
  have after : stage w'.record = 1 := by rw [stage, queued]; rfl
  have only : ∀ other ∈ w'.record.tables.jobs, other = row := by
    intro other member
    rw [rows] at member
    exact List.mem_singleton.1 member
  have none_ : ¬HasNotice w'.record .initialConfirmation := by
    refine noticed fun notice => ?_
    obtain ⟨other, member, -⟩ := baton.noticed notice
    rw [idle] at member
    exact absurd member List.not_mem_nil
  have settled : Settled w'.record.order.paymentState := Or.inl paid
  have onward : Onward w w' := by
    refine ⟨clock, by omega, fun _ => settled, fun other member => ?_,
      fun m member => ⟨m, messages m member, rfl⟩⟩
    rw [idle] at member
    exact absurd member List.not_mem_nil
  refine ⟨?_, onward⟩
  constructor
  · exact fun unsettled' => absurd settled unsettled'
  · rw [rows]
    exact List.nodup_singleton _
  · intro other member
    rw [only other member, kind, keyed]
  · intro other member seconds named
    rw [only other member, unpolled] at named
    cases named
  · intro other member
    rw [only other member, available]
    trivial
  · intro _ _
    exact ⟨row, rows ▸ List.mem_singleton_self _, kind⟩
  · intro verified _
    rw [after] at verified
    omega
  · rintro ⟨other, member, own⟩
    rw [only other member, kind] at own
    cases own
  · exact fun notice => absurd notice none_
  · intro e member
    rcases events e member with old | new
    · have bound := baton.logged e old
      omega
    · rw [new, after]
      rfl

/-- A change of the payment alone. -/
theorem keeps_of_payment {w' : World} (baton : Baton w) (clock : w.clock ≤ w'.clock)
    (edge : PaymentEdge w.record.order.paymentState w'.record.order.paymentState)
    (fulfillment : w'.record.order.fulfillmentState = w.record.order.fulfillmentState)
    (tables : w'.record.tables = w.record.tables) (outbox : w'.record.outbox = w.record.outbox)
    (events : ∀ e ∈ w'.record.stateEvents, e ∈ w.record.stateEvents ∨
      e.fulfillmentState = w.record.order.fulfillmentState) : Keeps w w' := by
  have same : stage w'.record = stage w.record := congrArg FulfillmentState.rank fulfillment
  refine keeps_of_moves baton ⟨clock, goOn_of_jobs (by rw [tables]), ?_, ?_, same.ge,
    settled_edge edge, fun _ waiting => fulfillment.trans waiting, fun begun _ => same ▸ begun,
    fun verified _ => Or.inl (same ▸ verified), fun e member => ?_⟩
  · exact fun m member => ⟨m, outbox ▸ member, rfl⟩
  · rintro ⟨m, member, own⟩
    exact Or.inl ⟨m, outbox ▸ member, own⟩
  · refine (events e member).imp_right fun shown => ?_
    rw [shown, ← fulfillment]
    rfl

theorem applyToRecord_keeps (baton : Baton w) (event : ProviderEvent)
    (canonical : CanonicalCheckout) (now : Instant) (jobId messageId : Nat) (row : StripeEvent) :
    Keeps w { w with record :=
      recordStripeEvent (applyToRecord event canonical now jobId messageId w.record) row } := by
  cases applied : applyEvent w.record.order event canonical with
  | none =>
    have adopted : applyToRecord event canonical now jobId messageId w.record =
        { w.record with order := adoptIntent w.record.order canonical } := by
      simp only [applyToRecord, applied]
    obtain ⟨payment, fulfillment⟩ := adoptIntent_states w.record.order canonical
    rw [adopted]
    exact keeps_of_unmoved baton le_rfl ⟨payment, fulfillment, rfl, rfl⟩ rfl
  | some changed =>
    obtain ⟨target, -, moved⟩ := Option.bind_eq_some_iff.1 applied
    obtain ⟨change, -, edge⟩ := transitionPayment_some moved
    obtain ⟨payment, fulfillment⟩ := adoptIntent_states changed canonical
    replace payment : (adoptIntent changed canonical).paymentState = target :=
      payment.trans (congrArg Order.paymentState change)
    replace fulfillment : (adoptIntent changed canonical).fulfillmentState =
        w.record.order.fulfillmentState :=
      fulfillment.trans (by rw [change])
    by_cases paid : target = .paid
    · have unsettled : ¬Settled w.record.order.paymentState := by
        rw [paid] at edge
        revert edge
        cases w.record.order.paymentState <;> decide
      have idle := (baton.coupled unsettled).2
      have becomes := payment.trans paid
      have absent : ¬w.record.tables.jobs.any (fun job =>
          job.jobKey == { adoptIntent changed canonical with
            fulfillmentState := .queued }.fulfillmentKey) = true := by
        rw [idle]
        exact Bool.false_ne_true
      simp only [applyToRecord, applied, settleOrder, if_pos becomes, enqueueFulfillment,
        if_neg absent]
      refine @keeps_of_queued w _ baton le_rfl unsettled becomes rfl
        (newJob (stampSpec { adoptIntent changed canonical with
          fulfillmentState := .queued }) jobId now now) ?_ rfl rfl rfl rfl
        (fun m member => List.mem_append_left _ member) ?_ ?_
      · simp only [recordStripeEvent, insertJob, JobTables.addTaskDispatch, idle, List.nil_append]
      · rintro absent' ⟨m, member, own⟩
        rcases List.mem_append.1 member with old | new
        · exact absent' ⟨m, old, own⟩
        · rw [List.mem_singleton.1 new] at own
          cases own
      · intro e member
        refine (List.mem_append.1 member).imp_right fun new => ?_
        rw [List.mem_singleton.1 new]
        rfl
    · have unpaid : (adoptIntent changed canonical).paymentState ≠ .paid :=
        fun wrong => paid (payment.symm.trans wrong)
      simp only [applyToRecord, applied, settleOrder, if_neg unpaid]
      refine keeps_of_payment baton le_rfl (Or.inr (payment.symm ▸ edge)) fulfillment rfl rfl ?_
      intro e member
      refine (List.mem_append.1 member).imp_right fun new => ?_
      rw [List.mem_singleton.1 new]
      exact fulfillment

theorem payment_keeps (baton : Baton w) (settings : PaymentSettings) (env : PaymentEnv)
    (q : PaymentRequest) :
    Keeps w { w with record := (performPayment settings env q w.record).2 } := by
  have still : Keeps w { w with record := w.record } :=
    keeps_of_unmoved baton le_rfl (unmoved_refl _) rfl
  exact performPayment_of_events settings env q (fun r => Keeps w { w with record := r })
    still (fun _ => keeps_of_unmoved baton le_rfl ⟨rfl, rfl, rfl, rfl⟩ rfl)
    fun _ _ _ => applyToRecord_keeps baton _ _ _ _ _ _

theorem bindSession_keeps (baton : Baton w) {sessionId : String} {r : OrderRecord}
    (bound : bindSession sessionId w.record = .ok r) : Keeps w { w with record := r } := by
  rw [bindSession_ok bound]
  exact keeps_of_unmoved baton le_rfl ⟨rfl, rfl, rfl, rfl⟩ rfl

/-! ## Every run -/

theorem arrivals_safe (settings : PaymentSettings) :
    ArrivalsSafe (deliveryService s settings) handoverDiscipline (fun _ => Reaching Anywhere)
      ArrivesLater := by
  intro a w baton arrives
  have quiet : ∀ {w' : World}, Keeps w w' → handoverDiscipline.inv w' ∧
      handoverDiscipline.rely w w' ∧ ∀ run ∈ ([] : List HandlerRun),
        Safe (deliveryService s settings).perform handoverDiscipline run.tag (Reaching Anywhere)
          run.prog w' := fun keeps =>
    ⟨keeps.baton, keeps.onward, fun _ started => absurd started List.not_mem_nil⟩
  cases a with
  | sender arrival =>
    exact quiet (keeps_of_unmoved baton le_rfl ⟨rfl, rfl, rfl, send_kinds arrival⟩ rfl)
  | order arrival =>
    simp only [deliveryService, arriveDelivery]
    split
    · cases arrival with
      | worker arriving =>
        obtain ⟨keeps, runs⟩ := @worker_keeps s w baton arriving.now arriving.tip arrives
          arriving.arrival
        exact ⟨keeps.baton, keeps.onward, runs⟩
      | payment env q => exact quiet (payment_keeps baton settings env q)
      | bindSession sessionId =>
        simp only [arriveOrder]
        split
        · next bound => exact quiet (bindSession_keeps baton bound)
        · exact quiet (keeps_of_unmoved baton le_rfl (unmoved_refl _) rfl)
    · exact quiet (keeps_of_unmoved baton le_rfl (unmoved_refl _) rfl)

/-- An order as its checkout creates it holds the invariant: it has neither jobs nor notices. -/
theorem new_baton (new : NewOrder w.record)
    (logged : ∀ e ∈ w.record.stateEvents, e.fulfillmentState = .awaitingPayment) : Baton w := by
  have before : stage w.record = 0 := by
    rw [stage, new.fulfillment]
    rfl
  have noJobs : ∀ row, row ∉ w.record.tables.jobs := by
    intro row member
    rw [new.jobs] at member
    exact List.not_mem_nil member
  refine ⟨fun _ => ⟨new.fulfillment, new.jobs⟩, ?_, fun row member => absurd member (noJobs row),
    fun row member => absurd member (noJobs row), fun row member => absurd member (noJobs row),
    fun begun _ => ?_, fun verified _ => ?_, ?_, ?_, fun e member => ?_⟩
  · rw [new.jobs]
    exact List.nodup_nil
  · omega
  · omega
  · rintro ⟨row, member, -⟩
    exact absurd member (noJobs row)
  · rintro ⟨m, member, -⟩
    rw [new.messages] at member
    exact absurd member List.not_mem_nil
  · rw [logged e member]
    exact Nat.zero_le _

/-- The clock of a run is not turned back, and a job gets an identifier of its own. -/
def monotone : StepCondition Request Env DeliveryArrival (Option ClaimedJob) World :=
  ⟨handoverDiscipline.allowed, ArrivesLater⟩

/-- From the checkout on, whatever stops and whatever fails, every stage of the order has a job
that is not over or the notice that it was to send. -/
theorem baton_is_never_lost (settings : PaymentSettings) {w : World} (new : NewOrder w.record)
    (logged : ∀ e ∈ w.record.stateEvents, e.fulfillmentState = .awaitingPayment)
    (moves : List (Move Env DeliveryArrival))
    (meets : monotone.MeetsAll (deliveryService s settings) moves ⟨w, []⟩) :
    BatonHeld ((deliveryService s settings).run moves ⟨w, []⟩).world.record := by
  have start : Disciplined (deliveryService s settings) handoverDiscipline
      (fun _ => Reaching Anywhere) ⟨w, []⟩ :=
    ⟨new_baton new logged, fun _ none_ => absurd none_ List.not_mem_nil⟩
  have baton : Baton _ := (run_disciplined (arrivals_safe settings) start meets).inv
  exact baton.held

end

/-! ## From the checkout to the delivery -/

open DeliveryGuard (deliveringServices checkoutToDelivery created_new checkout_delivers)
open VerifiedOrders (sampleTime)

instance (tag : Option ClaimedJob) (env : Env) (q : Request) (w : World) :
    Decidable (monotone.request tag env q w) := 
    show Decidable (Ticks env q w) from inferInstance

instance : (a : DeliveryArrival) → (w : World) → Decidable (monotone.arrival a w)
  | .order (.worker arriving), w => inferInstanceAs (Decidable (w.clock ≤ arriving.now))
  | .order (.payment _ _), _ => .isTrue trivial
  | .order (.bindSession _), _ => .isTrue trivial
  | .sender _, _ => .isTrue trivial

theorem checkout_monotone :
    monotone.MeetsAll (deliveryService deliveringServices sampleSettings) checkoutToDelivery
      ⟨⟨createdRecord, sampleTime 0, 100⟩, []⟩ := by
  decide +kernel

theorem delivered_order_holds_the_baton :
    let r := ((deliveryService deliveringServices sampleSettings).run checkoutToDelivery
      ⟨⟨createdRecord, sampleTime 0, 100⟩, []⟩).world.record
    r.order.fulfillmentState = .delivered ∧ BatonHeld r :=
  ⟨checkout_delivers, baton_is_never_lost sampleSettings created_new
    (fun _ none_ => absurd none_ List.not_mem_nil) checkoutToDelivery checkout_monotone⟩

end BatonNeverLost
