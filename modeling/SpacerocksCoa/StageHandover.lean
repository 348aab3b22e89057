import SpacerocksCoa.BatonInvariant
import SpacerocksCoa.HandlerRequests

/-!
# Every stage of an order hands over to the next

The invariant of the handover along every run of the service: workers that stop between any two
transactions, tasks that cannot be created, retries, operators and senders in any order. A run
carries what it did so far (its job is known, its clock reading is past, its successor exists) to
the request that finishes the job, whatever the others do in between.
-/
namespace StageHandover
open OrderStates ProofRecords OrderRows JobClaims FulfillmentAdapters NotificationAdapters
open FulfillmentHandlers WorkerRuns PaymentWebhooks OrderStateMachine HandlerRequests
open JobSuccession BatonInvariant
open DeliveryGuard (DeliveryArrival SenderArrival deliveryService arriveDelivery NewOrder)
open TransactionalPrograms TransactionalPrograms.Prog

/-! ## What a request may meet and what it must carry -/

/-- A job is inserted under an identifier of its own. -/
def FreshJob (env : Env) : Request → World → Prop
  | .enqueueOnce _ _, w => ∀ row ∈ w.record.tables.jobs, row.id ≠ env.freshId
  | _, _ => True

instance (env : Env) (q : Request) (w : World) : Decidable (FreshJob env q w) :=
  match q with
  | .enqueueOnce _ _ =>
    inferInstanceAs (Decidable (∀ row ∈ w.record.tables.jobs, row.id ≠ env.freshId))
  | .getForFulfillment | .latest | .transitionFulfillmentOnce _ _ _ | .stampExactDigest _
  | .upgradeExactDigest _ _ | .verifyExactDigest _ _ | .append _ | .putVerifiedOnce _ _
  | .getVerified _ | .recordOnce _ _ _ | .latestObservation _ | .putOnce _ _ | .enqueue _ | .now
  | .dispatchDue _ _ | .createTask _ _ | .recordDispatched _ _ | .recordDispatchFailure _ _
  | .heartbeat _ _ | .retryAt _ | .finish _ _ _ _ _ => .isTrue trivial

/-- The clock does not go back. -/
def Ticks (env : Env) (q : Request) (w : World) : Prop := w.clock ≤ env.now ∧ FreshJob env q w

instance (env : Env) (q : Request) (w : World) : Decidable (Ticks env q w) :=
  instDecidableAnd

/-- What a run knows of its job: its row, and that its second is over if it is a poll. -/
structure Given (job : ClaimedJob) (w : World) : Prop where
  settled : Settled w.record.order.paymentState
  row : ∃ row ∈ w.record.tables.jobs, row.id = job.id ∧ row.jobKey = job.spec.jobKey ∧
    row.kind = job.spec.kind ∧ job.spec.maxAttempts ≤ row.maxAttempts
  due : ∀ seconds, pollSecond job.spec.jobKey = some seconds → seconds * second ≤ w.clock

theorem Given.later {job : ClaimedJob} {w w' : World} (given : Given job w)
    (onward : Onward w w') : Given job w' := by
  obtain ⟨row, member, id, key, kind, attempts⟩ := given.row
  obtain ⟨row', member', same⟩ := onward.jobs row member
  exact ⟨onward.settled given.settled, ⟨row', member', same.id.trans id, same.key.trans key,
    same.kind.trans kind, attempts.trans same.attempts⟩,
    fun seconds named => (given.due seconds named).trans onward.clock⟩

theorem Given.hasJob {job : ClaimedJob} {w : World} (given : Given job w) :
    HasJob w.record job.spec.kind := by
  obtain ⟨row, member, -, -, kind, -⟩ := given.row
  exact ⟨row, member, kind⟩

/-- What has to be so before a job is finished with the outcome. -/
def Concluded (w : World) (job : ClaimedJob) : JobOutcome → Prop
  | .complete => HandedOn w.record job.spec.jobKey job.spec.kind
  | .retry => job.attempt < job.spec.maxAttempts
  | .manualReview => stage w.record = 6
  | .deadLetter => stage w.record = 6

def Justified (w : World) : Request → Prop
  | .transitionFulfillmentOnce target _ _ => Settled w.record.order.paymentState ∧
    target ≠ .queued ∧ (4 ≤ target.rank → target.rank ≤ 5 → HasJob w.record .upgradeTimestamp)
  | .enqueueOnce spec availableAt => Settled w.record.order.paymentState ∧
    spec.kind = kindOf spec.jobKey ∧
    (∀ seconds, pollSecond spec.jobKey = some seconds → seconds * second ≤ availableAt) ∧
    (spec.kind = .deliverTimestamp → 4 ≤ stage w.record)
  | .finish job outcome _ _ _ => Given job w ∧ Concluded w job outcome
  | .enqueue message =>
    message.template = .initialConfirmation → HasJob w.record .deliverTimestamp
  | _ => True

def handoverDiscipline : Discipline Request Env (Option ClaimedJob) World where
  inv := Baton
  rely := Onward
  rely_refl := onward_refl
  rely_trans := Onward.trans
  allowed _ env q w := Ticks env q w

/-! ## One request -/

section
variable {s : Services} {env : Env} {w : World}

theorem merge_unmoved {r : OrderRecord} {order : Order} {time : Option Instant}
    (merged : mergeCalendarTime r.order time = .ok order) :
    order.paymentState = r.order.paymentState ∧
      order.fulfillmentState = r.order.fulfillmentState := by
  rw [(mergeCalendarTime_ok merged).1]
  exact ⟨rfl, rfl⟩

theorem append_unmoved (proof : StoredProof Instant) (r : OrderRecord) :
    Unmoved r (commitUnit r (FulfillmentAdapters.append proof r)).2 ∧
      (commitUnit r (FulfillmentAdapters.append proof r)).2.tables = r.tables := by
  refine commitUnit_rule (fun r' => Unmoved r r' ∧ r'.tables = r.tables) ⟨unmoved_refl r, rfl⟩
    fun r' done => ?_
  obtain ⟨order, merge, -, cases'⟩ := append_ok done
  obtain ⟨payment, fulfillment⟩ := merge_unmoved merge
  rcases cases' with ⟨rfl, -⟩ | ⟨rfl, -⟩
  · exact ⟨⟨payment, fulfillment, rfl, rfl⟩, rfl⟩
  · exact ⟨⟨payment, fulfillment, rfl, rfl⟩, rfl⟩

theorem putVerifiedOnce_unmoved (version : Nat) (result : BitcoinVerification Instant)
    (r : OrderRecord) : Unmoved r (commitUnit r (putVerifiedOnce version result r)).2 ∧
      (commitUnit r (putVerifiedOnce version result r)).2.tables = r.tables := by
  refine commitUnit_rule (fun r' => Unmoved r r' ∧ r'.tables = r.tables) ⟨unmoved_refl r, rfl⟩
    fun r' done => ?_
  obtain ⟨_, _, -, -, -, -, ⟨rfl, -⟩ | ⟨-, rfl⟩⟩ := putVerifiedOnce_ok done
  · exact ⟨unmoved_refl _, rfl⟩
  · exact ⟨⟨rfl, rfl, rfl, rfl⟩, rfl⟩

theorem putOnce_unmoved (version : Nat) (bundle : Bytes) (r : OrderRecord) :
    Unmoved r (commitUnit r (putOnce s.platform version bundle r)).2 ∧
      (commitUnit r (putOnce s.platform version bundle r)).2.tables = r.tables := by
  refine commitUnit_rule (fun r' => Unmoved r r' ∧ r'.tables = r.tables) ⟨unmoved_refl r, rfl⟩
    fun r' done => ?_
  obtain ⟨-, ⟨rfl, -⟩ | ⟨-, rfl⟩⟩ := putOnce_ok done
  · exact ⟨unmoved_refl _, rfl⟩
  · exact ⟨⟨rfl, rfl, rfl, rfl⟩, rfl⟩

theorem recordOnce_unmoved (version : Nat) (key : ObservationKey)
    (verification : BitcoinVerification Instant) (now : Instant) (freshId : Nat)
    (r : OrderRecord) :
    Unmoved r (commit r (recordOnce version key verification now freshId r)).2 ∧
      (commit r (recordOnce version key verification now freshId r)).2.tables = r.tables := by
  refine commit_rule (fun r' => Unmoved r r' ∧ r'.tables = r.tables) ⟨unmoved_refl r, rfl⟩
    fun o r' done => ?_
  obtain ⟨_, _, _, -, -, -, -, -, ⟨rfl, -⟩ | ⟨-, -, -, rfl⟩⟩ := recordOnce_ok done
  · exact ⟨unmoved_refl _, rfl⟩
  · exact ⟨⟨rfl, rfl, rfl, rfl⟩, rfl⟩

/-- A transition along an edge towards a state that its run may name. -/
theorem keeps_of_edge {w' : World} (baton : Baton w) (clock : w.clock ≤ w'.clock)
    {target : FulfillmentState} (edge : FulfillmentEdge w.record.order.fulfillmentState target)
    (settled : Settled w.record.order.paymentState) (named : target ≠ .queued)
    (upgrade : 4 ≤ target.rank → target.rank ≤ 5 → HasJob w.record .upgradeTimestamp)
    (payment : w'.record.order.paymentState = w.record.order.paymentState)
    (fulfillment : w'.record.order.fulfillmentState = target)
    (events : ∀ e ∈ w'.record.stateEvents, e ∈ w.record.stateEvents ∨ e.fulfillmentState = target)
    (kinds : w'.record.outbox.map OutboxRecord.kind = w.record.outbox.map OutboxRecord.kind)
    (tables : w'.record.tables = w.record.tables) : Keeps w w' := by
  have reached : stage w'.record = target.rank := by rw [stage, fulfillment]
  refine keeps_of_moves baton ⟨clock, goOn_of_jobs (by rw [tables]),
    fun m member => mem_of_kinds kinds member, fun notice => Or.inl (notice_of_kinds kinds notice),
    reached ▸ rank_le_of_edge edge, fun before => payment ▸ before, fun unsettled _ => ?_,
    ?_, ?_, ?_⟩
  · exact absurd (payment ▸ settled) unsettled
  · intro begun alive
    rw [reached] at begun alive
    unfold stage
    revert edge
    cases before : w.record.order.fulfillmentState with
    | awaitingPayment =>
      intro edge
      cases target with
      | queued => exact absurd rfl named
      | awaitingPayment => exact absurd begun (by decide)
      | manualReview => exact absurd alive (by decide)
      | stamping | calendarPending | bitcoinVerified | delivered =>
        exact absurd edge (by decide)
    | queued | stamping | calendarPending | bitcoinVerified | delivered | manualReview =>
      exact fun _ => by decide
  · intro verified alive
    rw [reached] at verified alive
    exact Or.inr (upgrade verified alive)
  · intro e member
    rw [reached]
    exact (events e member).imp_right fun same => by rw [same]

theorem transition_keeps {target : FulfillmentState} {key : EventKey} {time : Option Instant}
    (baton : Baton w) (clock : w.clock ≤ env.now)
    (justified : Justified w (.transitionFulfillmentOnce target key time)) :
    Keeps w (perform s env (.transitionFulfillmentOnce target key time) w).2 := by
  simp only [perform, answer]
  cases done : transitionFulfillmentOnce s.platform target key time env.now w.record with
  | error e => exact keeps_of_unmoved baton clock (unmoved_refl _) rfl
  | ok result =>
    obtain ⟨value, r'⟩ := result
    obtain ⟨-, merged, merge, cases'⟩ := transitionFulfillmentOnce_ok done
    obtain ⟨payment, fulfillment⟩ := merge_unmoved merge
    rcases cases' with ⟨rfl, -⟩ | ⟨-, edge, -, -, rfl, -⟩
    · exact keeps_of_unmoved baton clock ⟨payment, fulfillment, rfl, rfl⟩ rfl
    · refine keeps_of_edge baton clock edge justified.1 justified.2.1 justified.2.2 payment rfl ?_
        rfl rfl
      intro e member
      refine (List.mem_append.1 member).imp_right fun new => ?_
      rw [List.mem_singleton.1 new]
      rfl

/-- After a transition that succeeds the order is at its target or past it. -/
theorem transition_reaches {target : FulfillmentState} {key : EventKey} {time : Option Instant}
    {r r' : OrderRecord} {now : Instant} {result : FulfillmentOrder}
    (logged : ∀ e ∈ r.stateEvents, e.fulfillmentState.rank ≤ stage r)
    (done : transitionFulfillmentOnce s.platform target key time now r = .ok (result, r')) :
    target.rank ≤ stage r' := by
  obtain ⟨-, merged, merge, ⟨rfl, event, found, same⟩ | ⟨-, -, -, -, rfl, -⟩⟩ :=
    transitionFulfillmentOnce_ok done
  · have before := logged event (List.mem_of_find?_eq_some found)
    rw [same] at before
    rw [stage, (merge_unmoved merge).2]
    exact before
  · exact le_rfl

/-- A message that is enqueued is there. -/
theorem enqueue_notice {message : OutboxMessage} {now : Instant} {freshId : Nat}
    {r r' : OrderRecord} (done : enqueue message now freshId r = .ok r') :
    HasNotice r' message.template := by
  unfold enqueue at done
  split at done
  · cases done
  · iterate 4 (split at done; · cases done)
    split at done
    · cases done
    · split at done
      · next existing found =>
        split at done
        · next same =>
          cases done
          refine ⟨existing, List.mem_of_find?_eq_some found, ?_⟩
          simp only [sameMessage, Bool.and_eq_true, beq_iff_eq] at same
          exact same.1.1.1.1.1
        · cases done
      · split at done
        · cases done
        · cases done
          exact ⟨_, List.mem_append_right _ (List.mem_singleton_self _), rfl⟩

theorem enqueue_keeps {message : OutboxMessage} (baton : Baton w) (clock : w.clock ≤ env.now)
    (justified : Justified w (.enqueue message)) :
    Keeps w (perform s env (.enqueue message) w).2 := by
  simp only [perform, answer]
  cases done : enqueue message env.now env.freshId w.record with
  | error e => exact keeps_of_unmoved baton clock (unmoved_refl _) rfl
  | ok r' =>
    obtain ⟨observation, -, rfl | rfl⟩ := enqueue_ok done
    · exact keeps_of_unmoved baton clock (unmoved_refl _) rfl
    · refine keeps_of_moves baton ⟨clock, goOn_refl _, fun m member =>
        ⟨m, List.mem_append_left _ member, rfl⟩, ?_, le_rfl, id, fun _ waiting => waiting,
        fun begun _ => begun, fun verified _ => Or.inl verified, fun e member => Or.inl member⟩
      rintro ⟨m, member, own⟩
      rcases List.mem_append.1 member with old | new
      · exact Or.inl ⟨m, old, own⟩
      · rw [List.mem_singleton.1 new] at own
        exact Or.inr (justified (OutboxKind.notification.inj own))

theorem enqueueOnce_keeps {spec : JobSpec} {availableAt : Instant} (baton : Baton w)
    (ticks : Ticks env (.enqueueOnce spec availableAt) w)
    (justified : Justified w (.enqueueOnce spec availableAt)) :
    Keeps w (perform s env (.enqueueOnce spec availableAt) w).2 := by
  obtain ⟨settled, kind, due, delivering⟩ := justified
  rcases enqueueOnce_rows ticks.2 with
    ⟨same, -⟩ | added
  · refine keeps_of_unmoved baton ticks.1 ⟨rfl, rfl, rfl, rfl⟩ ?_
    simp only [perform, answer]
    exact same
  · exact keeps_of_insert baton ticks.1 ⟨rfl, rfl, rfl, rfl⟩ settled added ticks.2
      ⟨rfl, rfl, kind, due, delivering⟩

/-- After an enqueueing there is a row under the key. -/
theorem enqueueOnce_named {spec : JobSpec} {availableAt : Instant}
    (fresh : ∀ row ∈ w.record.tables.jobs, row.id ≠ env.freshId) :
    ∃ row ∈ (perform s env (.enqueueOnce spec availableAt) w).2.record.tables.jobs,
      row.jobKey = spec.jobKey := by
  simp only [perform, answer]
  rcases enqueueOnce_rows fresh with
    ⟨same, known⟩ | added
  · rw [same]
    exact known
  · rw [added]
    exact ⟨_, List.mem_append_right _ (List.mem_singleton_self _), rfl⟩

theorem finalOutcome_of_ne {row : DurableJob} {outcome : JobOutcome} (other : outcome ≠ .retry) :
    finalOutcome row outcome = outcome := if_neg fun both => other both.1

/-- A row that is finished has left what its end calls for. -/
theorem concluded_left {job : ClaimedJob} {outcome : JobOutcome} (baton : Baton w)
    (given : Given job w) (concluded : Concluded w job outcome) {row : DurableJob}
    (member : row ∈ w.record.tables.jobs) {state : JobState}
    (ends : finishes job outcome row state) : Left w.record row.jobKey row.kind state := by
  obtain ⟨own, attempt, rfl⟩ := ends
  obtain ⟨stored, listed, id, key, kind, attempts⟩ := given.row
  have same : row = stored :=
    List.inj_on_of_nodup_map baton.unique member listed (own.trans id.symm)
  cases outcome with
  | complete =>
    rw [finalOutcome_of_ne (by decide), same, key, kind]
    exact concluded
  | manualReview =>
    rw [finalOutcome_of_ne (by decide)]
    exact concluded
  | deadLetter =>
    rw [finalOutcome_of_ne (by decide)]
    exact concluded
  | retry =>
    have final : finalOutcome row .retry = .retry := by
      refine if_neg fun both => ?_
      have enough := both.2
      have early : job.attempt < job.spec.maxAttempts := concluded
      rw [attempt, same] at enough
      omega
    rw [final]
    trivial

theorem finish_keeps {job : ClaimedJob} {outcome : JobOutcome} {now : Instant}
    {retryAt : Option Instant} {code : Option String} (baton : Baton w)
    (clock : w.clock ≤ env.now) (justified : Justified w (.finish job outcome now retryAt code)) :
    Keeps w (perform s env (.finish job outcome now retryAt code) w).2 := by
  simp only [perform, answer]
  cases filed : finish job outcome now retryAt code w.record.tables with
  | error e => exact keeps_of_unmoved baton clock (unmoved_refl _) rfl
  | ok result =>
    obtain ⟨target, tables⟩ := result
    have moves : Moves (finishes job outcome) w
        ⟨{ w.record with tables := tables }, env.now, env.tip⟩ :=
      moves_of_unmoved clock ⟨rfl, rfl, rfl, rfl⟩ (goOn_finish baton.unique filed)
    exact ⟨moves.baton baton fun row member state ends =>
      concluded_left baton justified.1 justified.2 member ends, moves.onward⟩

/-- One request of a run. -/
theorem perform_keeps {q : Request} (baton : Baton w) (ticks : Ticks env q w)
    (justified : Justified w q) : Keeps w (perform s env q w).2 := by
  have tables : ∀ t, GoOn noEnds env.now w.record.tables t →
      Keeps w ⟨{ w.record with tables := t }, env.now, env.tip⟩ := fun t rows =>
    keeps_of_moves baton (moves_of_unmoved ticks.1 ⟨rfl, rfl, rfl, rfl⟩ rows)
  cases q with
  | transitionFulfillmentOnce target key time => exact transition_keeps baton ticks.1 justified
  | enqueue message => exact enqueue_keeps baton ticks.1 justified
  | enqueueOnce spec availableAt => exact enqueueOnce_keeps baton ticks justified
  | finish job outcome now retryAt code => exact finish_keeps baton ticks.1 justified
  | append proof =>
    exact keeps_of_unmoved baton ticks.1 (append_unmoved _ _).1 (append_unmoved _ _).2
  | putVerifiedOnce version result =>
    exact keeps_of_unmoved baton ticks.1 (putVerifiedOnce_unmoved _ _ _).1
      (putVerifiedOnce_unmoved _ _ _).2
  | recordOnce version key verification =>
    exact keeps_of_unmoved baton ticks.1 (recordOnce_unmoved _ _ _ _ _ _).1
      (recordOnce_unmoved _ _ _ _ _ _).2
  | putOnce version bundle =>
    exact keeps_of_unmoved baton ticks.1 (putOnce_unmoved _ _ _).1 (putOnce_unmoved _ _ _).2
  | recordDispatched jobId generation => exact tables _ (goOn_recordDispatched _ _ _ _)
  | recordDispatchFailure jobId generation => exact tables _ (goOn_recordDispatchFailure _ _ _)
  | heartbeat job leaseUntil => exact tables _ (goOn_heartbeat _ _ _ _ _)
  | getForFulfillment | latest | stampExactDigest | upgradeExactDigest | verifyExactDigest
  | getVerified | latestObservation | now | dispatchDue | createTask | retryAt =>
    exact keeps_of_unmoved baton ticks.1 (unmoved_refl _) rfl

end

end StageHandover
