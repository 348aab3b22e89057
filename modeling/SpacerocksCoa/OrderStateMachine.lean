import SpacerocksCoa.VerifiedOrders
import SpacerocksCoa.PaymentWebhooks

/-!
# The payment and fulfillment state of an order over whole runs

Every writer of the two states in one service: the requests of the job handlers, the
transactions of the Stripe webhook with any arguments, the binding of a checkout session,
and the Resend events. Two of the writers assign the columns without the transition
functions. What makes them legal is one coupling: until money was confirmed, the order
waits for payment and has no job.

The database trigger is not used here; the result holds with and without it.
-/
namespace OrderStateMachine
open OrderStates ProofRecords OrderRows JobClaims FulfillmentAdapters NotificationAdapters
open FulfillmentHandlers WorkerRuns PaymentWebhooks
open TransactionalPrograms TransactionalPrograms.Prog

inductive OrderArrival where
  | worker (arriving : Arriving)
  | payment (env : PaymentEnv) (q : PaymentRequest)
  | bindSession (sessionId : String)

def arriveOrder (s : Services) (settings : PaymentSettings) (w : World) :
    OrderArrival → World × List HandlerRun
  | .worker arriving => (workerService s).arrive arriving w
  | .payment env q => ({ w with record := (performPayment settings env q w.record).2 }, [])
  | .bindSession sessionId =>
    match bindSession sessionId w.record with
    | .ok r => ({ w with record := r }, [])
    | .error _ => (w, [])

def orderService (s : Services) (settings : PaymentSettings) :
    Service Request Reply Failure RunEnd (Option ClaimedJob) World Env OrderArrival where
  perform := perform s
  arrive a w := arriveOrder s settings w a

abbrev OrderConfig := Config Request Reply Failure RunEnd (Option ClaimedJob) World

/-- Both states are left alone or move along one edge of their tables. -/
structure Edges (before after : Order) : Prop where
  payment : PaymentEdge before.paymentState after.paymentState
  fulfillment : FulfillmentEdge before.fulfillmentState after.fulfillmentState

/-- Before money was confirmed nothing of the fulfillment has begun. -/
def Coupled (r : OrderRecord) : Prop :=
  ¬Settled r.order.paymentState →
    r.order.fulfillmentState = .awaitingPayment ∧ r.tables.jobs = []

lemma edges_of_same {before after : Order} (payment : after.paymentState = before.paymentState)
    (fulfillment : after.fulfillmentState = before.fulfillmentState) : Edges before after :=
  ⟨Or.inl payment, Or.inl fulfillment⟩

/-! ## The fulfillment side never moves the payment -/

/-- What requests of handlers and arrivals of the worker do to the order row. -/
structure FulfillmentMove (before after : Order) : Prop where
  payment : after.paymentState = before.paymentState
  fulfillment : FulfillmentEdge before.fulfillmentState after.fulfillmentState

lemma fulfillmentMove_refl (order : Order) : FulfillmentMove order order :=
  ⟨rfl, Or.inl rfl⟩

lemma FulfillmentMove.edges {before after : Order} (move : FulfillmentMove before after) :
    Edges before after :=
  ⟨Or.inl move.payment, move.fulfillment⟩

lemma merge_move {order order' : Order} {time : Option Instant}
    (h : mergeCalendarTime order time = .ok order') : FulfillmentMove order order' := by
  rw [(mergeCalendarTime_ok h).1]
  exact ⟨rfl, Or.inl rfl⟩

lemma transition_move (p : Platform) (target : FulfillmentState) (key : EventKey)
    (time : Option Instant) (now : Instant) (r : OrderRecord) :
    FulfillmentMove r.order
      (commit r (transitionFulfillmentOnce p target key time now r)).2.order := by
  cases done : transitionFulfillmentOnce p target key time now r with
  | error e => exact fulfillmentMove_refl _
  | ok result =>
    obtain ⟨value, r'⟩ := result
    obtain ⟨-, merged, merge, cases'⟩ := transitionFulfillmentOnce_ok done
    rcases cases' with ⟨rfl, -⟩ | ⟨-, edge, -, -, rfl, -⟩
    · exact merge_move merge
    · exact ⟨(merge_move merge).payment, edge⟩

lemma append_move (proof : StoredProof Instant) (r : OrderRecord) :
    FulfillmentMove r.order (commitUnit r (FulfillmentAdapters.append proof r)).2.order := by
  cases done : FulfillmentAdapters.append proof r with
  | error e => exact fulfillmentMove_refl _
  | ok r' =>
    obtain ⟨order, merge, -, ⟨rfl, -⟩ | ⟨rfl, -⟩⟩ := append_ok done
    · exact merge_move merge
    · exact merge_move merge

lemma putVerifiedOnce_order (version : Nat) (result : BitcoinVerification Instant)
    (r : OrderRecord) : (commitUnit r (putVerifiedOnce version result r)).2.order = r.order := by
  cases done : putVerifiedOnce version result r with
  | error e => rfl
  | ok r' =>
    obtain ⟨_, _, -, -, -, -, ⟨rfl, -⟩ | ⟨-, rfl⟩⟩ := putVerifiedOnce_ok done <;> rfl

lemma putOnce_order (p : Platform) (version : Nat) (bundle : Bytes) (r : OrderRecord) :
    (commitUnit r (putOnce p version bundle r)).2.order = r.order := by
  cases done : putOnce p version bundle r with
  | error e => rfl
  | ok r' => obtain ⟨-, ⟨rfl, -⟩ | ⟨-, rfl⟩⟩ := putOnce_ok done <;> rfl

lemma recordOnce_order (version : Nat) (key : ObservationKey)
    (verification : BitcoinVerification Instant) (now : Instant) (freshId : Nat)
    (r : OrderRecord) :
    (commit r (recordOnce version key verification now freshId r)).2.order = r.order := by
  cases done : recordOnce version key verification now freshId r with
  | error e => rfl
  | ok result =>
    obtain ⟨_, _, _, -, -, -, -, -, ⟨same, -⟩ | ⟨-, -, -, added⟩⟩ := recordOnce_ok done
    · exact congrArg OrderRecord.order same
    · rw [commit, added]

lemma enqueue_order (message : OutboxMessage) (now : Instant) (freshId : Nat) (r : OrderRecord) :
    (commitUnit r (enqueue message now freshId r)).2.order = r.order := by
  cases done : enqueue message now freshId r with
  | error e => rfl
  | ok r' =>
    obtain ⟨_, -, same | added⟩ := enqueue_ok done
    · exact congrArg OrderRecord.order same
    · rw [commitUnit, added]

lemma move_of_order {before after : Order} (same : after = before) :
    FulfillmentMove before after := same ▸ fulfillmentMove_refl _

/-- One request of a handler. -/
lemma answer_move (s : Services) (env : Env) (q : Request) (r : OrderRecord) :
    FulfillmentMove r.order (answer s env q r).2.order := by
  cases q with
  | transitionFulfillmentOnce target key time => exact transition_move _ _ _ _ _ _
  | append proof => exact append_move _ _
  | putVerifiedOnce version result => exact move_of_order (putVerifiedOnce_order _ _ _)
  | recordOnce version key verification => exact move_of_order (recordOnce_order _ _ _ _ _ _)
  | putOnce version bundle => exact move_of_order (putOnce_order _ _ _ _)
  | enqueue message => exact move_of_order (enqueue_order _ _ _ _)
  | finish job outcome now retryAt code =>
    simp only [answer]
    split <;> exact fulfillmentMove_refl _
  | enqueueOnce | recordDispatched | recordDispatchFailure | heartbeat | getForFulfillment
  | latest | stampExactDigest | upgradeExactDigest | verifyExactDigest | getVerified
  | latestObservation | now | dispatchDue | createTask | retryAt => exact fulfillmentMove_refl _

/-- An arrival moreover never moves an order that waits. -/
structure ArrivalMove (before after : Order) : Prop extends FulfillmentMove before after where
  waiting : before.fulfillmentState = .awaitingPayment → after.fulfillmentState = .awaitingPayment

lemma arrivalMove_of_order {before after : Order} (same : after = before) :
    ArrivalMove before after := same ▸ ⟨fulfillmentMove_refl _, id⟩

lemma messages_move {p : Platform} {r r' : OrderRecord}
    (changed : OnlyMessages r r' ∨ Delivers p r r') :
    ArrivalMove r.order r'.order ∧ r'.tables = r.tables := by
  rcases changed with messages | ⟨verified, -, _, _, moved⟩
  · unfold OnlyMessages at messages
    rw [messages]
    exact ⟨arrivalMove_of_order rfl, rfl⟩
  · rw [moved]
    refine ⟨⟨⟨rfl, Or.inr ?_⟩, fun waiting => ?_⟩, rfl⟩
    · rw [verified]
      change FulfillmentState.delivered ∈ fulfillmentTransitions .bitcoinVerified
      decide
    · rw [verified] at waiting
      cases waiting

lemma startJob_order (s : Services) (r : OrderRecord) (claimed : Option (ClaimedJob × JobTables)) :
    (startJob s r claimed).1.order = r.order := by
  cases claimed <;> rfl

/-- One arrival of the worker. -/
lemma arrive_move (s : Services) (now : Instant) (r : OrderRecord) (a : Arrival) :
    ArrivalMove r.order (arriveRecord s now r a).1.order := by
  cases a with
  | claim workerId => exact arrivalMove_of_order (startJob_order _ _ _)
  | claimSpecific jobId generation workerId =>
    simp only [arriveRecord]
    split
    · exact arrivalMove_of_order (startJob_order _ _ _)
    · exact arrivalMove_of_order rfl
  | operatorReplay jobId =>
    simp only [arriveRecord]
    split <;> exact arrivalMove_of_order rfl
  | recoverStale staleGrace limit =>
    simp only [arriveRecord]
    split <;> exact arrivalMove_of_order rfl
  | resendEvent event payload =>
    simp only [arriveRecord]
    cases done : processEvent s.platform event payload now r with
    | error e => exact arrivalMove_of_order rfl
    | ok result => exact (messages_move (processEvent_ok done)).1
  | senderAccepted message acceptance =>
    simp only [arriveRecord]
    cases done : recordAccepted s.platform message acceptance now r with
    | error e => exact arrivalMove_of_order rfl
    | ok r' => exact (messages_move (recordAccepted_ok done)).1
  | heartbeat | operatorReverify | operatorUpgrade | reconcile => exact arrivalMove_of_order rfl

/-! ## Nothing begins before money was confirmed -/

lemma arrive_no_jobs (s : Services) (now : Instant) {r : OrderRecord} (a : Arrival)
    (idle : r.tables.jobs = []) : (arriveRecord s now r a).1.tables.jobs = [] := by
  cases a with
  | claim workerId => simp [arriveRecord, claim, idle, startJob]
  | claimSpecific jobId generation workerId =>
    have refused : ∃ e, claimSpecific jobId generation workerId now leaseFor r.tables =
        .error e := by
      unfold claimSpecific
      split
      · exact ⟨_, rfl⟩
      · simp [JobTables.job, idle]
    obtain ⟨e, refused⟩ := refused
    simpa only [arriveRecord, refused] using idle
  | heartbeat job leaseUntil => simp [arriveRecord, JobClaims.heartbeat, JobTables.job, idle]
  | operatorReplay jobId => simp [arriveRecord, replay, JobTables.job, idle]
  | recoverStale staleGrace limit =>
    simp only [arriveRecord]
    split
    · next targets tables recovered =>
      unfold recoverStaleDispatched at recovered
      split at recovered
      · cases recovered
      · split at recovered
        · cases recovered
        · simp only [idle, List.filter_nil, List.mergeSort_nil, List.take_nil,
            List.foldl_nil] at recovered
          cases recovered
          exact idle
    · exact idle
  | resendEvent event payload =>
    simp only [arriveRecord]
    cases done : processEvent s.platform event payload now r with
    | error e => exact idle
    | ok result => exact (congrArg JobTables.jobs (messages_move (processEvent_ok done)).2).trans idle
  | senderAccepted message acceptance =>
    simp only [arriveRecord]
    cases done : recordAccepted s.platform message acceptance now r with
    | error e => exact idle
    | ok r' => exact (congrArg JobTables.jobs (messages_move (recordAccepted_ok done)).2).trans idle
  | operatorReverify | operatorUpgrade | reconcile => exact idle

/-- Confirmed money stays confirmed, and until then a run must leave the order alone. -/
def stateDiscipline : Discipline Request Env (Option ClaimedJob) World where
  inv w := Coupled w.record
  rely w w' := Settled w.record.order.paymentState → Settled w'.record.order.paymentState
  rely_refl _ settled := settled
  rely_trans first second settled := second (first settled)
  allowed _ _ _ _ := True

section
variable {s : Services} {tag : Option ClaimedJob} {α : Type}

abbrev SafeRun (s : Services) (tag : Option ClaimedJob) (p : Handler α) (w : World) : Prop :=
  Safe (perform s) stateDiscipline tag (fun _ _ => True) p w

/-- Once money was confirmed there is nothing left to respect. -/
lemma safe_of_settled (p : Handler α) {w : World}
    (settled : Settled w.record.order.paymentState) : SafeRun s tag p w := by
  induction p generalizing w with
  | done a => exact fun _ _ _ => trivial
  | fail e => exact fun _ _ _ => trivial
  | ask q k ih =>
    intro w' later inv env _
    have after : Settled (perform s env q w').2.record.order.paymentState := by
      simpa only [perform, (answer_move s env q w'.record).payment] using later settled
    exact ⟨fun unsettled => absurd after unsettled, fun _ => after, ih _ after⟩

lemma safe_ask {q : Request} {k : Reply q → Handler α} {w : World}
    (order : ∀ env r, (answer s env q r).2.order = r.order)
    (jobs : ∀ env r, (answer s env q r).2.tables.jobs = r.tables.jobs)
    (next : ∀ reply w', SafeRun s tag (k reply) w') : SafeRun s tag (ask q k) w := by
  intro w' later inv env _
  refine ⟨fun unsettled => ?_, fun settled => ?_, next _ _⟩
  · simp only [perform, order, jobs] at unsettled ⊢
    exact inv unsettled
  · simpa only [perform, order] using settled

lemma recordDispatched_jobs (jobId generation : Nat) (now : Instant) (t : JobTables) :
    (recordDispatched jobId generation now t).2.jobs = t.jobs := by
  unfold recordDispatched
  split <;> rfl

lemma recordDispatchFailure_jobs (jobId generation : Nat) (t : JobTables) :
    (recordDispatchFailure jobId generation t).jobs = t.jobs := by
  unfold recordDispatchFailure
  split <;> rfl

/-- Creating a task touches dispatches only. -/
lemma safe_dispatchCommand (target : Option (Nat × Nat)) (w : World) :
    SafeRun s tag (dispatchCommand s target) w := by
  unfold dispatchCommand dispatchIf
  split
  · refine safe_ask (fun _ _ => rfl) (fun _ _ => rfl) fun due w' => ?_
    cases due with
    | false => exact fun _ _ _ => trivial
    | true =>
      refine safe_ask (fun _ _ => rfl) (fun _ _ => rfl) fun created w' => ?_
      cases created with
      | false =>
        exact safe_ask (fun _ _ => rfl) (fun _ r => recordDispatchFailure_jobs _ _ r.tables)
          fun _ _ _ _ _ => trivial
      | true =>
        exact safe_ask (fun _ _ => rfl) (fun env r => recordDispatched_jobs _ _ env.now r.tables)
          fun _ _ _ _ _ => trivial
  · exact fun _ _ _ => trivial

/-- An operator command that wants a later state fails on an order that was never paid. -/
lemma safe_enqueueProofJob {orderId : Nat} {allowed : List FulfillmentState}
    {jobKey : Nat → JobKey} (later : .awaitingPayment ∉ allowed) (w : World) :
    SafeRun s tag (enqueueProofJob s orderId allowed jobKey) w := by
  intro w' _ inv env _
  refine ⟨inv, id, ?_⟩
  by_cases settled : Settled w'.record.order.paymentState
  · exact safe_of_settled _ settled
  · have waiting : (fulfillmentOrder w'.record.order).state.fulfillment = .awaitingPayment :=
      (inv settled).1
    change SafeRun s tag (if (fulfillmentOrder w'.record.order).state.fulfillment ∉ allowed
      then _ else _) _
    rw [waiting, if_pos later]
    exact fun _ _ _ => trivial

lemma safe_operatorReverify {orderId : Nat} {requestId : String} (w : World) :
    SafeRun s tag (operatorReverify s orderId requestId) w := by
  unfold operatorReverify
  exact safe_enqueueProofJob (by decide) w

lemma safe_operatorUpgrade {orderId : Nat} (w : World) :
    SafeRun s tag (operatorUpgrade s orderId) w := by
  unfold operatorUpgrade
  exact safe_enqueueProofJob (by decide) w

end

/-- A run that an arrival starts is safe, and before confirmed money none is started for a
job. -/
lemma arrive_runs {s : Services} {now : Instant} {a : Arrival} {w w' : World}
    (coupled : Coupled w.record)
    (later : Settled w.record.order.paymentState → Settled w'.record.order.paymentState) :
    ∀ run ∈ (arriveRecord s now w.record a).2, SafeRun s run.tag run.prog w' := by
  intro run started
  by_cases settled : Settled w.record.order.paymentState
  · exact safe_of_settled _ (later settled)
  · have idle := (coupled settled).2
    cases a with
    | claim workerId => simp [arriveRecord, claim, idle, startJob] at started
    | claimSpecific jobId generation workerId =>
      simp only [arriveRecord, claimSpecific, JobTables.job, idle, List.find?_nil] at started
      split at started
      · next claimed accepted => split at accepted <;> cases accepted
      · cases started
    | operatorReverify requestId =>
      rw [List.mem_singleton.1 started]
      exact safe_operatorReverify _
    | operatorUpgrade =>
      rw [List.mem_singleton.1 started]
      exact safe_operatorUpgrade _
    | operatorReplay jobId => simp [arriveRecord, replay, JobTables.job, idle] at started
    | recoverStale staleGrace limit =>
      simp only [arriveRecord] at started
      split at started
      · obtain ⟨target, -, rfl⟩ := List.mem_map.1 started
        exact safe_dispatchCommand _ _
      · cases started
    | reconcile jobId generation =>
      rw [List.mem_singleton.1 started]
      exact safe_dispatchCommand _ _
    | heartbeat | resendEvent | senderAccepted => cases started

/-! ## The payment side -/

/-- What one step must do: move along the tables and keep the coupling. -/
structure LegalStep (before after : OrderRecord) : Prop where
  edges : Edges before.order after.order
  coupled : Coupled after

lemma legalStep_of_states {before after : OrderRecord} (coupled : Coupled before)
    (payment : after.order.paymentState = before.order.paymentState)
    (fulfillment : after.order.fulfillmentState = before.order.fulfillmentState)
    (tables : after.tables = before.tables) : LegalStep before after := by
  refine ⟨edges_of_same payment fulfillment, fun unsettled => ?_⟩
  rw [payment] at unsettled
  rw [fulfillment, tables]
  exact coupled unsettled

/-- A payment reaches `paid` only from a state in which the order waits, so that assigning
`queued` is an edge. -/
lemma applyToRecord_legal (event : ProviderEvent) (canonical : CanonicalCheckout)
    (now : Instant) (jobId messageId : Nat) {r : OrderRecord} (coupled : Coupled r) :
    LegalStep r (applyToRecord event canonical now jobId messageId r) := by
  rcases applyToRecord_states event canonical now jobId messageId r with
    ⟨payment, fulfillment, tables⟩ | ⟨edge, ⟨paid, queued⟩ | ⟨_, fulfillment, tables⟩⟩
  · exact legalStep_of_states coupled payment fulfillment tables
  · have unsettled : ¬Settled r.order.paymentState := by
      rw [paid] at edge
      revert edge
      cases r.order.paymentState <;> decide
    refine ⟨⟨Or.inr edge, Or.inr ?_⟩, fun unpaid => absurd (Or.inl paid) unpaid⟩
    rw [(coupled unsettled).1, queued]
    decide
  · refine ⟨⟨Or.inr edge, Or.inl fulfillment⟩, fun unsettled => ?_⟩
    rw [fulfillment, tables]
    exact coupled fun settled => unsettled (settled_edge (Or.inr edge) settled)

lemma recordStripeEvent_legal {r r' : OrderRecord} (event : StripeEvent)
    (legal : LegalStep r r') : LegalStep r (recordStripeEvent r' event) :=
  ⟨legal.edges, legal.coupled⟩

lemma legalStep_refl {r : OrderRecord} (coupled : Coupled r) : LegalStep r r :=
  legalStep_of_states coupled rfl rfl rfl

lemma performPayment_legal (settings : PaymentSettings) (env : PaymentEnv) (q : PaymentRequest)
    {r : OrderRecord} (coupled : Coupled r) :
    LegalStep r (performPayment settings env q r).2 := by
  refine performPayment_of_events settings env q (LegalStep r) (legalStep_refl coupled)
    (fun recorded => recordStripeEvent_legal recorded (legalStep_refl coupled))
    fun event checkout recorded => ?_
  exact recordStripeEvent_legal recorded (applyToRecord_legal _ _ _ _ _ coupled)

/-- What the three kinds of arrival keep is kept by all. -/
lemma arriveOrder_of_each (s : Services) (settings : PaymentSettings) (a : OrderArrival) {w : World}
    (holds : OrderRecord → Prop) (same : holds w.record)
    (worker : ∀ arriving, a = .worker arriving →
      holds (arriveRecord s arriving.now w.record arriving.arrival).1)
    (payment : ∀ env q, a = .payment env q → holds (performPayment settings env q w.record).2)
    (bound : ∀ sessionId, holds { w.record with
      order := { w.record.order with checkoutSessionId := some sessionId } }) :
    holds (arriveOrder s settings w a).1.record := by
  cases a with
  | worker arriving => exact worker arriving rfl
  | payment env q => exact payment env q rfl
  | bindSession sessionId =>
    simp only [arriveOrder]
    cases done : bindSession sessionId w.record with
    | error message => exact same
    | ok r' =>
      rw [bindSession_ok done]
      exact bound sessionId

lemma arriveOrder_legal (s : Services) (settings : PaymentSettings) (a : OrderArrival) {w : World}
    (coupled : Coupled w.record) : LegalStep w.record (arriveOrder s settings w a).1.record := by
  refine arriveOrder_of_each s settings a (LegalStep w.record) (legalStep_refl coupled)
    (fun arriving _ => ?_) (fun env q _ => performPayment_legal settings env q coupled)
    fun _ => legalStep_of_states coupled rfl rfl rfl
  have move := arrive_move s arriving.now w.record arriving.arrival
  refine ⟨move.edges, fun unsettled => ?_⟩
  have before : ¬Settled w.record.order.paymentState := by
    simpa only [move.payment] using unsettled
  obtain ⟨waiting, idle⟩ := coupled before
  exact ⟨move.waiting waiting, arrive_no_jobs s arriving.now arriving.arrival idle⟩

/-! ## Whole runs -/

variable (s : Services) (settings : PaymentSettings)

abbrev Held (c : OrderConfig) : Prop :=
  Disciplined (orderService s settings) stateDiscipline (fun _ _ _ => True) c

lemma arrivals_safe : ArrivalsSafe (orderService s settings) stateDiscipline (fun _ _ _ => True)
    (fun _ _ => True) := by
  intro a w coupled _
  have legal := arriveOrder_legal s settings a coupled
  have settled : Settled w.record.order.paymentState →
      Settled (arriveOrder s settings w a).1.record.order.paymentState :=
    settled_edge legal.edges.payment
  refine ⟨legal.coupled, settled, fun run started => ?_⟩
  cases a with
  | worker arriving => exact arrive_runs coupled settled run started
  | payment env q => cases started
  | bindSession sessionId =>
    simp only [orderService, arriveOrder] at started
    split at started <;> cases started

lemma meetsAll_any (moves : List (Move Env OrderArrival)) (c : OrderConfig) :
    (⟨stateDiscipline.allowed, fun _ _ => True⟩ :
      StepCondition Request Env OrderArrival (Option ClaimedJob) World).MeetsAll
        (orderService s settings) moves c := by
  induction moves generalizing c with
  | nil => trivial
  | cons m rest ih =>
    refine ⟨?_, ih _⟩
    cases m with
    | serve i env =>
      simp only [StepCondition.Meets]
      split <;> trivial
    | arrive a => trivial
    | crash i => trivial

lemma run_held (moves : List (Move Env OrderArrival)) {c : OrderConfig}
    (held : Held s settings c) : Held s settings ((orderService s settings).run moves c) :=
  run_disciplined (arrivals_safe s settings) held (meetsAll_any s settings moves c)

lemma step_edges (m : Move Env OrderArrival) {c : OrderConfig} (held : Held s settings c) :
    Edges c.world.record.order ((orderService s settings).step c m).world.record.order := by
  cases m with
  | serve i env =>
    simp only [Service.step]
    split
    · exact (answer_move s env _ c.world.record).edges
    · exact edges_of_same rfl rfl
  | arrive a => exact (arriveOrder_legal s settings a held.inv).edges
  | crash i => exact edges_of_same rfl rfl

lemma terminal_payment {before after : PaymentState} (edge : PaymentEdge before after)
    (terminal : before ∈ [.failed, .expired, .refunded]) : after = before := by
  revert edge terminal
  cases before <;> cases after <;> decide

/-- What is left by no edge of the tables is not left by any run. -/
lemma run_terminal (later : List (Move Env OrderArrival)) {c : OrderConfig}
    (held : Held s settings c) :
    let after := ((orderService s settings).run later c).world.record.order
    (c.world.record.order.fulfillmentState = .manualReview →
        after.fulfillmentState = .manualReview) ∧
      (c.world.record.order.paymentState ∈ [.failed, .expired, .refunded] →
        after.paymentState = c.world.record.order.paymentState) := by
  induction later generalizing c with
  | nil => exact ⟨id, fun _ => rfl⟩
  | cons m rest ih =>
    have edges := step_edges s settings m held
    obtain ⟨review, terminal⟩ := ih (run_held s settings [m] held)
    constructor
    · intro inReview
      refine review ?_
      have edge := edges.fulfillment
      rw [inReview] at edge
      exact edge.resolve_right (List.not_mem_nil)
    · intro final
      have same := terminal_payment edges.payment final
      exact (terminal (same.symm ▸ final)).trans same

/-- An order as its checkout creates it. -/
structure Created (r : OrderRecord) : Prop where
  payment : r.order.paymentState = .checkoutOpen
  fulfillment : r.order.fulfillmentState = .awaitingPayment
  jobs : r.tables.jobs = []

/-- How the two states and the jobs fit together. -/
structure LegalState (r : OrderRecord) : Prop where
  worked : r.order.fulfillmentState ≠ .awaitingPayment →
    r.order.fulfillmentState ≠ .manualReview → Settled r.order.paymentState
  unpaid : r.order.paymentState ∈ [.checkoutOpen, .processing, .failed, .expired] →
    r.tables.jobs = []

lemma legalState_of_coupled {r : OrderRecord} (coupled : Coupled r) : LegalState r := by
  constructor
  · intro begun _
    by_contra unsettled
    exact begun (coupled unsettled).1
  · intro unpaid
    refine (coupled ?_).2
    revert unpaid
    cases r.order.paymentState <;> decide

/-- From a created order on, whatever its writers do in whatever order and wherever they
stop: the state reached is legal, one more step moves along the tables, and no later run
leaves manual review or a final payment state. -/
theorem order_state_machine (w : World) (created : Created w.record)
    (moves : List (Move Env OrderArrival)) (m : Move Env OrderArrival)
    (later : List (Move Env OrderArrival)) :
    let c := (orderService s settings).run moves ⟨w, []⟩
    let after := ((orderService s settings).run later c).world.record.order
    LegalState c.world.record ∧
      Edges c.world.record.order ((orderService s settings).step c m).world.record.order ∧
      (c.world.record.order.fulfillmentState = .manualReview →
        after.fulfillmentState = .manualReview) ∧
      (c.world.record.order.paymentState ∈ [.failed, .expired, .refunded] →
        after.paymentState = c.world.record.order.paymentState) := by
  intro c after
  have start : Held s settings ⟨w, []⟩ :=
    ⟨fun _ => ⟨created.fulfillment, created.jobs⟩, fun _ none => absurd none List.not_mem_nil⟩
  have held : Held s settings c := run_held s settings moves start
  exact ⟨legalState_of_coupled held.inv, step_edges s settings m held,
    run_terminal s settings later held⟩

/-! ## A run from the checkout to the calendars -/

open VerifiedOrders (samplePlatform sampleServices sampleOrder sampleTime sampleEnv stampedBytes)

def sampleUuid : String := "00000000-0000-0000-0000-000000000001"

def sampleSettings : PaymentSettings where
  paymentMode := .stripeLive
  stripePriceId := some "price_1"
  parseUuid text := if text = sampleUuid then some 1 else none
  uuidText _ := sampleUuid
  platform := samplePlatform

def createdRecord : OrderRecord where
  order := { sampleOrder with
    paymentState := .checkoutOpen
    fulfillmentState := .awaitingPayment
    checkoutSessionId := none
    paymentIntentId := none }
  proofs := []
  verifications := []
  bundles := []
  observations := []
  stateEvents := []
  outbox := []
  notificationAttempts := []
  resendEvents := []
  stripeEvents := []
  tables := ⟨[], [], []⟩

def paidEvent : ProviderEvent where
  eventId := "evt_1"
  eventType := .checkoutSessionCompleted
  livemode := true
  internalOrderId := some sampleUuid
  sessionId := some "cs_live_1"
  paymentIntentId := some "pi_1"
  refundStatus := none
  refundedAmount := none

def paidCheckout : CanonicalCheckout where
  sessionId := "cs_live_1"
  paymentIntentId := some "pi_1"
  livemode := true
  mode := "payment"
  status := "complete"
  paymentStatus := "paid"
  metadata := [("order_id", sampleUuid)]
  priceId := "price_1"
  amountTotal := 500
  currency := "eur"
  quantity := 1
  refundStatus := none
  refundedAmountTotal := 0

def samplePayload : Sha256 := ⟨List.replicate 32 7, rfl⟩

def paymentEnv (seconds : Int) (canonical : CanonicalCheckout) : PaymentEnv where
  now := sampleTime seconds
  jobId := 1
  messageId := 1
  orderId := .ok (some sampleUuid)
  canonical := .ok canonical

/-- The session is bound, the payment arrives, and the stamp job runs to its end. -/
def checkoutToCalendars : List (Move Env OrderArrival) :=
  [Move.arrive (.bindSession "cs_live_1"),
    .arrive (.payment (paymentEnv 1 paidCheckout)
      (.commitEvent paidEvent samplePayload (some paidCheckout))),
    .arrive (.worker ⟨sampleTime 2, 100, .claim "worker-a"⟩)] ++
  List.replicate 13 (Move.serve 0 (sampleEnv 3 2 stampedBytes))

set_option maxRecDepth 4000 in
theorem stamped_order_is_legal :
    let c := (orderService sampleServices sampleSettings).run checkoutToCalendars
      ⟨⟨createdRecord, sampleTime 0, 100⟩, []⟩
    c.world.record.order.paymentState = .paid ∧
      c.world.record.order.fulfillmentState = .calendarPending ∧ LegalState c.world.record :=
  ⟨by decide, by decide, (order_state_machine sampleServices sampleSettings
    ⟨createdRecord, sampleTime 0, 100⟩ ⟨rfl, rfl, rfl⟩ checkoutToCalendars (.crash 0) []).1⟩

end OrderStateMachine
