import Mathlib.Data.List.Chain
import SpacerocksCoa.HandlerRequests
import SpacerocksCoa.OrderStateMachine

/-!
# The log of state events as the history of the order

Every writer of the log in one service: the requests of the worker's programs, the Stripe
and Resend transactions, and the download of a proof, on an order as its checkout creates
it. A download loads the order when it authenticates and locks it only afterwards; the
second select returns the object that the session already holds, with the columns it was
loaded with. What it records is therefore the order of its authentication.

The evidence column of a state event and the artifact that a download returns are left
out; so is the token that authenticates it.
-/
namespace StateEventLog
open OrderStates ProofRecords OrderRows JobClaims FulfillmentAdapters NotificationAdapters
open FulfillmentHandlers WorkerRuns PaymentWebhooks OrderStateMachine HandlerRequests
open TransactionalPrograms TransactionalPrograms.Prog
open VerifiedOrders (mergeCalendarTime_state)

/-! ## The log -/

/-- An event starts from the states that the event before it reached. -/
def Follows (a b : StateEvent) : Prop :=
  b.previousPaymentState = a.paymentState ∧ b.previousFulfillmentState = a.fulfillmentState

instance (a b : StateEvent) : Decidable (Follows a b) := instDecidableAnd

/-- The order is in the states that the event reached. -/
def Reached (order : Order) (last : StateEvent) : Prop :=
  last.paymentState = order.paymentState ∧ last.fulfillmentState = order.fulfillmentState

instance (order : Order) (last : StateEvent) : Decidable (Reached order last) :=
  instDecidableAnd

/-- The log is the history of the order. -/
structure LogKept (r : OrderRecord) : Prop where
  begun : r.stateEvents ≠ []
  numbered : r.stateEvents.map StateEvent.sequence = List.range' 1 r.stateEvents.length
  linked : r.stateEvents.IsChain Follows
  current : ∀ last ∈ r.stateEvents.getLast?, Reached r.order last
  keys : (r.stateEvents.map StateEvent.eventKey).Nodup

lemma foldl_max_range' (n : Nat) : (List.range' 1 n).foldl max 0 = n := by
  induction n with
  | zero => rfl
  | succ n ih =>
    rw [List.range'_1_concat, List.foldl_append, ih]
    simp only [List.foldl_cons, List.foldl_nil]
    omega

lemma LogKept.nextSequence {r : OrderRecord} (kept : LogKept r) :
    r.nextSequence = r.stateEvents.length + 1 := by
  rw [OrderRecord.nextSequence, kept.numbered, foldl_max_range']

lemma LogKept.same {r r' : OrderRecord} (kept : LogKept r)
    (events : r'.stateEvents = r.stateEvents)
    (payment : r'.order.paymentState = r.order.paymentState)
    (fulfillment : r'.order.fulfillmentState = r.order.fulfillmentState) : LogKept r' := by
  refine ⟨?_, ?_, ?_, fun last isLast => ?_, ?_⟩
  · rw [events]
    exact kept.begun
  · rw [events]
    exact kept.numbered
  · rw [events]
    exact kept.linked
  · rw [events] at isLast
    rw [Reached, payment, fulfillment]
    exact kept.current last isLast
  · rw [events]
    exact kept.keys

/-- A writer that reads the states under the lock and uses a key of its own extends the
history by one event. -/
lemma LogKept.append {r r' : OrderRecord} (kept : LogKept r) {key : EventKey}
    {source : EventSource} {after : Order} {now : Instant}
    (fresh : ∀ e ∈ r.stateEvents, e.eventKey ≠ key)
    (events : r'.stateEvents = r.stateEvents ++ [newStateEvent r key source after now])
    (payment : r'.order.paymentState = after.paymentState)
    (fulfillment : r'.order.fulfillmentState = after.fulfillmentState) : LogKept r' := by
  refine ⟨?_, ?_, ?_, fun last isLast => ?_, ?_⟩
  · rw [events]
    exact List.append_ne_nil_of_right_ne_nil _ (List.cons_ne_nil _ _)
  · rw [events, List.map_append, List.length_append, List.length_singleton,
      List.range'_1_concat, kept.numbered]
    simp only [List.map_cons, List.map_nil, newStateEvent, kept.nextSequence, Nat.add_comm]
  · rw [events]
    refine List.isChain_append.2 ⟨kept.linked, List.isChain_singleton _, ?_⟩
    intro last isLast next isNext
    rw [List.head?_cons, Option.mem_some_iff] at isNext
    rw [← isNext]
    obtain ⟨reachedPayment, reachedFulfillment⟩ := kept.current last isLast
    exact ⟨reachedPayment.symm, reachedFulfillment.symm⟩
  · rw [events, List.getLast?_concat, Option.mem_some_iff] at isLast
    rw [← isLast]
    exact ⟨payment.symm, fulfillment.symm⟩
  · rw [events, List.map_append]
    refine List.nodup_append.2 ⟨kept.keys, List.nodup_singleton _, ?_⟩
    intro used isUsed new isNew
    obtain ⟨e, member, rfl⟩ := List.mem_map.1 isUsed
    rw [List.map_cons, List.map_nil, List.mem_singleton] at isNew
    rw [isNew]
    exact fresh e member

/-! ## Why keys are never used twice -/

def StripeRecorded (r : OrderRecord) (eventId : String) : Prop :=
  ∃ e ∈ r.stripeEvents, e.stripeEventId = eventId

/-- The log together with what tells each outside writer that its key is still free. -/
structure HistoryKept (r : OrderRecord) : Prop where
  log : LogKept r
  stripe : ∀ e ∈ r.stateEvents, ∀ eventId, e.eventKey = .stripe eventId →
    StripeRecorded r eventId
  resend : ∀ e ∈ r.stateEvents, ∀ svixEventId, e.eventKey = .resendDelivered svixEventId →
    FulfillmentState.delivered.rank ≤ r.order.fulfillmentState.rank

lemma HistoryKept.same {r r' : OrderRecord} (kept : HistoryKept r)
    (events : r'.stateEvents = r.stateEvents)
    (payment : r'.order.paymentState = r.order.paymentState)
    (fulfillment : r'.order.fulfillmentState = r.order.fulfillmentState)
    (recorded : ∀ eventId, StripeRecorded r eventId → StripeRecorded r' eventId) :
    HistoryKept r' := by
  refine ⟨kept.log.same events payment fulfillment, fun e member eventId key => ?_,
    fun e member svixEventId key => ?_⟩
  · rw [events] at member
    exact recorded eventId (kept.stripe e member eventId key)
  · rw [events] at member
    rw [fulfillment]
    exact kept.resend e member svixEventId key

lemma HistoryKept.append {r r' : OrderRecord} (kept : HistoryKept r) {key : EventKey}
    {source : EventSource} {after : Order} {now : Instant}
    (fresh : ∀ e ∈ r.stateEvents, e.eventKey ≠ key)
    (events : r'.stateEvents = r.stateEvents ++ [newStateEvent r key source after now])
    (payment : r'.order.paymentState = after.paymentState)
    (fulfillment : r'.order.fulfillmentState = after.fulfillmentState)
    (recorded : ∀ eventId, StripeRecorded r eventId → StripeRecorded r' eventId)
    (later : r.order.fulfillmentState.rank ≤ r'.order.fulfillmentState.rank)
    (stripeKey : ∀ eventId, key = .stripe eventId → StripeRecorded r' eventId)
    (resendKey : ∀ svixEventId, key = .resendDelivered svixEventId →
      FulfillmentState.delivered.rank ≤ r'.order.fulfillmentState.rank) : HistoryKept r' := by
  refine ⟨kept.log.append fresh events payment fulfillment, fun e member eventId isKey => ?_,
    fun e member svixEventId isKey => ?_⟩
  · rw [events] at member
    rcases List.mem_append.1 member with old | new
    · exact recorded eventId (kept.stripe e old eventId isKey)
    · rw [List.mem_singleton.1 new] at isKey
      exact stripeKey eventId isKey
  · rw [events] at member
    rcases List.mem_append.1 member with old | new
    · exact Nat.le_trans (kept.resend e old svixEventId isKey) later
    · rw [List.mem_singleton.1 new] at isKey
      exact resendKey svixEventId isKey

/-! ## The worker -/

/-- Transitions under the worker's keys, and every other request. -/
def WorkerKeyed (q : Request) : Prop :=
  ∀ target key time, q = .transitionFulfillmentOnce target key time →
    EventKey.writer key = .fulfillmentWorker

lemma admits_workerKeyed : Admits WorkerKeyed := by
  constructor
  · rintro target key time mine _ _ _ ⟨⟩
    exact mine
  · intro q ordinary target key time same
    rw [same] at ordinary
    cases ordinary

lemma admitsObservations_workerKeyed : AdmitsObservations WorkerKeyed := by
  rintro version key result _ _ _ ⟨⟩

lemma fresh_of_stateEvent_none {r : OrderRecord} {key : EventKey}
    (unknown : r.stateEvent key = none) : ∀ e ∈ r.stateEvents, e.eventKey ≠ key := by
  intro e member same
  exact List.find?_eq_none.1 unknown e member (by simp [same])

lemma transition_kept {p : Platform} {target : FulfillmentState} {key : EventKey}
    {time : Option Instant} {now : Instant} {r : OrderRecord} (kept : HistoryKept r)
    (mine : EventKey.writer key = .fulfillmentWorker) :
    HistoryKept (commit r (transitionFulfillmentOnce p target key time now r)).2 := by
  refine commit_rule HistoryKept kept fun result r' done => ?_
  obtain ⟨-, merged, merge, repeated | ⟨unknown, edge, -, -, moved, -⟩⟩ :=
    transitionFulfillmentOnce_ok done
  · rw [repeated.1]
    exact kept.same rfl (merge_move merge).payment (mergeCalendarTime_state merge) fun _ => id
  · rw [moved]
    refine kept.append (fresh_of_stateEvent_none unknown) rfl rfl rfl (fun _ => id)
      (rank_le_of_edge edge) ?_ ?_
    · intro eventId isStripe
      rw [isStripe] at mine
      cases mine
    · intro svixEventId isResend
      rw [isResend] at mine
      cases mine

lemma answer_kept (s : Services) (env : Env) {q : Request} (mine : WorkerKeyed q)
    {r : OrderRecord} (kept : HistoryKept r) : HistoryKept (answer s env q r).2 := by
  cases q with
  | transitionFulfillmentOnce target key time => exact transition_kept kept (mine _ _ _ rfl)
  | append proof =>
    refine commitUnit_rule HistoryKept kept fun r' done => ?_
    obtain ⟨order, merge, -, ⟨rfl, -⟩ | ⟨rfl, -⟩⟩ := append_ok done
    · exact kept.same rfl (merge_move merge).payment (mergeCalendarTime_state merge) fun _ => id
    · exact kept.same rfl (merge_move merge).payment (mergeCalendarTime_state merge) fun _ => id
  | putVerifiedOnce version result =>
    refine commitUnit_rule HistoryKept kept fun r' done => ?_
    obtain ⟨_, _, -, -, -, -, ⟨rfl, -⟩ | ⟨-, rfl⟩⟩ := putVerifiedOnce_ok done
    · exact kept
    · exact kept.same rfl rfl rfl fun _ => id
  | recordOnce version key result =>
    refine commit_rule HistoryKept kept fun o r' done => ?_
    obtain ⟨_, _, _, -, -, -, -, -, ⟨rfl, -⟩ | ⟨-, -, -, rfl⟩⟩ := recordOnce_ok done
    · exact kept
    · exact kept.same rfl rfl rfl fun _ => id
  | putOnce version bundle =>
    refine commitUnit_rule HistoryKept kept fun r' done => ?_
    obtain ⟨-, ⟨rfl, -⟩ | ⟨-, rfl⟩⟩ := putOnce_ok done
    · exact kept
    · exact kept.same rfl rfl rfl fun _ => id
  | enqueue message =>
    refine commitUnit_rule HistoryKept kept fun r' done => ?_
    obtain ⟨_, -, rfl | rfl⟩ := enqueue_ok done
    · exact kept
    · exact kept.same rfl rfl rfl fun _ => id
  | finish job outcome now retryAt code =>
    simp only [answer]
    split
    · exact kept.same rfl rfl rfl fun _ => id
    · exact kept
  | enqueueOnce | recordDispatched | recordDispatchFailure | heartbeat =>
    exact kept.same rfl rfl rfl fun _ => id
  | getForFulfillment | latest | stampExactDigest | upgradeExactDigest | verifyExactDigest
  | getVerified | latestObservation | now | dispatchDue | createTask | retryAt => exact kept

/-- A delivery finds its key free: the order would be delivered already. -/
lemma messages_kept {p : Platform} {r r' : OrderRecord} (kept : HistoryKept r)
    (changed : OnlyMessages r r' ∨ Delivers p r r') : HistoryKept r' := by
  rcases changed with messages | ⟨verified, -, svixEventId, now, moved⟩
  · unfold OnlyMessages at messages
    rw [messages]
    exact kept.same rfl rfl rfl fun _ => id
  · have fresh : ∀ e ∈ r.stateEvents, e.eventKey ≠ .resendDelivered svixEventId := by
      intro e member same
      have later := kept.resend e member svixEventId same
      rw [verified] at later
      exact absurd later (by decide)
    rw [moved]
    refine kept.append fresh rfl rfl rfl (fun _ => id) ?_ nofun fun _ _ => Nat.le_refl _
    rw [verified]
    change FulfillmentState.bitcoinVerified.rank ≤ FulfillmentState.delivered.rank
    decide

lemma arrive_kept (s : Services) (now : Instant) {r : OrderRecord} (kept : HistoryKept r)
    (a : Arrival) : HistoryKept (arriveRecord s now r a).1 := by
  have started : ∀ claimed, HistoryKept (startJob s r claimed).1 := by
    intro claimed
    cases claimed with
    | none => exact kept
    | some claimed => exact kept.same rfl rfl rfl fun _ => id
  cases a with
  | claim workerId => exact started _
  | claimSpecific jobId generation workerId =>
    simp only [arriveRecord]
    split
    · exact started _
    · exact kept
  | operatorReplay jobId =>
    simp only [arriveRecord]
    split
    · exact kept.same rfl rfl rfl fun _ => id
    · exact kept
  | recoverStale staleGrace limit =>
    simp only [arriveRecord]
    split
    · exact kept.same rfl rfl rfl fun _ => id
    · exact kept
  | resendEvent event payload =>
    exact commit_rule HistoryKept kept fun _ _ done => messages_kept kept (processEvent_ok done)
  | senderAccepted message acceptance =>
    exact commitUnit_rule HistoryKept kept fun _ done =>
      messages_kept kept (recordAccepted_ok done)
  | heartbeat job leaseUntil => exact kept.same rfl rfl rfl fun _ => id
  | operatorReverify | operatorUpgrade | reconcile => exact kept

/-! ## Payments -/

lemma commitEvent_guarded {settings : PaymentSettings} {event : ProviderEvent}
    {payloadSha256 : Sha256} {canonical : Option CanonicalCheckout} {now : Instant}
    {jobId messageId : Nat} {r r' : OrderRecord} {result : WebhookResult}
    (guard : settings.platform.databaseGuard = true)
    (h : commitEvent settings event payloadSha256 canonical now jobId messageId r =
      .ok (result, r')) : r.order.fulfillmentState.rank ≤ r'.order.fulfillmentState.rank := by
  unfold commitEvent at h
  split at h
  · cases h
    exact Nat.le_refl _
  · split at h
    · split at h
      · cases h
        exact Nat.le_refl _
      · split at h
        · cases h
          exact Nat.le_refl _
        · obtain ⟨-, rfl, passes⟩ := guarded_ok h
          have let_through := passes guard
          simp only [enforceOrderStateTransition, Bool.and_eq_true, decide_eq_true_iff]
            at let_through
          exact rank_le_of_edge let_through.1.1.2
    · cases h
      exact Nat.le_refl _

/-- An applied event either moves no state and logs nothing, or logs the states it assigns. -/
lemma applyToRecord_log (event : ProviderEvent) (canonical : CanonicalCheckout)
    (now : Instant) (jobId messageId : Nat) (r : OrderRecord) :
    let r' := applyToRecord event canonical now jobId messageId r
    (r'.stateEvents = r.stateEvents ∧ r'.order.paymentState = r.order.paymentState ∧
        r'.order.fulfillmentState = r.order.fulfillmentState) ∨
      r'.stateEvents = r.stateEvents ++
        [newStateEvent r (.stripe event.eventId) .stripeWebhook r'.order now] := by
  cases applied : applyEvent r.order event canonical with
  | none =>
    left
    simp only [applyToRecord, applied]
    exact ⟨trivial, (adoptIntent_states _ _).1, (adoptIntent_states _ _).2⟩
  | some changed =>
    right
    simp only [applyToRecord, applied]

lemma recorded_of_subset {r r' : OrderRecord} (grows : r.stripeEvents ⊆ r'.stripeEvents)
    (eventId : String) (recorded : StripeRecorded r eventId) : StripeRecorded r' eventId := by
  obtain ⟨e, member, same⟩ := recorded
  exact ⟨e, grows member, same⟩

/-- A commit that applies an event has recorded none under its identifier, so the key is
free. -/
lemma commitEvent_kept {settings : PaymentSettings} {event : ProviderEvent}
    {payloadSha256 : Sha256} {canonical : Option CanonicalCheckout} {now : Instant}
    {jobId messageId : Nat} {r r' : OrderRecord} {result : WebhookResult}
    (guard : settings.platform.databaseGuard = true) (kept : HistoryKept r)
    (h : commitEvent settings event payloadSha256 canonical now jobId messageId r =
      .ok (result, r')) : HistoryKept r' := by
  have later := commitEvent_guarded guard h
  rcases commitEvent_ok h with ⟨_, -, -, same⟩ | ⟨-, -, code, rejected⟩ |
    ⟨unknown, -, checkout, -, applied⟩
  · rw [same]
    exact kept
  · rw [rejected]
    exact kept.same rfl rfl rfl (recorded_of_subset (List.subset_append_left _ _))
  · have fresh : ∀ e ∈ r.stateEvents, e.eventKey ≠ .stripe event.eventId := by
      intro e member same
      obtain ⟨recorded, found, isEvent⟩ := kept.stripe e member event.eventId same
      exact List.find?_eq_none.1 unknown recorded found (by simp [isEvent])
    have stripeEvents : r'.stripeEvents =
        r.stripeEvents ++ [recordedEvent event payloadSha256 now none] := by
      rw [applied, recordStripeEvent, applyToRecord_stripeEvents]
    have grows : r.stripeEvents ⊆ r'.stripeEvents :=
      stripeEvents ▸ List.subset_append_left _ _
    rcases applyToRecord_log event checkout now jobId messageId r with
      ⟨events, payment, fulfillment⟩ | logged
    · refine kept.same ?_ ?_ ?_ (recorded_of_subset grows)
      · rw [applied]
        exact events
      · rw [applied]
        exact payment
      · rw [applied]
        exact fulfillment
    · have events : r'.stateEvents = r.stateEvents ++
          [newStateEvent r (.stripe event.eventId) .stripeWebhook r'.order now] := by
        rw [applied]
        exact logged
      refine kept.append fresh events rfl rfl (recorded_of_subset grows) later ?_ nofun
      intro eventId isKey
      cases isKey
      refine ⟨recordedEvent event payloadSha256 now none, ?_, rfl⟩
      rw [stripeEvents]
      exact List.mem_append_right _ (List.mem_singleton_self _)

lemma performPayment_kept {settings : PaymentSettings}
    (guard : settings.platform.databaseGuard = true) (env : PaymentEnv) (q : PaymentRequest)
    {r : OrderRecord} (kept : HistoryKept r) :
    HistoryKept (performPayment settings env q r).2 :=
  performPayment_of_commit settings env q HistoryKept kept fun _ _ _ _ _ done =>
    commitEvent_kept guard kept done

lemma arriveOrder_kept (s : Services) {settings : PaymentSettings}
    (guard : settings.platform.databaseGuard = true) (a : OrderArrival) {w : World}
    (kept : HistoryKept w.record) : HistoryKept (arriveOrder s settings w a).1.record := by
  exact arriveOrder_of_each s settings a HistoryKept kept
    (fun arriving _ => arrive_kept s arriving.now kept arriving.arrival)
    (fun env q _ => performPayment_kept guard env q kept)
    fun _ => kept.same rfl rfl rfl fun _ => id

/-! ## Downloads -/

/-- A download between its authentication and its audit event: the order as the session
loaded it, and the pending version that an earlier transaction selected. -/
structure DownloadSession where
  loaded : Order
  selected : Option ProofVersion
  deriving DecidableEq

/-- `_valid_bundle`. -/
def validBundle (p : Platform) (bundle : ProofBundle) : Bool :=
  decide (1 ≤ bundle.bundleBytes.length) && decide (bundle.bundleBytes.length ≤ maxBundleBytes) &&
    p.sha256 bundle.bundleBytes == bundle.bundleSha256

/-- `latest_for_order`, with the order that the session holds. -/
def latestForOrder (order : Order) (r : OrderRecord) : Option (StoredProof Instant) :=
  FulfillmentAdapters.latest { r with order := order }

/-- The persisted bundle of a verified order. -/
def persistedAvailable (p : Platform) (loaded : Order) (r : OrderRecord) : Bool :=
  (loaded.fulfillmentState == .bitcoinVerified || loaded.fulfillmentState == .delivered) &&
    (latestForOrder loaded r).any fun stored =>
      stored.verification.isSome && (r.bundle stored.version).any (validBundle p)

/-- `_pending_selection_is_current` and the comparison with the latest version. -/
def pendingCurrent (loaded : Order) (selected : ProofVersion) (r : OrderRecord) : Bool :=
  loaded.fulfillmentState == .calendarPending &&
    selected.targetDigest == loaded.snapshot.manifestDigest &&
    selected.verificationMetadata.isNone && r.latestProof == some selected

def downloadable (p : Platform) (d : DownloadSession) (r : OrderRecord) : Bool :=
  match d.selected with
  | none => persistedAvailable p d.loaded r
  | some selected => pendingCurrent d.loaded selected r

/-- The row is selected for update, but the session shows the columns it loaded before. -/
def recordDownloadEvent (loaded : Order) (id : Nat) (now : Instant) (r : OrderRecord) :
    Except AdapterError OrderRecord :=
  if r.stateEvents.any (fun e => e.eventKey == .download id) then .error .database
  else .ok { r with
    stateEvents := r.stateEvents ++
      [newStateEvent { r with order := loaded } (.download id) .customerDownload loaded now] }

/-! ## The service -/

structure HistoryWorld where
  world : World
  downloads : List DownloadSession

inductive HistoryArrival where
  | order (a : OrderArrival)
  | authenticate
  | select (session : Nat)
  | authenticateAgain (session : Nat)
  | recordDownload (session id : Nat) (now : Instant)

/-- The first transaction of a pending download selects the latest version. -/
def selectPending (d : DownloadSession) (r : OrderRecord) : DownloadSession :=
  if d.loaded.fulfillmentState = .calendarPending then { d with selected := r.latestProof } else d

/-- The second transaction loads the order again. -/
def authenticateAgain (order : Order) (d : DownloadSession) : DownloadSession :=
  if d.selected.isSome then { d with loaded := order } else d

def finishDownload (p : Platform) (session id : Nat) (now : Instant) (w : HistoryWorld) :
    HistoryWorld :=
  match w.downloads[session]? with
  | none => w
  | some d =>
    if downloadable p d w.world.record then
      match recordDownloadEvent d.loaded id now w.world.record with
      | .ok r => ⟨{ w.world with record := r }, w.downloads.eraseIdx session⟩
      | .error _ => w
    else w

def arriveHistory (s : Services) (settings : PaymentSettings) (w : HistoryWorld) :
    HistoryArrival → HistoryWorld × List HandlerRun
  | .order a =>
    ({ w with world := (arriveOrder s settings w.world a).1 }, (arriveOrder s settings w.world a).2)
  | .authenticate =>
    ({ w with downloads := w.downloads ++ [⟨w.world.record.order, none⟩] }, [])
  | .select session =>
    ({ w with downloads := w.downloads.modify session fun d => selectPending d w.world.record }, [])
  | .authenticateAgain session =>
    ({ w with downloads := w.downloads.modify session (authenticateAgain w.world.record.order) },
      [])
  | .recordDownload session id now => (finishDownload s.platform session id now w, [])

def historyService (s : Services) (settings : PaymentSettings) :
    Service Request Reply Failure RunEnd (Option ClaimedJob) HistoryWorld Env HistoryArrival where
  perform env q w :=
    ((perform s env q w.world).1, { w with world := (perform s env q w.world).2 })
  arrive a w := arriveHistory s settings w a

/-- A download that records finds the order in the states it was loaded with. -/
def DownloadFresh (p : Platform) (w : HistoryWorld) : HistoryArrival → Prop
  | .recordDownload session _ _ => ∀ d ∈ w.downloads[session]?,
    downloadable p d w.world.record = true →
      d.loaded.paymentState = w.world.record.order.paymentState ∧
        d.loaded.fulfillmentState = w.world.record.order.fulfillmentState
  | _ => True

instance (p : Platform) (w : HistoryWorld) : (a : HistoryArrival) →
    Decidable (DownloadFresh p w a)
  | .recordDownload session _ _ => inferInstanceAs (Decidable (∀ d ∈ w.downloads[session]?, _))
  | .order _ => .isTrue trivial
  | .authenticate => .isTrue trivial
  | .select _ => .isTrue trivial
  | .authenticateAgain _ => .isTrue trivial

def downloadsFresh (p : Platform) :
    StepCondition Request Env HistoryArrival (Option ClaimedJob) HistoryWorld where
  request _ _ _ _ := True
  arrival a w := DownloadFresh p w a

instance (p : Platform) (tag : Option ClaimedJob) (env : Env) (q : Request) (w : HistoryWorld) :
    Decidable ((downloadsFresh p).request tag env q w) := .isTrue trivial

instance (p : Platform) (a : HistoryArrival) (w : HistoryWorld) :
    Decidable ((downloadsFresh p).arrival a w) := inferInstanceAs (Decidable (DownloadFresh p w a))

/-- A download between equal states extends the history; its key is checked by the
database. -/
lemma recordDownloadEvent_kept {loaded : Order} {id : Nat} {now : Instant} {r r' : OrderRecord}
    (kept : HistoryKept r) (payment : loaded.paymentState = r.order.paymentState)
    (fulfillment : loaded.fulfillmentState = r.order.fulfillmentState)
    (h : recordDownloadEvent loaded id now r = .ok r') : HistoryKept r' := by
  unfold recordDownloadEvent at h
  split at h
  · cases h
  · next free =>
    cases h
    have fresh : ∀ e ∈ r.stateEvents, e.eventKey ≠ .download id := by
      intro e member same
      exact free (List.any_eq_true.2 ⟨e, member, by simp [same]⟩)
    have event : newStateEvent { r with order := loaded } (.download id) .customerDownload loaded
        now = newStateEvent r (.download id) .customerDownload loaded now := by
      simp only [newStateEvent, payment, fulfillment]
      rfl
    refine kept.append fresh (congrArg (r.stateEvents ++ [·]) event) payment.symm fulfillment.symm
      (fun _ recorded => recorded) (Nat.le_refl _) nofun nofun

lemma arriveHistory_kept (s : Services) {settings : PaymentSettings}
    (guard : settings.platform.databaseGuard = true) (a : HistoryArrival) {w : HistoryWorld}
    (kept : HistoryKept w.world.record) (fresh : DownloadFresh s.platform w a) :
    HistoryKept (arriveHistory s settings w a).1.world.record := by
  cases a with
  | order a => exact arriveOrder_kept s guard a kept
  | authenticate | select | authenticateAgain => exact kept
  | recordDownload session id now =>
    simp only [arriveHistory, finishDownload]
    cases opened : w.downloads[session]? with
    | none => exact kept
    | some d =>
      simp only
      split
      · next able =>
        obtain ⟨payment, fulfillment⟩ := fresh d opened able
        split
        · next r recorded => exact recordDownloadEvent_kept kept payment fulfillment recorded
        · exact kept
      · exact kept

lemma starts_workerKeyed (s : Services) (settings : PaymentSettings) (a : HistoryArrival)
    (w : HistoryWorld) :
    ∀ run ∈ ((historyService s settings).arrive a w).2, Only WorkerKeyed run.prog := by
  intro run started
  cases a with
  | order a =>
    cases a with
    | worker arriving =>
      exact only_arrival admits_workerKeyed admitsObservations_workerKeyed _ _ _ run started
    | payment env q => cases started
    | bindSession sessionId =>
      simp only [historyService, arriveHistory, arriveOrder] at started
      split at started <;> cases started
  | authenticate | select | authenticateAgain | recordDownload => cases started

/-! ## Whole runs -/

/-- The event that the reservation of a checkout records. -/
def checkoutEvent (r : OrderRecord) (now : Instant) : StateEvent :=
  newStateEvent { r with stateEvents := [] } (.checkout r.order.id) .checkout r.order now

/-- An order as the reservation of its checkout leaves it. -/
structure Reserved (r : OrderRecord) : Prop where
  payment : r.order.paymentState = .checkoutOpen
  fulfillment : r.order.fulfillmentState = .awaitingPayment
  logged : ∃ now, r.stateEvents = [checkoutEvent r now]

lemma kept_of_reserved {r : OrderRecord} (reserved : Reserved r) : HistoryKept r := by
  obtain ⟨now, logged⟩ := reserved.logged
  have onlyCheckout : ∀ e ∈ r.stateEvents, e.eventKey = .checkout r.order.id := by
    intro e member
    rw [logged] at member
    rw [List.mem_singleton.1 member]
    rfl
  refine ⟨⟨?_, ?_, ?_, fun last isLast => ?_, ?_⟩, fun e member eventId key => ?_,
    fun e member svixEventId key => ?_⟩
  · rw [logged]
    exact List.cons_ne_nil _ _
  · rw [logged]
    rfl
  · rw [logged]
    exact List.isChain_singleton _
  · rw [logged, List.getLast?_singleton, Option.mem_some_iff] at isLast
    rw [← isLast]
    exact ⟨rfl, rfl⟩
  · rw [logged]
    exact List.nodup_singleton _
  · rw [onlyCheckout e member] at key
    cases key
  · rw [onlyCheckout e member] at key
    cases key

/-- Under an existing key neither the states nor the log change. -/
lemma repeated_transition {p : Platform} {target : FulfillmentState} {key : EventKey}
    {time : Option Instant} {now : Instant} {r : OrderRecord} {event : StateEvent}
    (known : r.stateEvent key = some event) :
    let r' := (commit r (transitionFulfillmentOnce p target key time now r)).2
    r'.order.state = r.order.state ∧ r'.stateEvents = r.stateEvents := by
  refine commit_rule (fun r' => r'.order.state = r.order.state ∧ r'.stateEvents = r.stateEvents)
    ⟨rfl, rfl⟩ fun result r' done => ?_
  obtain ⟨-, merged, merge, ⟨same, -⟩ | ⟨unknown, -⟩⟩ := transitionFulfillmentOnce_ok done
  · rw [same]
    refine ⟨?_, rfl⟩
    rw [(mergeCalendarTime_ok merge).1]
    rfl
  · rw [known] at unknown
    cases unknown

abbrev HistoryConfig :=
  Config Request Reply Failure RunEnd (Option ClaimedJob) HistoryWorld

/-- When every download finds the states it was loaded with, the log is the history of the
order in every state reached; there a transition under a known key changes neither, and one
that fails changes nothing. -/
theorem log_is_history (s : Services) (settings : PaymentSettings)
    (guard : settings.platform.databaseGuard = true) (w : World) (reserved : Reserved w.record)
    (moves : List (Move Env HistoryArrival))
    (fresh : (downloadsFresh s.platform).MeetsAll (historyService s settings) moves
      ⟨⟨w, []⟩, []⟩) :
    let r := ((historyService s settings).run moves ⟨⟨w, []⟩, []⟩).world.world.record
    LogKept r ∧ ∀ target key time now,
      let outcome := commit r (transitionFulfillmentOnce s.platform target key time now r)
      (∀ event, r.stateEvent key = some event →
          outcome.2.order.state = r.order.state ∧ outcome.2.stateEvents = r.stateEvents) ∧
        ∀ e, outcome.1 = .error e → outcome.2 = r := by
  intro r
  have kept : HistoryKept r := by
    refine run_inv_of_only (fun w : HistoryWorld => HistoryKept w.world.record) WorkerKeyed
      ?_ ?_ (starts_workerKeyed s settings) (kept_of_reserved reserved) ?_ fresh
    · exact fun _ env q w mine held _ => answer_kept s env mine held
    · exact fun a w held meets => arriveHistory_kept s guard a held meets
    · exact fun _ started => absurd started List.not_mem_nil
  refine ⟨kept.log, fun target key time now => ⟨fun event known => repeated_transition known, ?_⟩⟩
  intro e failed
  cases done : transitionFulfillmentOnce s.platform target key time now r with
  | error e' => rfl
  | ok result =>
    rw [done] at failed
    cases failed

/-! ## A refund between the authentication and the lock of a download

The order is paid and pending at the calendars. The second transaction of a download
authenticates, the refund commits, and the download then records what it loaded. -/

open VerifiedOrders (sampleServices sampleTime)

def reservedRecord : OrderRecord :=
  { createdRecord with stateEvents := [checkoutEvent createdRecord (sampleTime 0)] }

def reservedConfig : HistoryConfig := ⟨⟨⟨reservedRecord, sampleTime 0, 100⟩, []⟩, []⟩

def onOrder : Move Env OrderArrival → Move Env HistoryArrival
  | .serve run env => .serve run env
  | .arrive a => .arrive (.order a)
  | .crash run => .crash run

def refundEvent : ProviderEvent :=
  { paidEvent with
    eventId := "evt_2"
    eventType := .chargeRefunded
    refundStatus := some "succeeded"
    refundedAmount := some 500 }

def refundedCheckout : CanonicalCheckout :=
  { paidCheckout with refundStatus := some "succeeded", refundedAmountTotal := 500 }

def refundArrives : Move Env HistoryArrival :=
  .arrive (.order (.payment (paymentEnv 20 refundedCheckout)
    (.commitEvent refundEvent samplePayload (some refundedCheckout))))

def toCalendars : List (Move Env HistoryArrival) := checkoutToCalendars.map onOrder

/-- Both transactions of a download authenticate; the version is selected in between. -/
def downloadOpens : List (Move Env HistoryArrival) :=
  [.arrive .authenticate, .arrive (.select 0), .arrive (.authenticateAgain 0)]

def downloadRecords : Move Env HistoryArrival := .arrive (.recordDownload 0 7 (sampleTime 21))

def freshDownload : List (Move Env HistoryArrival) :=
  toCalendars ++ downloadOpens ++ [downloadRecords, refundArrives]

def staleDownload : List (Move Env HistoryArrival) :=
  toCalendars ++ downloadOpens ++ [refundArrives, downloadRecords]

set_option maxRecDepth 8000 in
theorem download_before_refund_is_logged :
    let r := ((historyService sampleServices sampleSettings).run freshDownload
      reservedConfig).world.world.record
    r.stateEvents.length = 7 ∧ r.order.paymentState = .refunded ∧ LogKept r :=
  ⟨by decide, by decide, (log_is_history sampleServices sampleSettings rfl
    ⟨reservedRecord, sampleTime 0, 100⟩ ⟨rfl, rfl, _, rfl⟩ freshDownload (by decide)).1⟩

set_option maxRecDepth 8000 in
/-- The download's event says that the refunded order is paid. -/
theorem stale_download_breaks_history :
    let r := ((historyService sampleServices sampleSettings).run staleDownload
      reservedConfig).world.world.record
    Reserved reservedConfig.world.world.record ∧ r.order.paymentState = .refunded ∧
      ¬LogKept r :=
  ⟨⟨rfl, rfl, _, rfl⟩, by decide, fun kept => absurd kept.current (by decide)⟩

end StateEventLog
