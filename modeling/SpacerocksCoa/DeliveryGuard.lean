import SpacerocksCoa.OrderStateMachine
import SpacerocksCoa.OutboxLeases

/-!
# The delivery guard of the database

The evidence for a delivered order is checked twice: by the transaction that applies a
delivered event, and by the trigger on the order row. Over every run of the service, with
senders claiming messages and recording outcomes, the first check implies the second, so
that the trigger never ends such a transaction. Moreover a delivered order keeps the
evidence its bundle is served under.

The converse is not claimed: the application also checks the recipient, the payload and the
hashes, which the trigger does not look at. Rows of other orders appear only as the rows
that a claim finds locked.
-/
namespace DeliveryGuard
open OrderStates ProofRecords OrderRows JobClaims FulfillmentAdapters NotificationAdapters
open FulfillmentHandlers WorkerRuns PaymentWebhooks OrderStateMachine
open TransactionalPrograms TransactionalPrograms.Prog

/-! ## Senders beside the writers of the order -/

inductive SenderArrival where
  | claim (workerId : String) (now leaseFor : Int) (token : Nat) (locked : List Nat)
  | retry (message : ClaimedNotification) (now retryAt : Instant) (code : String)
      (responseStatus : Option Nat)
  | terminalFailure (message : ClaimedNotification) (now : Instant) (code : String)
      (responseStatus : Option Nat)

def outboxOf (r : OrderRecord) : OutboxLeases.Outbox := ⟨r.outbox, r.notificationAttempts⟩

/-- The table after a transaction of a sender; an error leaves it alone. -/
def sendOutbox (p : Platform) (o : OutboxLeases.Outbox) : SenderArrival → OutboxLeases.Outbox
  | .claim workerId now leaseFor token locked =>
    match OutboxLeases.claim p.sha256 workerId now leaseFor token locked o with
    | .ok (_, o') => o'
    | .error _ => o
  | .retry message now retryAt code status =>
    match OutboxLeases.recordRetry message now retryAt code status o with
    | .ok o' => o'
    | .error _ => o
  | .terminalFailure message now code status =>
    match OutboxLeases.recordTerminalFailure message now code status o with
    | .ok o' => o'
    | .error _ => o

def send (p : Platform) (r : OrderRecord) (a : SenderArrival) : OrderRecord :=
  { r with
    outbox := (sendOutbox p (outboxOf r) a).rows
    notificationAttempts := (sendOutbox p (outboxOf r) a).attempts }

inductive DeliveryArrival where
  | order (arrival : OrderArrival)
  | sender (arrival : SenderArrival)

/-- The primary key of the outbox: a message under a used identifier is not inserted. -/
def keyFree (r : OrderRecord) : OrderArrival → Bool
  | .payment env _ => r.outbox.all fun m => m.id != env.messageId
  | .worker _ => true
  | .bindSession _ => true

def arriveDelivery (s : Services) (settings : PaymentSettings) (w : World) :
    DeliveryArrival → World × List HandlerRun
  | .order arrival => if keyFree w.record arrival then arriveOrder s settings w arrival else (w, [])
  | .sender arrival => ({ w with record := send s.platform w.record arrival }, [])

def deliveryService (s : Services) (settings : PaymentSettings) :
    Service Request Reply Failure RunEnd (Option ClaimedJob) World Env DeliveryArrival where
  perform := perform s
  arrive a w := arriveDelivery s settings w a

/-! ## What is served and what is claimed -/

/-- `_valid_delivery_sender`, under which the bundle of a version is handed out. -/
def validDeliverySender (r : OrderRecord) (proofVersion : Nat) (sender : OutboxRecord) : Bool :=
  sender.kind == .notification .initialConfirmation && sender.state == .delivered &&
    sender.proofVersion == some proofVersion &&
    sender.confirmationCount.any (fun count => decide (1 ≤ count)) &&
    sender.providerMessageId.isSome && sender.acceptedAt.isSome && sender.deliveredAt.isSome &&
    (sender.confirmationObservationId.bind r.observation).any (fun observation =>
      observation.proofVersion == proofVersion &&
        some observation.observedConfirmations == sender.confirmationCount) &&
    r.resendEvents.any fun event => some event.providerMessageId == sender.providerMessageId &&
      event.eventType == .delivered

/-- The initial notice with everything it stands for. -/
structure Evidenced (r : OrderRecord) (version : Nat) (sender : OutboxRecord) : Prop where
  stored : sender ∈ r.outbox
  key : sender.messageKey =
    .milestone ⟨.initialConfirmation, version, r.order.snapshot.orderReference⟩
  valid : validDeliverySender r version sender = true
  verification : (r.verification version).isSome = true
  bundle : (r.bundle version).isSome = true

def withoutGuard (p : Platform) : Platform := { p with databaseGuard := false }

/-- The three ways in which a delivered event takes effect go the same way with the trigger
and without it, and what moves the order passes the trigger. -/
structure GuardAgrees (p : Platform) (r : OrderRecord) : Prop where
  event : ∀ event payloadSha256 now,
    processEvent p event payloadSha256 now r =
      processEvent (withoutGuard p) event payloadSha256 now r
  accepted : ∀ message acceptance now,
    recordAccepted p message acceptance now r =
      recordAccepted (withoutGuard p) message acceptance now r
  passes : ∀ r', (∃ event payloadSha256 now result,
        processEvent (withoutGuard p) event payloadSha256 now r = .ok (result, r')) ∨
      (∃ message acceptance now,
        recordAccepted (withoutGuard p) message acceptance now r = .ok r') →
    r.order.fulfillmentState = .bitcoinVerified → r'.order.fulfillmentState = .delivered →
    enforceOrderStateTransition r.order r' = true

/-! ## The check of the application implies the check of the trigger -/

section
variable {p : Platform} {r : OrderRecord} {record : OutboxRecord} {event : ResendWebhookEvent}

lemma minimumConfirmations_pos (kind : NotificationKind) : 1 ≤ kind.minimumConfirmations := by
  cases kind <;> decide

lemma deliverable_evidence (able : deliverable p r record event = true) :
    record.acceptedAt.isSome = true ∧ record.providerMessageId = some event.providerMessageId ∧
      event.eventType = .delivered ∧
      (r.order.fulfillmentState = .bitcoinVerified ∨ r.order.fulfillmentState = .delivered) ∧
      ∃ kind version count observationId,
        record.kind = .notification kind ∧ record.proofVersion = some version ∧
          record.confirmationCount = some count ∧
          record.confirmationObservationId = some observationId ∧
          kind.minimumConfirmations ≤ count ∧
          record.messageKey = .milestone ⟨kind, version, r.order.snapshot.orderReference⟩ ∧
          proofEvidenceMatches p r version count observationId kind.minimumConfirmations =
            true := by
  simp only [deliverable, deliveryEvidenceMatches, Bool.and_eq_true, Bool.or_eq_true, bne_iff_ne,
    beq_iff_eq] at able
  obtain ⟨⟨⟨⟨⟨-, accepted⟩, id⟩, delivered⟩, -, rest⟩, state⟩ := able
  refine ⟨accepted, id, delivered, state, ?_⟩
  split at rest
  · next kind version count observationId isKind isVersion isCount isObservation =>
    simp only [Bool.and_eq_true, decide_eq_true_iff, beq_iff_eq] at rest
    obtain ⟨⟨⟨⟨enough, key⟩, -⟩, -⟩, evidence⟩ := rest
    exact ⟨kind, version, count, observationId, isKind, isVersion, isCount, isObservation, enough,
      key, evidence⟩
  · cases rest

/-- The clauses that the trigger joins over follow from those of the application. -/
lemma evidence_joins {version count observationId threshold : Nat} (positive : 1 ≤ threshold)
    (evidence : proofEvidenceMatches p r version count observationId threshold = true) :
    ∃ proof v bound current, r.latestProof = some proof ∧ proof.version = version ∧
      r.verification version = some v ∧ (r.bundle version).isSome = true ∧
      r.observation observationId = some bound ∧ bound.proofVersion = version ∧
      bound.observedConfirmations = count ∧ 1 ≤ bound.observedConfirmations ∧
      bound.matchesVerification v = true ∧ r.latestObservation version = some current ∧
      1 ≤ current.observedConfirmations ∧ current.matchesVerification v = true := by
  unfold proofEvidenceMatches at evidence
  split at evidence
  · cases evidence
  · next proof latest =>
    split at evidence
    · next v bundle verified bundled =>
      simp only [notificationObservationMatches, Bool.and_eq_true, Option.any_eq_true,
        decide_eq_true_iff, beq_iff_eq] at evidence
      obtain ⟨⟨⟨⟨⟨isVersion, -⟩, -⟩, ⟨bound, found, ⟨⟨own, counted⟩, enough⟩, same⟩, current,
        latestOne, enough', same'⟩, -⟩, -⟩ := evidence
      refine ⟨proof, v, bound, current, latest, isVersion, verified, ?_, found, own, counted,
        Nat.le_trans positive enough, same, latestOne, Nat.le_trans positive enough', same'⟩
      rw [bundled]
      rfl
    · cases evidence

lemma latestDelivered_intro {proof : ProofVersion} {v : ProofVerification} {sender : OutboxRecord}
    (latest : r.latestProof = some proof) (verified : r.verification proof.version = some v)
    (bundled : (r.bundle proof.version).isSome = true) (stored : sender ∈ r.outbox)
    (evidence : senderEvidence r proof.version v sender = true) : latestDelivered r = true := by
  unfold latestDelivered
  simp only [latest, verified, bundled, Bool.true_and]
  exact List.any_eq_true.2 ⟨sender, stored, evidence⟩

/-- The row, once delivered, is the evidence that the trigger wants. -/
lemma latestDelivered_of_deliverable (member : record ∈ r.outbox) (stored : event ∈ r.resendEvents)
    (able : deliverable p r record event = true)
    (initial : record.kind ≠ .notification .finalConfirmation) (order : Order)
    (snapshot : order.snapshot = r.order.snapshot) (stateEvents : List StateEvent) :
    latestDelivered { modifyMessage record.id (markDelivered event) r with
      order := order, stateEvents := stateEvents } = true := by
  obtain ⟨accepted, id, delivered, -, kind, version, count, observationId, isKind, isVersion,
    isCount, isObservation, enough, key, evidence⟩ := deliverable_evidence able
  have positive := minimumConfirmations_pos kind
  obtain ⟨proof, v, bound, current, latest, ofVersion, verified, bundled, found, own, counted,
    some_, same, latestOne, some', same'⟩ := evidence_joins positive evidence
  have first : kind = .initialConfirmation := by
    cases kind with
    | initialConfirmation => rfl
    | finalConfirmation => exact absurd isKind initial
  subst first
  subst counted
  subst ofVersion
  have stays : markDelivered event record ∈
      (modifyMessage record.id (markDelivered event) r).outbox := by
    refine List.mem_map.2 ⟨record, member, ?_⟩
    rw [if_pos rfl]
  refine latestDelivered_intro latest verified bundled stays ?_
  have events : r.resendEvents.any (fun e =>
      some e.providerMessageId == record.providerMessageId && e.eventType == .delivered) = true :=
    List.any_eq_true.2 ⟨event, stored, by simp [id, delivered]⟩
  have boundTo : (record.confirmationObservationId.bind r.observation).any (fun bound =>
      bound.proofVersion == proof.version &&
        some bound.observedConfirmations == record.confirmationCount &&
        decide (1 ≤ bound.observedConfirmations) && bound.matchesVerification v) = true := by
    simp [isObservation, found, own, isCount, same, some_]
  have currently : (r.latestObservation proof.version).any (fun current =>
      decide (1 ≤ current.observedConfirmations) && current.matchesVerification v) = true := by
    simp [latestOne, some', same']
  unfold senderEvidence
  simp only [Bool.and_eq_true]
  refine ⟨⟨⟨⟨⟨⟨⟨⟨⟨⟨?_, ?_⟩, ?_⟩, ?_⟩, rfl⟩, ?_⟩, accepted⟩, rfl⟩, events⟩, boundTo⟩, currently⟩
  · rw [snapshot, beq_iff_eq]
    exact key
  · rw [beq_iff_eq]
    exact isKind
  · rw [beq_iff_eq]
    exact isVersion
  · change record.confirmationCount.any _ = true
    rw [isCount]
    exact decide_eq_true (Nat.le_trans positive enough)
  · change record.providerMessageId.isSome = true
    rw [id]
    rfl

/-- The row of the order moves along an edge of its table and keeps its constraint. -/
lemma enforce_of_deliverable (member : record ∈ r.outbox) (stored : event ∈ r.resendEvents)
    (able : deliverable p r record event = true)
    (initial : record.kind ≠ .notification .finalConfirmation)
    (waiting : r.order.fulfillmentState ≠ .delivered) (settled : Settled r.order.paymentState)
    (stateEvents : List StateEvent) :
    enforceOrderStateTransition r.order { modifyMessage record.id (markDelivered event) r with
      order := { r.order with fulfillmentState := .delivered }, stateEvents := stateEvents } =
        true := by
  obtain ⟨-, -, -, states, -⟩ := deliverable_evidence able
  have verified := states.resolve_right waiting
  have evidence := latestDelivered_of_deliverable member stored able initial
    { r.order with fulfillmentState := .delivered } rfl stateEvents
  have edge : FulfillmentEdge r.order.fulfillmentState .delivered := by
    rw [verified]
    decide
  have payment : PaymentEdge r.order.paymentState r.order.paymentState := Or.inl rfl
  unfold enforceOrderStateTransition
  rw [evidence]
  simp [payment, edge, paidBeforeWork, settled]

/-- An application that would move the order is not stopped by the trigger. -/
lemma applyDeliveredEvent_agrees (member : record ∈ r.outbox) (stored : event ∈ r.resendEvents)
    (coupled : r.order.fulfillmentState = .bitcoinVerified → Settled r.order.paymentState)
    (now : Instant) :
    applyDeliveredEvent p record event now r =
      applyDeliveredEvent (withoutGuard p) record event now r ∧
    ∀ result r', applyDeliveredEvent (withoutGuard p) record event now r = .ok (result, r') →
      r.order.fulfillmentState = .bitcoinVerified → r'.order.fulfillmentState = .delivered →
      enforceOrderStateTransition r.order r' = true := by
  have same : deliverable (withoutGuard p) r record event = deliverable p r record event := rfl
  unfold applyDeliveredEvent
  rw [same]
  cases able : deliverable p r record event with
  | false =>
    refine ⟨rfl, fun result r' done verified delivered => ?_⟩
    cases done
    rw [verified] at delivered
    cases delivered
  | true =>
    simp only [Bool.true_eq_false, if_false]
    by_cases messageOnly : record.kind = .notification .finalConfirmation ∨
        r.order.fulfillmentState = .delivered
    · simp only [if_pos messageOnly]
      refine ⟨trivial, fun result r' done verified delivered => ?_⟩
      cases done
      change r.order.fulfillmentState = .delivered at delivered
      rw [verified] at delivered
      cases delivered
    · simp only [if_neg messageOnly]
      rw [not_or] at messageOnly
      obtain ⟨-, -, -, states, -⟩ := deliverable_evidence able
      have settled := coupled (states.resolve_right messageOnly.2)
      have passes := enforce_of_deliverable member stored able messageOnly.1 messageOnly.2 settled
        (r.stateEvents ++ [newStateEvent r (.resendDelivered event.svixEventId) .resendWebhook
          { r.order with fulfillmentState := .delivered } now])
      constructor
      · unfold guarded
        rw [passes]
        simp [withoutGuard]
      · intro result r' done _ _
        obtain ⟨-, rfl, -⟩ := guarded_ok done
        exact passes

/-- Between the acceptance of a message and the event it finds, the row is already there. -/
lemma finishAccepted_mem {message : ClaimedNotification} {acceptance : ProviderAcceptance}
    {now : Instant} (member : record ∈ r.outbox) (own : record.id = message.id) :
    markAccepted acceptance.messageId now record ∈
      (finishAccepted message acceptance now r).outbox := by
  refine List.mem_map.2 ⟨record, member, ?_⟩
  rw [if_pos own]

lemma earliestDelivered_mem {messageId : String}
    (found : earliestDelivered messageId r = some event) : event ∈ r.resendEvents :=
  (List.mem_filter.1 (List.argmin_mem found)).1

lemma processEvent_agrees
    (coupled : r.order.fulfillmentState = .bitcoinVerified → Settled r.order.paymentState)
    (event : VerifiedResendEvent) (payloadSha256 : Sha256) (now : Instant) :
    processEvent p event payloadSha256 now r =
      processEvent (withoutGuard p) event payloadSha256 now r ∧
    ∀ result r', processEvent (withoutGuard p) event payloadSha256 now r = .ok (result, r') →
      r.order.fulfillmentState = .bitcoinVerified → r'.order.fulfillmentState = .delivered →
      enforceOrderStateTransition r.order r' = true := by
  have still : ∀ r' : OrderRecord, r'.order = r.order →
      r.order.fulfillmentState = .bitcoinVerified → r'.order.fulfillmentState = .delivered →
      enforceOrderStateTransition r.order r' = true := by
    intro r' same verified delivered
    rw [same, verified] at delivered
    cases delivered
  unfold processEvent
  cases known : r.resendEvents.find? (fun e => e.svixEventId == event.svixEventId) with
  | some existing =>
    have stored : existing ∈ r.resendEvents := List.mem_of_find?_eq_some known
    simp only
    split
    · unfold reconcileReplayedEvent
      split
      · refine ⟨rfl, fun result r' done => ?_⟩
        cases done
        exact still _ rfl
      · cases found : messageOfProvider existing.providerMessageId r with
        | none =>
          refine ⟨rfl, fun result r' done => ?_⟩
          cases done
          exact still _ rfl
        | some record =>
          have member : record ∈ r.outbox := List.mem_of_find?_eq_some found
          obtain ⟨agrees, passes⟩ := applyDeliveredEvent_agrees (p := p) member stored coupled now
          simp only
          split
          · refine ⟨rfl, fun result r' done => ?_⟩
            cases done
            exact still _ rfl
          · rw [agrees]
            refine ⟨rfl, fun result r' done => ?_⟩
            cases applied : applyDeliveredEvent (withoutGuard p) record existing now r with
            | error e => rw [applied] at done; cases done
            | ok outcome =>
              rw [applied] at done
              cases done
              exact passes _ _ applied
    · exact ⟨rfl, fun result r' done => by cases done⟩
  | none =>
    simp only
    cases found : messageOfProvider event.providerMessageId r with
    | none =>
      refine ⟨rfl, fun result r' done => ?_⟩
      cases done
      exact still _ rfl
    | some record =>
      have member : record ∈ r.outbox := List.mem_of_find?_eq_some found
      have stored : storedEvent event payloadSha256 now ∈
          r.resendEvents ++ [storedEvent event payloadSha256 now] :=
        List.mem_append_right _ (List.mem_singleton_self _)
      obtain ⟨agrees, passes⟩ := applyDeliveredEvent_agrees (p := p)
        (r := { r with
          resendEvents := r.resendEvents ++ [storedEvent event payloadSha256 now] })
        member stored coupled now
      simp only
      split
      · refine ⟨rfl, fun result r' done => ?_⟩
        cases done
        exact still _ rfl
      · split
        · refine ⟨rfl, fun result r' done => ?_⟩
          cases done
          exact still _ rfl
        · split
          · refine ⟨rfl, fun result r' done => ?_⟩
            cases done
            exact still _ rfl
          · exact ⟨agrees, fun result r' done => passes result r' done⟩

lemma recordAccepted_agrees
    (coupled : r.order.fulfillmentState = .bitcoinVerified → Settled r.order.paymentState)
    (message : ClaimedNotification) (acceptance : ProviderAcceptance) (now : Instant) :
    recordAccepted p message acceptance now r =
      recordAccepted (withoutGuard p) message acceptance now r ∧
    ∀ r', recordAccepted (withoutGuard p) message acceptance now r = .ok r' →
      r.order.fulfillmentState = .bitcoinVerified → r'.order.fulfillmentState = .delivered →
      enforceOrderStateTransition r.order r' = true := by
  unfold recordAccepted
  split
  · exact ⟨rfl, fun r' done => by cases done⟩
  · cases active : activeLease message now r with
    | error e => exact ⟨rfl, fun r' done => by cases done⟩
    | ok record =>
      have lease : OutboxLeases.activeLease message now (outboxOf r) = .ok record := active
      obtain ⟨member, own, -⟩ := OutboxLeases.activeLease_ok lease
      simp only
      split
      · exact ⟨rfl, fun r' done => by cases done⟩
      · cases early : earliestDelivered acceptance.messageId
            (finishAccepted message acceptance now r) with
        | none =>
          refine ⟨rfl, fun r' done verified delivered => ?_⟩
          cases done
          change r.order.fulfillmentState = .delivered at delivered
          rw [verified] at delivered
          cases delivered
        | some event =>
          have there : markAccepted acceptance.messageId now record ∈
              (finishAccepted message acceptance now r).outbox := finishAccepted_mem member own
          obtain ⟨agrees, passes⟩ := applyDeliveredEvent_agrees (p := p)
            (r := finishAccepted message acceptance now r) there (earliestDelivered_mem early)
            coupled now
          simp only
          rw [agrees]
          refine ⟨rfl, fun r' done => ?_⟩
          cases applied : applyDeliveredEvent (withoutGuard p)
              (markAccepted acceptance.messageId now record) event now
              (finishAccepted message acceptance now r) with
          | error e => rw [applied] at done; cases done
          | ok outcome =>
            rw [applied] at done
            cases done
            exact passes _ _ applied

lemma guardAgrees_of_coupled (p : Platform)
    (coupled : r.order.fulfillmentState = .bitcoinVerified → Settled r.order.paymentState) :
    GuardAgrees p r where
  event event payloadSha256 now := (processEvent_agrees coupled event payloadSha256 now).1
  accepted message acceptance now := (recordAccepted_agrees coupled message acceptance now).1
  passes r' := by
    rintro (⟨event, payloadSha256, now, result, done⟩ | ⟨message, acceptance, now, done⟩)
    · exact (processEvent_agrees (p := p) coupled event payloadSha256 now).2 result r' done
    · exact (recordAccepted_agrees (p := p) coupled message acceptance now).2 r' done

end

/-! ## Evidence stays -/

/-- What no step takes away from the record. -/
structure Retains (r r' : OrderRecord) : Prop where
  snapshot : r'.order.snapshot = r.order.snapshot
  delivered : ∀ m ∈ r.outbox, m.state = .delivered → m ∈ r'.outbox
  observation : ∀ id o, r.observation id = some o → r'.observation id = some o
  events : ∀ e ∈ r.resendEvents, e ∈ r'.resendEvents
  verification : ∀ version, (r.verification version).isSome = true →
    (r'.verification version).isSome = true
  bundle : ∀ version, (r.bundle version).isSome = true → (r'.bundle version).isSome = true

/-- Messages keep their identifiers apart, and a delivered order has its evidence. -/
structure DeliveryKept (r : OrderRecord) : Prop where
  ids : (r.outbox.map OutboxRecord.id).Nodup
  evidence : r.order.fulfillmentState = .delivered → ∃ version sender, Evidenced r version sender

section
variable {p : Platform} {r r' : OrderRecord}

lemma Evidenced.retain {version : Nat} {sender : OutboxRecord}
    (evidenced : Evidenced r version sender) (retains : Retains r r') :
    Evidenced r' version sender := by
  have valid := evidenced.valid
  simp only [validDeliverySender, Bool.and_eq_true, beq_iff_eq] at valid
  obtain ⟨⟨⟨⟨⟨⟨⟨⟨kind, state⟩, ofVersion⟩, count⟩, id⟩, accepted⟩, delivered⟩, bound⟩, event⟩ :=
    valid
  refine ⟨retains.delivered sender evidenced.stored state, ?_, ?_,
    retains.verification version evidenced.verification, retains.bundle version evidenced.bundle⟩
  · rw [retains.snapshot]
    exact evidenced.key
  · have bound' : (sender.confirmationObservationId.bind r'.observation).any (fun observation =>
        observation.proofVersion == version &&
          some observation.observedConfirmations == sender.confirmationCount) = true := by
      obtain ⟨observation, found, agrees⟩ := (Option.any_eq_true _ _).1 bound
      obtain ⟨key, isKey, stored⟩ := Option.bind_eq_some_iff.1 found
      refine (Option.any_eq_true _ _).2 ⟨observation, ?_, agrees⟩
      exact Option.bind_eq_some_iff.2 ⟨key, isKey, retains.observation key observation stored⟩
    have event' : r'.resendEvents.any (fun event =>
        some event.providerMessageId == sender.providerMessageId &&
          event.eventType == .delivered) = true := by
      obtain ⟨e, stored, agrees⟩ := List.any_eq_true.1 event
      exact List.any_eq_true.2 ⟨e, retains.events e stored, agrees⟩
    simp only [validDeliverySender, Bool.and_eq_true, beq_iff_eq]
    exact ⟨⟨⟨⟨⟨⟨⟨⟨kind, state⟩, ofVersion⟩, count⟩, id⟩, accepted⟩, delivered⟩, bound'⟩, event'⟩

/-- The evidence of the trigger is the evidence the bundle is served under. -/
lemma evidenced_of_latestDelivered (h : latestDelivered r = true) :
    ∃ version sender, Evidenced r version sender := by
  unfold latestDelivered at h
  split at h
  · cases h
  · next latest _ =>
    split at h
    · cases h
    · next v verified =>
      rw [Bool.and_eq_true] at h
      obtain ⟨bundled, some_⟩ := h
      obtain ⟨sender, stored, evidence⟩ := List.any_eq_true.1 some_
      simp only [senderEvidence, Bool.and_eq_true, beq_iff_eq] at evidence
      obtain ⟨⟨⟨⟨⟨⟨⟨⟨⟨⟨key, kind⟩, ofVersion⟩, count⟩, state⟩, id⟩, accepted⟩, delivered⟩, event⟩,
        bound⟩, -⟩ := evidence
      refine ⟨latest.version, sender, stored, key, ?_, ?_, bundled⟩
      · have bound' : (sender.confirmationObservationId.bind r.observation).any (fun observation =>
            observation.proofVersion == latest.version &&
              some observation.observedConfirmations == sender.confirmationCount) = true := by
          obtain ⟨observation, found, agrees⟩ := (Option.any_eq_true _ _).1 bound
          simp only [Bool.and_eq_true] at agrees
          refine (Option.any_eq_true _ _).2 ⟨observation, found, ?_⟩
          rw [Bool.and_eq_true]
          exact agrees.1.1
        simp only [validDeliverySender, Bool.and_eq_true, beq_iff_eq]
        exact ⟨⟨⟨⟨⟨⟨⟨⟨kind, state⟩, ofVersion⟩, count⟩, id⟩, accepted⟩, delivered⟩, bound'⟩, event⟩
      · rw [verified]
        rfl

lemma DeliveryKept.retain (kept : DeliveryKept r) (retains : Retains r r')
    (ids : (r'.outbox.map OutboxRecord.id).Nodup)
    (arrived : r'.order.fulfillmentState = .delivered →
      r.order.fulfillmentState = .delivered ∨ latestDelivered r' = true) : DeliveryKept r' := by
  refine ⟨ids, fun delivered => ?_⟩
  rcases arrived delivered with before | evidence
  · obtain ⟨version, sender, evidenced⟩ := kept.evidence before
    exact ⟨version, sender, evidenced.retain retains⟩
  · exact evidenced_of_latestDelivered evidence

/-- What the trigger lets through into delivered has the evidence. -/
lemma enforce_delivered {before : Order} (passes : enforceOrderStateTransition before r = true)
    (delivered : r.order.fulfillmentState = .delivered) :
    before.fulfillmentState = .delivered ∨ latestDelivered r = true := by
  simp only [enforceOrderStateTransition, delivered, Bool.and_eq_true, Bool.or_eq_true, beq_iff_eq,
    bne_self_eq_false, Bool.false_eq_true, false_or] at passes
  exact passes.1.2.imp id fun checks => checks.2

/-- Only the order row without its snapshot, the proofs, the log or the jobs change. -/
lemma retains_of_same (snapshot : r'.order.snapshot = r.order.snapshot)
    (outbox : r'.outbox = r.outbox) (observations : r'.observations = r.observations)
    (events : r'.resendEvents = r.resendEvents) (verifications : r'.verifications = r.verifications)
    (bundles : r'.bundles = r.bundles) : Retains r r' := by
  refine ⟨snapshot, fun m member _ => ?_, fun id o found => ?_, fun e member => ?_,
    fun version found => ?_, fun version found => ?_⟩
  · rw [outbox]
    exact member
  · rw [OrderRecord.observation, observations]
    exact found
  · rw [events]
    exact member
  · rw [OrderRecord.verification, verifications]
    exact found
  · rw [OrderRecord.bundle, bundles]
    exact found

lemma find_append_isSome {α : Type} {test : α → Bool} {l : List α} (more : List α)
    (found : (l.find? test).isSome = true) : ((l ++ more).find? test).isSome = true :=
  (List.sublist_append_left l more).find?_isSome found

/-! ### Requests -/

lemma DeliveryKept.same_messages (kept : DeliveryKept r) (retains : Retains r r')
    (outbox : r'.outbox = r.outbox) (fulfillment : r'.order.fulfillmentState = .delivered →
      r.order.fulfillmentState = .delivered ∨ latestDelivered r' = true) : DeliveryKept r' := by
  refine kept.retain retains ?_ fulfillment
  rw [outbox]
  exact kept.ids

lemma mergeCalendarTime_same {order order' : Order} {time : Option Instant}
    (h : mergeCalendarTime order time = .ok order') :
    order'.snapshot = order.snapshot ∧ order'.fulfillmentState = order.fulfillmentState := by
  obtain ⟨rfl, -⟩ := mergeCalendarTime_ok h
  exact ⟨rfl, rfl⟩

lemma DeliveryKept.transition (kept : DeliveryKept r) (guard : p.databaseGuard = true)
    {target : FulfillmentState} {key : EventKey} {time : Option Instant} {now : Instant}
    {result : FulfillmentOrder}
    (h : transitionFulfillmentOnce p target key time now r = .ok (result, r')) :
    DeliveryKept r' := by
  obtain ⟨-, merged, merge, cases'⟩ := transitionFulfillmentOnce_ok h
  obtain ⟨snapshot, fulfillment⟩ := mergeCalendarTime_same merge
  rcases cases' with ⟨rfl, -⟩ | ⟨-, -, -, -, rfl, passes⟩
  · exact kept.same_messages (retains_of_same snapshot rfl rfl rfl rfl rfl) rfl
      fun delivered => Or.inl (fulfillment.symm.trans delivered)
  · exact kept.same_messages (retains_of_same snapshot rfl rfl rfl rfl rfl) rfl
      fun delivered => enforce_delivered (passes guard) delivered

lemma DeliveryKept.append (kept : DeliveryKept r) {proof : StoredProof Instant}
    (h : FulfillmentAdapters.append proof r = .ok r') : DeliveryKept r' := by
  obtain ⟨order, merge, -, ⟨rfl, -⟩ | ⟨rfl, -⟩⟩ := append_ok h
  · obtain ⟨snapshot, fulfillment⟩ := mergeCalendarTime_same merge
    exact kept.same_messages (retains_of_same snapshot rfl rfl rfl rfl rfl) rfl
      fun delivered => Or.inl (fulfillment.symm.trans delivered)
  · obtain ⟨snapshot, fulfillment⟩ := mergeCalendarTime_same merge
    refine kept.same_messages ⟨snapshot, fun _ member _ => member, fun _ _ found => found,
      fun _ member => member, fun version found => ?_, fun _ found => found⟩ rfl
      fun delivered => Or.inl (fulfillment.symm.trans delivered)
    exact find_append_isSome _ found

lemma DeliveryKept.putVerifiedOnce (kept : DeliveryKept r) {version : Nat}
    {result : BitcoinVerification Instant}
    (h : FulfillmentAdapters.putVerifiedOnce version result r = .ok r') : DeliveryKept r' := by
  obtain ⟨_, _, -, -, -, -, ⟨rfl, -⟩ | ⟨-, rfl⟩⟩ := putVerifiedOnce_ok h
  · exact kept
  · exact kept.same_messages ⟨rfl, fun _ member _ => member, fun _ _ found => found,
      fun _ member => member, fun _ found => find_append_isSome _ found, fun _ found => found⟩ rfl
      fun delivered => Or.inl delivered

lemma DeliveryKept.putOnce (kept : DeliveryKept r) {version : Nat} {bundle : Bytes}
    (h : FulfillmentAdapters.putOnce p version bundle r = .ok r') : DeliveryKept r' := by
  obtain ⟨-, ⟨rfl, -⟩ | ⟨-, rfl⟩⟩ := putOnce_ok h
  · exact kept
  · exact kept.same_messages ⟨rfl, fun _ member _ => member, fun _ _ found => found,
      fun _ member => member, fun _ found => found, fun _ found => find_append_isSome _ found⟩ rfl
      fun delivered => Or.inl delivered

lemma DeliveryKept.recordOnce (kept : DeliveryKept r) {version : Nat} {key : ObservationKey}
    {verification : BitcoinVerification Instant} {now : Instant} {freshId : Nat} {o : Observation}
    (h : NotificationAdapters.recordOnce version key verification now freshId r = .ok (o, r')) :
    DeliveryKept r' := by
  obtain ⟨_, _, _, -, -, -, -, -, ⟨rfl, -⟩ | ⟨-, -, -, rfl⟩⟩ := recordOnce_ok h
  · exact kept
  · exact kept.same_messages ⟨rfl, fun _ member _ => member,
      fun _ _ found => (List.prefix_append _ _).find?_eq_some found, fun _ member => member,
      fun _ found => found, fun _ found => found⟩ rfl
      fun delivered => Or.inl delivered

/-- A message under a new identifier. -/
lemma DeliveryKept.insert (kept : DeliveryKept r) {m : OutboxRecord}
    (fresh : ∀ other ∈ r.outbox, other.id ≠ m.id) (snapshot : r'.order.snapshot = r.order.snapshot)
    (outbox : r'.outbox = r.outbox ++ [m]) (observations : r'.observations = r.observations)
    (events : r'.resendEvents = r.resendEvents) (verifications : r'.verifications = r.verifications)
    (bundles : r'.bundles = r.bundles) (fulfillment : r'.order.fulfillmentState = .delivered →
      r.order.fulfillmentState = .delivered) : DeliveryKept r' := by
  have rest : Retains r { r' with outbox := r.outbox } :=
    retains_of_same snapshot rfl observations events verifications bundles
  refine kept.retain ⟨snapshot, fun other member _ => ?_, rest.observation, rest.events,
    rest.verification, rest.bundle⟩ ?_ fun delivered => Or.inl (fulfillment delivered)
  · rw [outbox]
    exact List.mem_append_left _ member
  · rw [outbox, List.map_append]
    refine List.nodup_append.2 ⟨kept.ids, List.nodup_singleton _, fun id used new isNew => ?_⟩
    obtain ⟨other, known, rfl⟩ := List.mem_map.1 used
    rw [List.map_cons, List.map_nil, List.mem_singleton] at isNew
    rw [isNew]
    exact fresh other known

lemma enqueue_fresh {message : OutboxMessage} {now : Instant} {freshId : Nat}
    (h : enqueue message now freshId r = .ok r') :
    r' = r ∨ ∃ observation, (∀ other ∈ r.outbox, other.id ≠ freshId) ∧
      r' = { r with outbox := r.outbox ++ [newMessage freshId message observation now] } := by
  unfold enqueue at h
  split at h
  · cases h
  · iterate 4 (split at h; · cases h)
    split at h
    · cases h
    · next observation _ =>
      split at h
      · split at h
        · cases h
          exact Or.inl rfl
        · cases h
      · split at h
        · cases h
        · next fresh =>
          cases h
          refine Or.inr ⟨observation, fun other member used => ?_, rfl⟩
          exact fresh (List.any_eq_true.2 ⟨other, member, by simpa using used⟩)

/-- One request of a handler. -/
lemma answer_deliveryKept (s : Services) (guard : s.platform.databaseGuard = true) (env : Env)
    (q : Request) (kept : DeliveryKept r) : DeliveryKept (answer s env q r).2 := by
  cases q with
  | transitionFulfillmentOnce target key time =>
    exact commit_rule DeliveryKept kept fun _ _ done => kept.transition guard done
  | append proof => exact commitUnit_rule DeliveryKept kept fun _ done => kept.append done
  | putVerifiedOnce version result =>
    exact commitUnit_rule DeliveryKept kept fun _ done => kept.putVerifiedOnce done
  | recordOnce version key verification =>
    exact commit_rule DeliveryKept kept fun _ _ done => kept.recordOnce done
  | putOnce version bundle =>
    exact commitUnit_rule DeliveryKept kept fun _ done => kept.putOnce done
  | enqueue message =>
    refine commitUnit_rule DeliveryKept kept fun r' done => ?_
    rcases enqueue_fresh done with rfl | ⟨observation, fresh, rfl⟩
    · exact kept
    · exact kept.insert fresh rfl rfl rfl rfl rfl rfl id
  | finish job outcome now retryAt code =>
    simp only [answer]
    split
    · exact kept.same_messages (retains_of_same rfl rfl rfl rfl rfl rfl) rfl Or.inl
    · exact kept
  | enqueueOnce | recordDispatched | recordDispatchFailure | heartbeat =>
    exact kept.same_messages (retains_of_same rfl rfl rfl rfl rfl rfl) rfl Or.inl
  | getForFulfillment | latest | stampExactDigest | upgradeExactDigest | verifyExactDigest
  | getVerified | latestObservation | now | dispatchDue | createTask | retryAt => exact kept

/-! ### Events and acceptances -/

lemma DeliveryKept.row_of_id (kept : DeliveryKept r) {m other : OutboxRecord}
    (left : m ∈ r.outbox) (right : other ∈ r.outbox) (id : m.id = other.id) : m = other :=
  List.inj_on_of_nodup_map kept.ids left right id

/-- A change of one message that leaves it alone when it is delivered. -/
lemma DeliveryKept.modify (kept : DeliveryKept r) {id : Nat} {f : OutboxRecord → OutboxRecord}
    (own : ∀ m, (f m).id = m.id)
    (fixes : ∀ m ∈ r.outbox, m.id = id → m.state = .delivered → f m = m)
    (snapshot : r'.order.snapshot = r.order.snapshot)
    (outbox : r'.outbox = (modifyMessage id f r).outbox)
    (observations : r'.observations = r.observations) (events : r'.resendEvents = r.resendEvents)
    (verifications : r'.verifications = r.verifications) (bundles : r'.bundles = r.bundles)
    (fulfillment : r'.order.fulfillmentState = .delivered →
      r.order.fulfillmentState = .delivered ∨ latestDelivered r' = true) : DeliveryKept r' := by
  have rest : Retains r { r' with outbox := r.outbox } :=
    retains_of_same snapshot rfl observations events verifications bundles
  refine kept.retain ⟨snapshot, fun m member delivered => ?_, rest.observation, rest.events,
    rest.verification, rest.bundle⟩ ?_ fulfillment
  · rw [outbox]
    refine List.mem_map.2 ⟨m, member, ?_⟩
    split
    · next mine => exact fixes m member mine delivered
    · rfl
  · rw [outbox]
    change ((r.outbox.map fun m => if m.id = id then f m else m).map OutboxRecord.id).Nodup
    have ids : OutboxRecord.id ∘ (fun m => if m.id = id then f m else m) = OutboxRecord.id := by
      funext m
      simp only [Function.comp]
      split
      · exact own m
      · rfl
    rw [List.map_map, ids]
    exact kept.ids

lemma DeliveryKept.applyDelivered (kept : DeliveryKept r) (guard : p.databaseGuard = true)
    {record : OutboxRecord} {event : ResendWebhookEvent} (member : record ∈ r.outbox)
    {now : Instant} {result : WebhookProcessResult}
    (h : applyDeliveredEvent p record event now r = .ok (result, r')) : DeliveryKept r' := by
  unfold applyDeliveredEvent at h
  split at h
  · cases h
    exact kept
  · next able =>
    have undelivered : record.state ≠ .delivered := by
      simp only [deliverable, Bool.not_eq_false, Bool.and_eq_true, bne_iff_ne] at able
      exact able.1.1.1.1.1
    have fixes : ∀ m ∈ r.outbox, m.id = record.id → m.state = .delivered →
        markDelivered event m = m := by
      intro m among own delivered
      rw [kept.row_of_id among member own] at delivered
      exact absurd delivered undelivered
    split at h
    · cases h
      exact kept.modify (f := markDelivered event) (fun _ => rfl) fixes rfl rfl rfl rfl rfl rfl
        Or.inl
    · obtain ⟨-, rfl, passes⟩ := guarded_ok h
      exact kept.modify (f := markDelivered event) (fun _ => rfl) fixes rfl rfl rfl rfl rfl rfl
        fun delivered => enforce_delivered (passes guard) delivered

lemma markFailed_fixes {type : ResendEventType} {m : OutboxRecord}
    (delivered : m.state = .delivered) : markFailed type m = m := by
  rw [markFailed, if_pos delivered]

lemma DeliveryKept.processEvent (kept : DeliveryKept r) (guard : p.databaseGuard = true)
    {event : VerifiedResendEvent} {payloadSha256 : Sha256} {now : Instant}
    {result : WebhookProcessResult}
    (h : NotificationAdapters.processEvent p event payloadSha256 now r = .ok (result, r')) :
    DeliveryKept r' := by
  unfold NotificationAdapters.processEvent at h
  split at h
  · split at h
    · unfold reconcileReplayedEvent at h
      split at h
      · cases h
        exact kept
      · split at h
        · cases h
          exact kept
        · next record found =>
          split at h
          · cases h
            exact kept
          · split at h
            · cases h
            · next applied =>
              cases h
              exact kept.applyDelivered guard (List.mem_of_find?_eq_some found) applied
    · cases h
  · have inserted : DeliveryKept { r with
        resendEvents := r.resendEvents ++ [storedEvent event payloadSha256 now] } :=
      kept.same_messages ⟨rfl, fun _ member _ => member, fun _ _ found => found,
        fun _ member => List.mem_append_left _ member, fun _ found => found, fun _ found => found⟩
        rfl Or.inl
    split at h
    · cases h
      exact inserted
    · next record found =>
      have member : record ∈ r.outbox := List.mem_of_find?_eq_some found
      split at h
      · cases h
        exact inserted
      · split at h
        · cases h
          have own : ∀ m, (markFailed event.eventType m).id = m.id := by
            intro m
            unfold markFailed
            split
            · rfl
            · rfl
          exact inserted.modify own (fun _ _ _ delivered => markFailed_fixes delivered) rfl rfl rfl
            rfl rfl rfl Or.inl
        · split at h
          · cases h
            exact inserted
          · exact inserted.applyDelivered guard member h

lemma DeliveryKept.recordAccepted (kept : DeliveryKept r) (guard : p.databaseGuard = true)
    {message : ClaimedNotification} {acceptance : ProviderAcceptance} {now : Instant}
    (h : NotificationAdapters.recordAccepted p message acceptance now r = .ok r') :
    DeliveryKept r' := by
  unfold NotificationAdapters.recordAccepted at h
  split at h
  · cases h
  · split at h
    · cases h
    · next record active =>
      have lease : OutboxLeases.activeLease message now (outboxOf r) = .ok record := active
      obtain ⟨member, own, leased, -⟩ := OutboxLeases.activeLease_ok lease
      have accepted : DeliveryKept (finishAccepted message acceptance now r) := by
        refine kept.modify (f := markAccepted acceptance.messageId now) (fun _ => rfl)
          (fun m among mine delivered => ?_) rfl rfl rfl rfl rfl rfl Or.inl
        have same := kept.row_of_id among member (mine.trans own.symm)
        rw [same, leased] at delivered
        cases delivered
      split at h
      · cases h
      · simp only at h
        split at h
        · cases h
          exact accepted
        · split at h
          · cases h
          · next applied =>
            cases h
            exact accepted.applyDelivered guard (finishAccepted_mem member own) applied

/-! ### Arrivals -/

lemma startJob_kept {s : Services} (kept : DeliveryKept r)
    (claimed : Option (ClaimedJob × JobTables)) : DeliveryKept (startJob s r claimed).1 := by
  cases claimed with
  | none => exact kept
  | some claimed => exact kept.same_messages (retains_of_same rfl rfl rfl rfl rfl rfl) rfl Or.inl

lemma arriveRecord_kept (s : Services) (guard : s.platform.databaseGuard = true) (now : Instant)
    (a : Arrival) (kept : DeliveryKept r) : DeliveryKept (arriveRecord s now r a).1 := by
  cases a with
  | claim workerId => exact startJob_kept kept _
  | claimSpecific jobId generation workerId =>
    simp only [arriveRecord]
    split
    · exact startJob_kept kept _
    · exact kept
  | operatorReplay jobId =>
    simp only [arriveRecord]
    split
    · exact kept.same_messages (retains_of_same rfl rfl rfl rfl rfl rfl) rfl Or.inl
    · exact kept
  | recoverStale staleGrace limit =>
    simp only [arriveRecord]
    split
    · exact kept.same_messages (retains_of_same rfl rfl rfl rfl rfl rfl) rfl Or.inl
    · exact kept
  | heartbeat job leaseUntil =>
    exact kept.same_messages (retains_of_same rfl rfl rfl rfl rfl rfl) rfl Or.inl
  | resendEvent event payload =>
    exact commit_rule DeliveryKept kept fun _ _ done => kept.processEvent guard done
  | senderAccepted message acceptance =>
    exact commitUnit_rule DeliveryKept kept fun _ done => kept.recordAccepted guard done
  | operatorReverify | operatorUpgrade | reconcile => exact kept

lemma settleOrder_same (order : Order) :
    (settleOrder order).snapshot = order.snapshot ∧
      ((settleOrder order).fulfillmentState = .delivered →
        order.fulfillmentState = .delivered) := by
  unfold settleOrder
  split
  · exact ⟨rfl, fun delivered => FulfillmentState.noConfusion delivered⟩
  · exact ⟨rfl, id⟩

lemma adoptIntent_snapshot (order : Order) (canonical : CanonicalCheckout) :
    (adoptIntent order canonical).snapshot = order.snapshot := by
  unfold adoptIntent
  split
  · rfl
  · rfl

/-- A payment adds its message or leaves the messages alone. -/
lemma DeliveryKept.applyToRecord (kept : DeliveryKept r) (event : ProviderEvent)
    (canonical : CanonicalCheckout) (now : Instant) (jobId messageId : Nat)
    (fresh : ∀ m ∈ r.outbox, m.id ≠ messageId) :
    DeliveryKept (PaymentWebhooks.applyToRecord event canonical now jobId messageId r) := by
  unfold PaymentWebhooks.applyToRecord
  cases applied : applyEvent r.order event canonical with
  | none =>
    refine kept.same_messages (retains_of_same (adoptIntent_snapshot _ _) rfl rfl rfl rfl rfl) rfl
      fun delivered => Or.inl ?_
    exact (adoptIntent_states _ _).2.symm.trans delivered
  | some changed =>
    obtain ⟨target, -, moved⟩ := Option.bind_eq_some_iff.1 applied
    obtain ⟨change, -, -⟩ := transitionPayment_some moved
    obtain ⟨settled, finished⟩ := settleOrder_same (adoptIntent changed canonical)
    have snapshot : (settleOrder (adoptIntent changed canonical)).snapshot = r.order.snapshot := by
      rw [settled, adoptIntent_snapshot, change]
    have fulfillment : (settleOrder (adoptIntent changed canonical)).fulfillmentState = .delivered →
        r.order.fulfillmentState = .delivered := by
      intro delivered
      have before := finished delivered
      rw [(adoptIntent_states _ _).2, change] at before
      exact before
    simp only
    split
    · unfold enqueueFulfillment
      split
      · exact kept.same_messages (retains_of_same snapshot rfl rfl rfl rfl rfl) rfl
          fun delivered => Or.inl (fulfillment delivered)
      · exact kept.insert (m := paymentConfirmedMessage messageId
          (settleOrder (adoptIntent changed canonical)) now) fresh snapshot rfl rfl rfl rfl rfl
          fulfillment
    · exact kept.same_messages (retains_of_same snapshot rfl rfl rfl rfl rfl) rfl
        fun delivered => Or.inl (fulfillment delivered)

lemma DeliveryKept.recordStripe (kept : DeliveryKept r) (event : StripeEvent) :
    DeliveryKept (recordStripeEvent r event) :=
  kept.same_messages (retains_of_same rfl rfl rfl rfl rfl rfl) rfl Or.inl

lemma performPayment_kept (settings : PaymentSettings) (env : PaymentEnv) (q : PaymentRequest)
    (fresh : ∀ m ∈ r.outbox, m.id ≠ env.messageId) (kept : DeliveryKept r) :
    DeliveryKept (performPayment settings env q r).2 := by
  exact performPayment_of_events settings env q DeliveryKept kept
    (fun recorded => kept.recordStripe recorded)
    fun event checkout recorded =>
      (kept.applyToRecord event checkout env.now env.jobId env.messageId fresh).recordStripe
        recorded

end

/-! ### Senders -/

/-- The rows keep their identifiers, and delivered rows stay as they are. -/
structure DeliveredStays (o o' : OutboxLeases.Outbox) : Prop where
  ids : o'.rows.map OutboxRecord.id = o.rows.map OutboxRecord.id
  delivered : ∀ m ∈ o.rows, m.state = .delivered → m ∈ o'.rows

section
variable {p : Platform} {o o' : OutboxLeases.Outbox}

lemma deliveredStays_refl (o : OutboxLeases.Outbox) : DeliveredStays o o :=
  ⟨rfl, fun _ member _ => member⟩

lemma DeliveredStays.trans {o'' : OutboxLeases.Outbox} (first : DeliveredStays o o')
    (second : DeliveredStays o' o'') : DeliveredStays o o'' :=
  ⟨second.ids.trans first.ids, fun m member delivered =>
    second.delivered m (first.delivered m member delivered) delivered⟩

lemma deliveredStays_map (f : OutboxRecord → OutboxRecord) (rows : o'.rows = o.rows.map f)
    (own : ∀ m, (f m).id = m.id) (fixes : ∀ m ∈ o.rows, m.state = .delivered → f m = m) :
    DeliveredStays o o' := by
  constructor
  · rw [rows, List.map_map]
    have ids : OutboxRecord.id ∘ f = OutboxRecord.id := funext own
    rw [ids]
  · intro m member delivered
    rw [rows]
    exact List.mem_map.2 ⟨m, member, fixes m member delivered⟩

lemma expire_stays (distinct : (o.rows.map OutboxRecord.id).Nodup) (locked : List Nat)
    (now : Instant) : DeliveredStays o (OutboxLeases.expireUnclaimable locked now o) := by
  refine deliveredStays_map (fun m => if (OutboxLeases.expiring locked now o).any
    (fun e => e.id == m.id) then OutboxLeases.deadLetterRow m else m) rfl (fun m => ?_)
    fun m member delivered => ?_
  · split
    · rfl
    · rfl
  · refine if_neg fun found => ?_
    obtain ⟨e, taken, own⟩ := List.any_eq_true.1 found
    obtain ⟨row, able, -⟩ := OutboxLeases.expiring_mem taken
    have same : e = m := List.inj_on_of_nodup_map distinct row member (by simpa using own)
    rw [same] at able
    simp [OutboxLeases.expirable, OutboxLeases.waiting, OutboxLeases.leaseExpired,
      delivered] at able

lemma takeLease_stays (distinct : (o.rows.map OutboxRecord.id).Nodup) {m : OutboxRecord}
    (row : m ∈ o.rows) {now : Instant} (able : OutboxLeases.claimable now m = true)
    (workerId : String) (leaseUntil : Instant) (token : Nat) :
    DeliveredStays o (OutboxLeases.takeLease m workerId now leaseUntil token o) := by
  refine deliveredStays_map (fun other => if other.id = m.id then
    OutboxLeases.leaseRow workerId leaseUntil token other else other) rfl (fun other => ?_)
    fun other member delivered => ?_
  · split
    · rfl
    · rfl
  · refine if_neg fun own => ?_
    have same : other = m := List.inj_on_of_nodup_map distinct member row own
    rw [← same] at able
    simp [OutboxLeases.claimable, OutboxLeases.waiting, OutboxLeases.leaseExpired,
      delivered] at able

lemma recorded_stays (distinct : (o.rows.map OutboxRecord.id).Nodup)
    {message : ClaimedNotification} (recorded : OutboxLeases.Recorded message o o') :
    DeliveredStays o o' := by
  obtain ⟨now, m, onRow, onAttempt, active, settles, rfl⟩ := recorded
  obtain ⟨row, id, leased, -⟩ := OutboxLeases.activeLease_ok active
  refine deliveredStays_map (fun other => if other.id = message.id then onRow other else other) rfl
    (fun other => ?_) fun other member delivered => ?_
  · split
    · exact (settles.same other).id
    · rfl
  · refine if_neg fun own => ?_
    have same : other = m := List.inj_on_of_nodup_map distinct member row (own.trans id.symm)
    rw [same, leased] at delivered
    cases delivered

lemma claim_stays (distinct : (o.rows.map OutboxRecord.id).Nodup) {workerId : String}
    {now leaseFor : Int} {token : Nat} {locked : List Nat} {c : Option OutboxLeases.Claimed}
    (h : OutboxLeases.claim p.sha256 workerId now leaseFor token locked o = .ok (c, o')) :
    DeliveredStays o o' := by
  have expired := expire_stays distinct locked now
  unfold OutboxLeases.claim at h
  split at h
  · cases h
  · split at h
    · cases h
    · split at h
      · cases h
        exact expired
      · next m found =>
        split at h
        · cases h
        · cases h
          obtain ⟨row, able⟩ := OutboxLeases.selectClaimable_some found
          refine expired.trans (takeLease_stays ?_ row able workerId (now + leaseFor) token)
          rw [expired.ids]
          exact distinct

lemma sendOutbox_stays (distinct : (o.rows.map OutboxRecord.id).Nodup) (a : SenderArrival) :
    DeliveredStays o (sendOutbox p o a) := by
  cases a with
  | claim workerId now leaseFor token locked =>
    simp only [sendOutbox]
    split
    · next done => exact claim_stays distinct done
    · exact deliveredStays_refl o
  | retry message now retryAt code status =>
    simp only [sendOutbox]
    split
    · next done => exact recorded_stays distinct (OutboxLeases.recordRetry_ok done)
    · exact deliveredStays_refl o
  | terminalFailure message now code status =>
    simp only [sendOutbox]
    split
    · next done => exact recorded_stays distinct (OutboxLeases.recordTerminalFailure_ok done)
    · exact deliveredStays_refl o

lemma send_kept {r : OrderRecord} (kept : DeliveryKept r) (a : SenderArrival) :
    DeliveryKept (send p r a) := by
  obtain ⟨ids, delivered⟩ := sendOutbox_stays (p := p) (o := outboxOf r) kept.ids a
  refine kept.retain ⟨rfl, delivered, fun _ _ found => found, fun _ member => member,
    fun _ found => found, fun _ found => found⟩ ?_ Or.inl
  change ((sendOutbox p (outboxOf r) a).rows.map OutboxRecord.id).Nodup
  rw [ids]
  exact kept.ids

end

/-! ## Whole runs -/

lemma arriveDelivery_kept (s : Services) (guard : s.platform.databaseGuard = true)
    (settings : PaymentSettings) (a : DeliveryArrival) {w : World} (kept : DeliveryKept w.record) :
    DeliveryKept (arriveDelivery s settings w a).1.record := by
  cases a with
  | sender arrival => exact send_kept kept arrival
  | order arrival =>
    simp only [arriveDelivery]
    split
    · next free =>
      refine arriveOrder_of_each s settings arrival DeliveryKept kept
        (fun arriving _ => arriveRecord_kept s guard arriving.now arriving.arrival kept)
        (fun env q arrives => ?_)
        fun _ => kept.same_messages (retains_of_same rfl rfl rfl rfl rfl rfl) rfl Or.inl
      subst arrives
      refine performPayment_kept settings env q (fun m member => ?_) kept
      simpa using List.all_eq_true.1 free m member
    · exact kept

variable (s : Services) (settings : PaymentSettings)

lemma deliveryArrivals_safe : ArrivalsSafe (deliveryService s settings) stateDiscipline
    (fun _ _ _ => True) (fun _ _ => True) := by
  intro a w coupled _
  cases a with
  | order arrival =>
    simp only [deliveryService, arriveDelivery]
    split
    · exact arrivals_safe s settings arrival w coupled trivial
    · exact ⟨coupled, id, fun run started => absurd started List.not_mem_nil⟩
  | sender arrival =>
    exact ⟨coupled, id, fun run started => absurd started List.not_mem_nil⟩

lemma deliveryMeets_any (moves : List (Move Env DeliveryArrival)) (c : OrderConfig) :
    (⟨stateDiscipline.allowed, fun _ _ => True⟩ :
      StepCondition Request Env DeliveryArrival (Option ClaimedJob) World).MeetsAll
        (deliveryService s settings) moves c := by
  induction moves generalizing c with
  | nil => trivial
  | cons m rest ih =>
    refine ⟨?_, ih _⟩
    cases m with
    | serve i env =>
      simp only [StepCondition.Meets]
      split <;> trivial
    | arrive a => trivial
    | crash i => trivial

/-- An order as its checkout creates it, without messages. -/
structure NewOrder (r : OrderRecord) : Prop extends Created r where
  messages : r.outbox = []

/-- Along every run of the service, the trigger lets through what the application checks,
and a delivered order has the evidence its bundle is served under. -/
theorem guard_agrees_on_delivery (guard : s.platform.databaseGuard = true) (w : World)
    (new : NewOrder w.record) (moves : List (Move Env DeliveryArrival)) :
    let r := ((deliveryService s settings).run moves ⟨w, []⟩).world.record
    GuardAgrees s.platform r ∧
      (r.order.fulfillmentState = .delivered → ∃ version sender, Evidenced r version sender) := by
  intro r
  have noRuns : ∀ run ∈ ([] : List HandlerRun), False := fun _ none => List.not_mem_nil none
  have start : Disciplined (deliveryService s settings) stateDiscipline (fun _ _ _ => True)
      (⟨w, []⟩ : OrderConfig) :=
    ⟨fun _ => ⟨new.fulfillment, new.jobs⟩, fun run none => (noRuns run none).elim⟩
  have coupled : Coupled r :=
    (run_disciplined (deliveryArrivals_safe s settings) start
      (deliveryMeets_any s settings moves ⟨w, []⟩)).inv
  have first : DeliveryKept w.record := by
    refine ⟨?_, fun delivered => ?_⟩
    · rw [new.messages]
      exact List.nodup_nil
    · rw [new.fulfillment] at delivered
      cases delivered
  have kept : DeliveryKept r :=
    run_inv (fun w => DeliveryKept w.record)
      (fun _ env q w kept _ => answer_deliveryKept s guard env q kept)
      (fun a w kept _ => arriveDelivery_kept s guard settings a kept) first
      (deliveryMeets_any s settings moves ⟨w, []⟩)
  refine ⟨guardAgrees_of_coupled s.platform fun verified => ?_, kept.evidence⟩
  by_contra unsettled
  have waiting := (coupled unsettled).1
  rw [verified] at waiting
  cases waiting

/-! ## From the checkout to the delivery -/

open VerifiedOrders (sampleServices sampleTime sampleEnv stampedBytes upgradedBytes)

def deliveringServices : Services :=
  { sampleServices with
    buildReceipt := fun _ _ => .ok [123, 125]
    build := fun _ _ _ => .ok [80, 75, 5, 6] }

def workerMove (seconds : Int) (arrival : Arrival) : Move Env DeliveryArrival :=
  .arrive (.order (.worker ⟨sampleTime seconds, 100, arrival⟩))

def noticeClaim : ClaimedNotification := ⟨40, 1, "sender", 7⟩

/-- The session is bound, the payment arrives, the three jobs run to their ends, a sender
claims the notice, the provider accepts it and reports the delivery. -/
def checkoutToDelivery : List (Move Env DeliveryArrival) :=
  [Move.arrive (.order (.bindSession "cs_live_1")),
    .arrive (.order (.payment (paymentEnv 1 paidCheckout)
      (.commitEvent paidEvent samplePayload (some paidCheckout)))),
    workerMove 2 (.claim "worker-a")] ++
  List.replicate 13 (Move.serve 0 (sampleEnv 3 2 stampedBytes)) ++
  [workerMove 4 (.claim "worker-a")] ++
  List.replicate 15 (Move.serve 1 (sampleEnv 5 3 upgradedBytes)) ++
  [workerMove 6 (.claim "worker-a")] ++
  List.replicate 15 (Move.serve 2 (sampleEnv 7 40 upgradedBytes)) ++
  [Move.arrive (.sender (.claim "sender" (sampleTime 8) (60 * 1000000) 7 [])),
    workerMove 9 (.senderAccepted noticeClaim ⟨"msg_1", 200⟩),
    workerMove 10 (.resendEvent ⟨"svix_1", .delivered, "msg_1", sampleTime 10⟩ samplePayload)]

lemma created_new : NewOrder createdRecord := ⟨⟨rfl, rfl, rfl⟩, rfl⟩

lemma checkout_delivers :
    ((deliveryService deliveringServices sampleSettings).run checkoutToDelivery
      ⟨⟨createdRecord, sampleTime 0, 100⟩, []⟩).world.record.order.fulfillmentState =
        .delivered := by
  decide +kernel

theorem delivered_order_has_its_evidence :
    let r := ((deliveryService deliveringServices sampleSettings).run checkoutToDelivery
      ⟨⟨createdRecord, sampleTime 0, 100⟩, []⟩).world.record
    r.order.fulfillmentState = .delivered ∧ ∃ version sender, Evidenced r version sender :=
  ⟨checkout_delivers, (guard_agrees_on_delivery deliveringServices sampleSettings rfl
    ⟨createdRecord, sampleTime 0, 100⟩ created_new checkoutToDelivery).2 checkout_delivers⟩

end DeliveryGuard
