import SpacerocksCoa.FulfillmentAdapters

/-!
# Observations, outbox messages and Resend events of one order

The confirmation observations, the enqueueing of a milestone message, the recording of a
provider's acceptance and the processing of a signed Resend event, one transaction each.
The three ways in which a delivered event can reach a message (the event itself, the
acceptance that finds an early event, the replay of a stored event) all end in
`applyDeliveredEvent`.

Sending, leasing and retrying of messages is not in this module.
-/
namespace NotificationAdapters
open OrderStates ProofRecords OrderRows FulfillmentAdapters

/-! ## Confirmation observations -/

def Observation.matchesResult (o : Observation) (proofVersion : Nat) (result : Evidence Instant) :
    Bool :=
  o.proofVersion == proofVersion && o.observedConfirmations == result.confirmations &&
    o.blockHeight == result.blockHeight && o.blockHash == result.blockHash &&
    o.method == result.method && o.confirmationPolicy == result.confirmationPolicy &&
    o.observedAt == result.verifiedAt

def newObservation (id proofVersion : Nat) (eventKey : ObservationKey)
    (result : Evidence Instant) (now : Instant) : Observation where
  id := id
  proofVersion := proofVersion
  observedConfirmations := result.confirmations
  confirmed := result.confirmed
  blockHeight := result.blockHeight
  blockHash := result.blockHash
  method := result.method
  confirmationPolicy := result.confirmationPolicy
  observedAt := result.verifiedAt
  eventKey := eventKey
  createdAt := now

/-- An observation belongs to the latest version and to the block its verification names. -/
def recordOnce (proofVersion : Nat) (eventKey : ObservationKey)
    (verification : BitcoinVerification Instant) (now : Instant) (freshId : Nat)
    (r : OrderRecord) : Except AdapterError (Observation × OrderRecord) :=
  if proofVersion < 1 then .error (.value "confirmation_observation_identity_invalid")
  else
    match verification with
    | .unverified _ _ => .error (.value "confirmation_observation_verification_invalid")
    | .verified result =>
      match r.latestProof with
      | none => .error (.value "confirmation_observation_proof_not_current")
      | some proof =>
        if proof.version ≠ proofVersion ∨
            proof.targetDigest ≠ r.order.snapshot.manifestDigest then
          .error (.value "confirmation_observation_proof_not_current")
        else if (r.verification proofVersion).any (fun v => v.block == result.block) = false then
          .error (.value "confirmation_observation_verification_mismatch")
        else
          match r.observations.find? (fun o => o.eventKey == eventKey) with
          | some existing =>
            if Observation.matchesResult existing proofVersion result then .ok (existing, r)
            else .error (.value "confirmation_observation_event_conflict")
          | none =>
            if r.observations.any (fun o => o.id == freshId) then .error .database
            else
              .ok (newObservation freshId proofVersion eventKey result now,
                { r with
                  observations := r.observations ++
                    [newObservation freshId proofVersion eventKey result now] })

/-! ## Milestone messages -/

def idempotencyHorizon : Int := 24 * 3600 * 1000000
def notificationMaxAttempts : Nat := 12

/-- The payload as `json.dumps` writes it with sorted keys. -/
def serializedPayload (kind : NotificationKind) (orderReference : OrderReference) : String :=
  "\x7b\"order_reference\": \"" ++ orderReference.value ++ "\", \"template\": \"" ++ kind.value ++
    "\"\x7d"

def forbiddenInPayload : List String :=
  ["bearer", "token", "digest", "certificate", "proof_bytes", "@"]

def payloadSensitive (kind : NotificationKind) (orderReference : OrderReference) : Bool :=
  forbiddenInPayload.any fun word =>
    decide (word.toList <:+: (serializedPayload kind orderReference).toLower.toList)

/-- The latest observation of the latest version, when it has exactly the confirmations of
the message and names the block of the verification. -/
def authoritativeObservation (proofVersion confirmationCount : Nat) (r : OrderRecord) :
    Option Observation :=
  match r.latestProof, r.verification proofVersion, r.latestObservation proofVersion with
  | some proof, some verification, some observation =>
    if proof.version = proofVersion ∧ proof.targetDigest = r.order.snapshot.manifestDigest ∧
        observation.observedConfirmations = confirmationCount ∧
        observation.matchesVerification verification = true then some observation
    else none
  | _, _, _ => none

/-- Two observations name the same block in the same way. -/
def sameBlock (a b : Observation) : Bool :=
  a.blockHeight == b.blockHeight && a.blockHash == b.blockHash && a.method == b.method &&
    a.confirmationPolicy == b.confirmationPolicy

def sameMessage (r : OrderRecord) (existing : OutboxRecord) (message : OutboxMessage)
    (current : Observation) : Bool :=
  existing.kind == .notification message.template && existing.recipient == message.recipient &&
    existing.payload == ⟨some message.template, message.orderReference⟩ &&
    existing.proofVersion == some message.proofVersion &&
    existing.confirmationCount.any (fun count =>
      decide (message.template.minimumConfirmations ≤ count)) &&
    (existing.confirmationObservationId.bind r.observation).any (fun bound =>
      bound.proofVersion == message.proofVersion &&
        some bound.observedConfirmations == existing.confirmationCount && sameBlock bound current)

def newMessage (id : Nat) (message : OutboxMessage) (observation : Observation) (now : Instant) :
    OutboxRecord where
  id := id
  messageKey := .milestone message.messageKey
  kind := .notification message.template
  recipient := message.recipient
  payload := ⟨some message.template, message.orderReference⟩
  state := .available
  attemptCount := 0
  maxAttempts := notificationMaxAttempts
  availableAt := now
  leaseOwner := none
  leaseUntil := none
  leaseToken := none
  proofVersion := some message.proofVersion
  confirmationCount := some message.confirmationCount
  confirmationObservationId := some observation.id
  providerMessageId := none
  acceptedAt := none
  deliveredAt := none
  idempotencyExpiresAt := now + idempotencyHorizon
  safeErrorCode := none
  createdAt := now

def enqueue (message : OutboxMessage) (now : Instant) (freshId : Nat) (r : OrderRecord) :
    Except AdapterError OrderRecord :=
  match notificationMessage message.template message.orderReference message.recipient
      message.proofVersion message.confirmationCount with
  | .error code => .error (.value code)
  | .ok expected =>
    if message.messageKey ≠ expected.messageKey then
      .error (.value "notification_message_key_invalid")
    else if payloadSensitive message.template message.orderReference then
      .error (.value "outbox_payload_contains_sensitive_data")
    else if message.orderReference ≠ r.order.snapshot.orderReference then
      .error (.value "outbox_order_not_found")
    else if message.recipient ≠ r.order.snapshot.email then
      .error (.value "outbox_recipient_does_not_match_order")
    else
      match authoritativeObservation message.proofVersion message.confirmationCount r with
      | none => .error (.value "notification_confirmation_observation_missing")
      | some observation =>
        match r.message (.milestone message.messageKey) with
        | some existing =>
          if sameMessage r existing message observation then .ok r
          else .error (.value "outbox_message_key_conflict")
        | none =>
          if r.outbox.any (fun m => m.id == freshId) then .error .database
          else .ok { r with outbox := r.outbox ++ [newMessage freshId message observation now] }

/-! ## Delivered events -/

structure WebhookProcessResult where
  duplicate : Bool
  notificationDelivered : Bool := false
  orderTransitioned : Bool := false
  deriving DecidableEq

def modifyMessage (id : Nat) (f : OutboxRecord → OutboxRecord) (r : OrderRecord) : OrderRecord :=
  { r with outbox := r.outbox.map fun m => if m.id = id then f m else m }

def notificationObservationMatches (r : OrderRecord) (version count observationId : Nat)
    (v : ProofVerification) (threshold : Nat) : Bool :=
  (r.observation observationId).any (fun bound =>
    bound.proofVersion == version && bound.observedConfirmations == count &&
      decide (threshold ≤ bound.observedConfirmations) && bound.matchesVerification v) &&
  (r.latestObservation version).any (fun current =>
    decide (threshold ≤ current.observedConfirmations) && current.matchesVerification v)

/-- The evidence about the proof version that a delivered message must still have. -/
def proofEvidenceMatches (p : Platform) (r : OrderRecord) (version count observationId : Nat)
    (threshold : Nat) : Bool :=
  match r.latestProof with
  | none => false
  | some proof =>
    match r.verification version, r.bundle version with
    | some v, some bundle =>
      proof.version == version && proof.targetDigest == r.order.snapshot.manifestDigest &&
        p.sha256 proof.proofBytes == proof.proofSha256 &&
        notificationObservationMatches r version count observationId v threshold &&
        proof.verificationMetadata.all (fun m => m.block == v.block && m.verifiedAt == v.verifiedAt) &&
        p.sha256 bundle.bundleBytes == bundle.bundleSha256
    | _, _ => false

def deliveryEvidenceMatches (p : Platform) (r : OrderRecord) (record : OutboxRecord) : Bool :=
  (record.state == .accepted || record.state == .failed) && record.providerMessageId.isSome &&
    match record.kind, record.proofVersion, record.confirmationCount,
      record.confirmationObservationId with
    | .notification kind, some version, some count, some observationId =>
      decide (kind.minimumConfirmations ≤ count) &&
        record.messageKey == .milestone ⟨kind, version, r.order.snapshot.orderReference⟩ &&
        record.recipient == r.order.snapshot.email &&
        record.payload == ⟨some kind, r.order.snapshot.orderReference⟩ &&
        proofEvidenceMatches p r version count observationId kind.minimumConfirmations
    | _, _, _, _ => false

/-- Whether the event moves the message to delivered: the guards of the source in one place. -/
def deliverable (p : Platform) (r : OrderRecord) (record : OutboxRecord)
    (event : ResendWebhookEvent) : Bool :=
  record.state != .delivered && record.acceptedAt.isSome &&
    record.providerMessageId == some event.providerMessageId && event.eventType == .delivered &&
    deliveryEvidenceMatches p r record &&
    (r.order.fulfillmentState == .bitcoinVerified || r.order.fulfillmentState == .delivered)

def markDelivered (event : ResendWebhookEvent) (m : OutboxRecord) : OutboxRecord :=
  { m with state := .delivered, deliveredAt := some event.eventCreatedAt, safeErrorCode := none }

def applyDeliveredEvent (p : Platform) (record : OutboxRecord) (event : ResendWebhookEvent)
    (now : Instant) (r : OrderRecord) :
    Except AdapterError (WebhookProcessResult × OrderRecord) :=
  if deliverable p r record event = false then .ok ({ duplicate := false }, r)
  else
    let delivered := modifyMessage record.id (markDelivered event) r
    if record.kind = .notification .finalConfirmation ∨ r.order.fulfillmentState = .delivered then
      .ok ({ duplicate := false, notificationDelivered := true }, delivered)
    else
      let order := { r.order with fulfillmentState := .delivered }
      guarded p r.order
        { duplicate := false, notificationDelivered := true, orderTransitioned := true }
        { delivered with
          order := order
          stateEvents := r.stateEvents ++
            [newStateEvent r (.resendDelivered event.svixEventId) .resendWebhook order now] }

/-! ## Acceptance -/

structure ClaimedNotification where
  id : Nat
  attempt : Nat
  leaseOwner : String
  leaseToken : Nat
  deriving DecidableEq

structure ProviderAcceptance where
  messageId : String
  responseStatus : Nat
  deriving DecidableEq

/-- One to 128 letters, digits, underscores and hyphens. -/
def safeProviderId (id : String) : Bool :=
  decide (1 ≤ id.toList.length) && decide (id.toList.length ≤ 128) &&
    id.toList.all fun c => alphanumeric c || c == '_' || c == '-'

def openAttempt (message : ClaimedNotification) (a : NotificationAttempt) : Bool :=
  a.outboxId == message.id && a.attemptNumber == message.attempt &&
    a.leaseToken == message.leaseToken && a.finishedAt.isNone

/-- The row and attempt of a lease that is still held. -/
def activeLease (message : ClaimedNotification) (now : Instant) (r : OrderRecord) :
    Except AdapterError OutboxRecord :=
  match r.outbox.find? (fun m => m.id == message.id) with
  | none => .error (.value "notification_lease_stale")
  | some record =>
    if record.state ≠ .leased ∨ record.leaseOwner ≠ some message.leaseOwner ∨
        record.leaseToken ≠ some message.leaseToken ∨ record.attemptCount ≠ message.attempt ∨
        record.leaseUntil.all (fun until_ => decide (until_ < now)) ∨
        record.providerMessageId.isSome then
      .error (.value "notification_lease_stale")
    else if r.notificationAttempts.any (openAttempt message) = false then
      .error (.value "notification_attempt_missing")
    else .ok record

def markAccepted (messageId : String) (now : Instant) (m : OutboxRecord) : OutboxRecord :=
  { m with
    state := .accepted
    providerMessageId := some messageId
    acceptedAt := some now
    leaseOwner := none
    leaseUntil := none
    leaseToken := none
    safeErrorCode := none }

def finishAccepted (message : ClaimedNotification) (acceptance : ProviderAcceptance)
    (now : Instant) (r : OrderRecord) : OrderRecord :=
  { modifyMessage message.id (markAccepted acceptance.messageId now) r with
    notificationAttempts := r.notificationAttempts.map fun a =>
      if openAttempt message a then
        { a with
          finishedAt := some now
          outcome := some .accepted
          responseStatus := some acceptance.responseStatus
          providerMessageId := some acceptance.messageId
          safeErrorCode := none }
      else a }

/-- The order in which stored events are looked at: by the time of the event, then by the
time they were stored. -/
def ResendWebhookEvent.order (event : ResendWebhookEvent) : Int ×ₗ Int :=
  toLex (event.eventCreatedAt, event.processedAt)

def earliestDelivered (messageId : String) (r : OrderRecord) : Option ResendWebhookEvent :=
  List.argmin ResendWebhookEvent.order (r.resendEvents.filter fun event =>
    event.providerMessageId == messageId && event.eventType == .delivered)

def recordAccepted (p : Platform) (message : ClaimedNotification)
    (acceptance : ProviderAcceptance) (now : Instant) (r : OrderRecord) :
    Except AdapterError OrderRecord :=
  if acceptance.responseStatus ≠ 200 ∨ safeProviderId acceptance.messageId = false then
    .error (.value "notification_provider_acceptance_invalid")
  else
    match activeLease message now r with
    | .error e => .error e
    | .ok record =>
      if r.outbox.any (fun m => m.providerMessageId == some acceptance.messageId) then
        .error .database
      else
        let accepted := finishAccepted message acceptance now r
        match earliestDelivered acceptance.messageId accepted with
        | none => .ok accepted
        | some event =>
          match applyDeliveredEvent p (markAccepted acceptance.messageId now record) event now
              accepted with
          | .error e => .error e
          | .ok (_, r') => .ok r'

/-! ## Signed Resend events -/

structure VerifiedResendEvent where
  svixEventId : String
  eventType : ResendEventType
  providerMessageId : String
  eventCreatedAt : Instant
  deriving DecidableEq

def messageOfProvider (providerMessageId : String) (r : OrderRecord) : Option OutboxRecord :=
  r.outbox.find? (fun m => m.providerMessageId == some providerMessageId)

def validReplay (existing : ResendWebhookEvent) (event : VerifiedResendEvent)
    (payloadSha256 : Sha256) : Bool :=
  existing.eventType == event.eventType && existing.providerMessageId == event.providerMessageId &&
    existing.payloadSha256 == payloadSha256 && existing.eventCreatedAt == event.eventCreatedAt

/-- The replay of a stored event: only a delivered event is looked at again. -/
def reconcileReplayedEvent (p : Platform) (event : ResendWebhookEvent) (now : Instant)
    (r : OrderRecord) : Except AdapterError (WebhookProcessResult × OrderRecord) :=
  if event.eventType ≠ .delivered then .ok ({ duplicate := true }, r)
  else
    match messageOfProvider event.providerMessageId r with
    | none => .ok ({ duplicate := true }, r)
    | some record =>
      if record.acceptedAt.isNone then .ok ({ duplicate := true }, r)
      else
        match applyDeliveredEvent p record event now r with
        | .error e => .error e
        | .ok (result, r') => .ok ({ result with duplicate := true }, r')

def ResendEventType.negative : ResendEventType → Bool
  | .bounced => true
  | .failed => true
  | .complained => true
  | _ => false

def ResendEventType.safeErrorCode : ResendEventType → String
  | .delivered => "email_delivered"
  | .bounced => "email_bounced"
  | .failed => "email_failed"
  | .complained => "email_complained"
  | .other name => "email_" ++ name

def markFailed (type : ResendEventType) (m : OutboxRecord) : OutboxRecord :=
  if m.state = .delivered then m
  else { m with state := .failed, safeErrorCode := some (ResendEventType.safeErrorCode type) }

def storedEvent (event : VerifiedResendEvent) (payloadSha256 : Sha256) (now : Instant) :
    ResendWebhookEvent :=
  ⟨event.svixEventId, event.eventType, event.providerMessageId, payloadSha256,
    event.eventCreatedAt, now⟩

def processEvent (p : Platform) (event : VerifiedResendEvent) (payloadSha256 : Sha256)
    (now : Instant) (r : OrderRecord) :
    Except AdapterError (WebhookProcessResult × OrderRecord) :=
  match r.resendEvents.find? (fun e => e.svixEventId == event.svixEventId) with
  | some existing =>
    if validReplay existing event payloadSha256 then reconcileReplayedEvent p existing now r
    else .error (.value "resend_webhook_replay_conflict")
  | none =>
    let stored := storedEvent event payloadSha256 now
    let inserted := { r with resendEvents := r.resendEvents ++ [stored] }
    match messageOfProvider event.providerMessageId r with
    | none => .ok ({ duplicate := false }, inserted)
    | some record =>
      if record.acceptedAt.isNone then .ok ({ duplicate := false }, inserted)
      else if ResendEventType.negative event.eventType then
        .ok ({ duplicate := false },
          modifyMessage record.id (markFailed event.eventType) inserted)
      else if event.eventType ≠ .delivered then .ok ({ duplicate := false }, inserted)
      else applyDeliveredEvent p record stored now inserted

/-! ## What each transaction can do -/

lemma recordOnce_ok {version : Nat} {key : ObservationKey}
    {verification : BitcoinVerification Instant} {now : Instant} {freshId : Nat}
    {r r' : OrderRecord} {o : Observation}
    (h : recordOnce version key verification now freshId r = .ok (o, r')) :
    ∃ result proof v, verification = .verified result ∧ r.latestProof = some proof ∧
      proof.version = version ∧ r.verification version = some v ∧ v.block = result.block ∧
      ((r' = r ∧ r.observations.find? (fun o => o.eventKey == key) = some o ∧
          Observation.matchesResult o version result = true) ∨
        (r.observations.find? (fun o => o.eventKey == key) = none ∧
          (∀ other ∈ r.observations, other.id ≠ freshId) ∧
          o = newObservation freshId version key result now ∧
          r' = { r with observations := r.observations ++ [o] })) := by
  unfold recordOnce at h
  split at h
  · cases h
  · cases verification with
    | unverified => cases h
    | verified result =>
      cases found : r.latestProof with
      | none => simp only [found] at h; cases h
      | some proof =>
        simp only [found] at h
        split at h
        · cases h
        · next current =>
          rw [not_or, not_not, not_not] at current
          split at h
          · cases h
          · next verified =>
            obtain ⟨v, stored, same⟩ : ∃ v, r.verification version = some v ∧
                v.block = result.block := by
              simpa [Option.any_eq_true] using verified
            refine ⟨result, proof, v, rfl, rfl, current.1, stored, same, ?_⟩
            cases known : r.observations.find? (fun o => o.eventKey == key) with
            | some existing =>
              simp only [known] at h
              split at h
              · next agrees =>
                cases h
                exact Or.inl ⟨rfl, rfl, agrees⟩
              · cases h
            | none =>
              simp only [known] at h
              split at h
              · cases h
              · next fresh =>
                cases h
                refine Or.inr ⟨rfl, fun other member used => ?_, rfl, rfl⟩
                exact fresh (List.any_eq_true.2 ⟨other, member, by simpa using used⟩)

lemma enqueue_ok {message : OutboxMessage} {now : Instant} {freshId : Nat} {r r' : OrderRecord}
    (h : enqueue message now freshId r = .ok r') :
    ∃ observation,
      authoritativeObservation message.proofVersion message.confirmationCount r =
        some observation ∧
      (r' = r ∨ r' = { r with outbox := r.outbox ++ [newMessage freshId message observation now] }) := by
  unfold enqueue at h
  split at h
  · cases h
  · iterate 4 (split at h; · cases h)
    split at h
    · cases h
    · next observation authoritative =>
      refine ⟨observation, authoritative, ?_⟩
      split at h
      · split at h
        · cases h
          exact Or.inl rfl
        · cases h
      · split at h
        · cases h
        · cases h
          exact Or.inr rfl

/-- Only messages, their attempts and the stored events differ. -/
def OnlyMessages (r r' : OrderRecord) : Prop :=
  r' = { r with
    outbox := r'.outbox
    notificationAttempts := r'.notificationAttempts
    resendEvents := r'.resendEvents }

/-- The order moves from verified to delivered under the key of a Resend event. -/
def Delivers (p : Platform) (r r' : OrderRecord) : Prop :=
  r.order.fulfillmentState = .bitcoinVerified ∧
    (p.databaseGuard = true → enforceOrderStateTransition r.order r' = true) ∧
    ∃ svixEventId now, r' = { r with
      order := { r.order with fulfillmentState := .delivered }
      stateEvents := r.stateEvents ++ [newStateEvent r (.resendDelivered svixEventId)
        .resendWebhook { r.order with fulfillmentState := .delivered } now]
      outbox := r'.outbox
      notificationAttempts := r'.notificationAttempts
      resendEvents := r'.resendEvents }

lemma applyDeliveredEvent_ok {p : Platform} {record : OutboxRecord} {event : ResendWebhookEvent}
    {now : Instant} {r r' : OrderRecord} {result : WebhookProcessResult}
    (h : applyDeliveredEvent p record event now r = .ok (result, r')) :
    OnlyMessages r r' ∨ Delivers p r r' := by
  unfold applyDeliveredEvent at h
  split at h
  · cases h
    exact Or.inl rfl
  · next able =>
    split at h
    · cases h
      exact Or.inl rfl
    · next moves =>
      rw [not_or] at moves
      obtain ⟨-, rfl, passes⟩ := guarded_ok h
      have state : r.order.fulfillmentState = .bitcoinVerified := by
        simp only [deliverable, Bool.and_eq_true, Bool.or_eq_true, beq_iff_eq,
          Bool.not_eq_false] at able
        exact able.2.resolve_right moves.2
      exact Or.inr ⟨state, passes, event.svixEventId, now, rfl⟩

/-- A change after the messages were touched is a change of the record before it. -/
lemma onlyMessages_then {p : Platform} {r middle r' : OrderRecord} (first : OnlyMessages r middle)
    (second : OnlyMessages middle r' ∨ Delivers p middle r') :
    OnlyMessages r r' ∨ Delivers p r r' := by
  unfold OnlyMessages at first
  rcases second with messages | ⟨state, passes, svixEventId, now, delivered⟩
  · unfold OnlyMessages at messages ⊢
    rw [first] at messages
    exact Or.inl messages
  · rw [first] at state passes delivered
    exact Or.inr ⟨state, passes, svixEventId, now, delivered⟩

lemma processEvent_ok {p : Platform} {event : VerifiedResendEvent} {payloadSha256 : Sha256}
    {now : Instant} {r r' : OrderRecord} {result : WebhookProcessResult}
    (h : processEvent p event payloadSha256 now r = .ok (result, r')) :
    OnlyMessages r r' ∨ Delivers p r r' := by
  unfold processEvent at h
  split at h
  · next existing found =>
    split at h
    · unfold reconcileReplayedEvent at h
      split at h
      · cases h
        exact Or.inl rfl
      · split at h
        · cases h
          exact Or.inl rfl
        · split at h
          · cases h
            exact Or.inl rfl
          · split at h
            · cases h
            · next applied =>
              cases h
              exact applyDeliveredEvent_ok applied
    · cases h
  · have inserted : OnlyMessages r { r with
        resendEvents := r.resendEvents ++ [storedEvent event payloadSha256 now] } := rfl
    split at h
    · cases h
      exact Or.inl inserted
    · split at h
      · cases h
        exact Or.inl inserted
      · split at h
        · cases h
          exact Or.inl rfl
        · split at h
          · cases h
            exact Or.inl inserted
          · exact onlyMessages_then inserted (applyDeliveredEvent_ok h)

lemma recordAccepted_ok {p : Platform} {message : ClaimedNotification}
    {acceptance : ProviderAcceptance} {now : Instant} {r r' : OrderRecord}
    (h : recordAccepted p message acceptance now r = .ok r') :
    OnlyMessages r r' ∨ Delivers p r r' := by
  unfold recordAccepted at h
  split at h
  · cases h
  · split at h
    · cases h
    · split at h
      · cases h
      · have accepted : OnlyMessages r (finishAccepted message acceptance now r) := rfl
        simp only at h
        split at h
        · cases h
          exact Or.inl accepted
        · split at h
          · cases h
          · next applied =>
            cases h
            exact onlyMessages_then accepted (applyDeliveredEvent_ok applied)

end NotificationAdapters
