import SpacerocksCoa.TransactionalPrograms
import SpacerocksCoa.FulfillmentAdapters

/-!
# Stripe events and the payment state of an order

The processing of an authentic Stripe event: the duplicate check, the two calls to the
provider, and the transaction that records the event, validates its binding to the order
and the canonical checkout, and applies it. The binding of a checkout session to the order
is here as well, since both race.

The database of the model holds one order; an event that names another order is treated as
naming none. Signature verification and the reservation around a checkout are outside.
-/
namespace PaymentWebhooks
open OrderStates OrderRows JobClaims FulfillmentAdapters
open TransactionalPrograms TransactionalPrograms.Prog

structure ProviderEvent where
  eventId : String
  eventType : StripeEventType
  livemode : Bool
  internalOrderId : Option String
  sessionId : Option String
  paymentIntentId : Option String
  refundStatus : Option String
  refundedAmount : Option Int
  deriving DecidableEq

structure CanonicalCheckout where
  sessionId : String
  paymentIntentId : Option String
  livemode : Bool
  mode : String
  status : String
  paymentStatus : String
  metadata : List (String × String)
  priceId : String
  amountTotal : Int
  currency : String
  quantity : Int
  refundStatus : Option String
  refundedAmountTotal : Int
  deriving DecidableEq

structure WebhookResult where
  duplicate : Bool
  accepted : Bool
  deriving DecidableEq

structure PaymentSettings where
  paymentMode : PaymentMode
  stripePriceId : Option String
  /-- `uuid.UUID`, as the number it denotes. -/
  parseUuid : String → Option Nat
  /-- `str` of an order identifier. -/
  uuidText : Nat → String
  platform : Platform

def PaymentSettings.expectedPrice (settings : PaymentSettings) : String :=
  match settings.stripePriceId with
  | none => "fixture_price"
  | some price => if price = "" then "fixture_price" else price

def PaymentSettings.expectedLivemode (settings : PaymentSettings) : Bool :=
  settings.paymentMode == .stripeLive

/-- A missing or empty text counts as absent. -/
def truthy (text : Option String) : Option String := text.filter (fun t => t != "")

/-! ## Deciding what an event means -/

def StripeEventType.isRefund : StripeEventType → Bool
  | .chargeRefunded => true
  | .refundCreated => true
  | .refundUpdated => true
  | _ => false

def StripeEventType.isComplete : StripeEventType → Bool
  | .checkoutSessionCompleted => true
  | .asyncPaymentSucceeded => true
  | .asyncPaymentFailed => true
  | _ => false

def StripeEventType.isDispute : StripeEventType → Bool
  | .chargeDisputeCreated => true
  | .chargeDisputeUpdated => true
  | _ => false

def authoritativeFullRefund (event : ProviderEvent) (canonical : CanonicalCheckout) : Bool :=
  event.refundStatus == some "succeeded" &&
    event.refundedAmount.any (fun amount => decide (0 < amount)) &&
    canonical.refundStatus == some "succeeded" &&
    canonical.refundedAmountTotal == canonical.amountTotal && decide (0 < canonical.amountTotal)

/-- `value in {None, other}`. -/
def absentOr (value other : Option String) : Bool := value.isNone || value == other

def baseValid (settings : PaymentSettings) (order : Order) (event : ProviderEvent)
    (canonical : CanonicalCheckout) : Bool :=
  event.livemode == settings.expectedLivemode && canonical.livemode == settings.expectedLivemode &&
    canonical.mode == "payment" &&
    canonical.metadata == [("order_id", settings.uuidText order.id)] &&
    some canonical.sessionId == order.checkoutSessionId &&
    absentOr event.sessionId (some canonical.sessionId) &&
    absentOr event.paymentIntentId canonical.paymentIntentId &&
    absentOr order.paymentIntentId canonical.paymentIntentId &&
    canonical.priceId == settings.expectedPrice &&
    canonical.amountTotal == (order.snapshot.amountMinor : Int) &&
    canonical.currency == order.snapshot.currency && canonical.quantity == 1 &&
    order.snapshot.paymentMode == settings.paymentMode && settings.paymentMode != .disabled

/-- Whether the event needs a payment intent that agrees with the canonical checkout. -/
def intentRequired (event : ProviderEvent) (canonical : CanonicalCheckout) : Bool :=
  event.eventType == .asyncPaymentSucceeded || StripeEventType.isRefund event.eventType ||
    StripeEventType.isDispute event.eventType ||
    (event.eventType == .checkoutSessionCompleted && canonical.paymentStatus == "paid")

def validBinding (settings : PaymentSettings) (order : Order) (event : ProviderEvent)
    (canonical : CanonicalCheckout) : Bool :=
  if baseValid settings order event canonical = false then false
  else if StripeEventType.isComplete event.eventType && canonical.status != "complete" then false
  else if event.eventType == .checkoutSessionExpired && canonical.status != "expired" then false
  else if StripeEventType.isRefund event.eventType && !authoritativeFullRefund event canonical then
    true
  else
    !intentRequired event canonical ||
      (event.paymentIntentId.isSome && event.paymentIntentId == canonical.paymentIntentId)

/-- The payment state the event asks for, if it asks for one. -/
def eventTarget (event : ProviderEvent) (canonical : CanonicalCheckout) : Option PaymentState :=
  match event.eventType with
  | .checkoutSessionCompleted =>
    if canonical.paymentStatus = "paid" then some .paid
    else if canonical.paymentStatus = "unpaid" then some .processing
    else none
  | .asyncPaymentSucceeded => if canonical.paymentStatus = "paid" then some .paid else none
  | .asyncPaymentFailed => if canonical.paymentStatus = "paid" then none else some .failed
  | .checkoutSessionExpired => some .expired
  | .chargeRefunded | .refundCreated | .refundUpdated =>
    if authoritativeFullRefund event canonical then some .refunded else none
  | .chargeDisputeCreated | .chargeDisputeUpdated => some .disputed
  | .other _ => none

/-- `OrderStore.transition_payment`: an illegal or empty transition changes nothing. -/
def transitionPayment (order : Order) (target : PaymentState) : Option Order :=
  match order.state.transitionPayment target with
  | .error _ => none
  | .ok changed =>
    if changed.payment = order.paymentState then none
    else some { order with paymentState := changed.payment }

def applyEvent (order : Order) (event : ProviderEvent) (canonical : CanonicalCheckout) :
    Option Order :=
  (eventTarget event canonical).bind (transitionPayment order)

/-! ## The transaction -/

/-- Which order an event names: by identifier when it carries one, else by payment intent. -/
def findOrderForEvent (settings : PaymentSettings) (event : ProviderEvent) (r : OrderRecord) :
    Option Order :=
  match truthy event.internalOrderId, truthy event.paymentIntentId with
  | some text, _ => if settings.parseUuid text = some r.order.id then some r.order else none
  | none, some intent => if r.order.paymentIntentId = some intent then some r.order else none
  | none, none => none

def duplicateResult (recorded : StripeEvent) (event : ProviderEvent) (payloadSha256 : Sha256) :
    WebhookResult :=
  let exact := recorded.payloadSha256 == payloadSha256 && recorded.eventType == event.eventType &&
    recorded.livemode == event.livemode && recorded.processedAt.isSome
  ⟨exact, exact && recorded.safeErrorCode.isNone⟩

def OrderRecord.stripeEvent (r : OrderRecord) (eventId : String) : Option StripeEvent :=
  r.stripeEvents.find? (fun e => e.stripeEventId == eventId)

def recordedEvent (event : ProviderEvent) (payloadSha256 : Sha256) (now : Instant)
    (safeErrorCode : Option String) : StripeEvent :=
  ⟨event.eventId, event.eventType, event.livemode, payloadSha256, some now, safeErrorCode⟩

def recordStripeEvent (r : OrderRecord) (event : StripeEvent) : OrderRecord :=
  { r with stripeEvents := r.stripeEvents ++ [event] }

def paymentConfirmedMessage (id : Nat) (order : Order) (now : Instant) : OutboxRecord where
  id := id
  messageKey := .paymentConfirmed order.id
  kind := .paymentConfirmed
  recipient := order.snapshot.email
  payload := ⟨none, order.snapshot.orderReference⟩
  state := .available
  attemptCount := 0
  maxAttempts := 12
  availableAt := now
  leaseOwner := none
  leaseUntil := none
  leaseToken := none
  proofVersion := none
  confirmationCount := none
  confirmationObservationId := none
  providerMessageId := none
  acceptedAt := none
  deliveredAt := none
  idempotencyExpiresAt := now + 24 * 3600 * 1000000
  safeErrorCode := none
  createdAt := now

def stampSpec (order : Order) : JobSpec where
  jobKey := order.fulfillmentKey
  kind := .stampManifestDigest
  orderId := order.id

/-- The stamp job and the payment message, unless the job exists. -/
def enqueueFulfillment (order : Order) (now : Instant) (jobId messageId : Nat) (r : OrderRecord) :
    OrderRecord :=
  if r.tables.jobs.any (fun job => job.jobKey == order.fulfillmentKey) then r
  else { r with
    tables := insertJob (stampSpec order) now now jobId r.tables
    outbox := r.outbox ++ [paymentConfirmedMessage messageId order now] }

/-- The order once its payment has changed; a paid order is queued. -/
def settleOrder (order : Order) : Order :=
  if order.paymentState = .paid then { order with fulfillmentState := .queued } else order

def adoptIntent (order : Order) (canonical : CanonicalCheckout) : Order :=
  match truthy canonical.paymentIntentId, order.paymentIntentId with
  | some intent, none => { order with paymentIntentId := some intent }
  | _, _ => order

def applyToRecord (event : ProviderEvent) (canonical : CanonicalCheckout) (now : Instant)
    (jobId messageId : Nat) (r : OrderRecord) : OrderRecord :=
  match applyEvent r.order event canonical with
  | none => { r with order := adoptIntent r.order canonical }
  | some changed =>
    let order := settleOrder (adoptIntent changed canonical)
    let queued := if order.paymentState = .paid then
        enqueueFulfillment order now jobId messageId r
      else r
    { queued with
      order := order
      stateEvents := r.stateEvents ++
        [newStateEvent r (.stripe event.eventId) .stripeWebhook order now] }

def commitEvent (settings : PaymentSettings) (event : ProviderEvent) (payloadSha256 : Sha256)
    (canonical : Option CanonicalCheckout) (now : Instant) (jobId messageId : Nat)
    (r : OrderRecord) : Except AdapterError (WebhookResult × OrderRecord) :=
  match OrderRecord.stripeEvent r event.eventId with
  | some recorded => .ok (duplicateResult recorded event payloadSha256, r)
  | none =>
    match findOrderForEvent settings event r, canonical with
    | some order, some canonical =>
      if order.checkoutSessionId = none then
        .ok (⟨false, false⟩, recordStripeEvent r
          (recordedEvent event payloadSha256 now (some "order_binding_invalid")))
      else if validBinding settings order event canonical = false then
        .ok (⟨false, false⟩, recordStripeEvent r
          (recordedEvent event payloadSha256 now (some "payment_binding_invalid")))
      else
        guarded settings.platform r.order ⟨false, true⟩
          (recordStripeEvent (applyToRecord event canonical now jobId messageId r)
            (recordedEvent event payloadSha256 now none))
    | _, _ =>
      .ok (⟨false, false⟩, recordStripeEvent r
        (recordedEvent event payloadSha256 now (some "order_binding_invalid")))

/-! ## What the transaction can do -/

lemma transitionPayment_some {order changed : Order} {target : PaymentState}
    (h : transitionPayment order target = some changed) :
    changed = { order with paymentState := target } ∧ target ≠ order.paymentState ∧
      target ∈ paymentTransitions order.paymentState := by
  unfold transitionPayment at h
  cases moved : order.state.transitionPayment target with
  | error message => simp only [moved] at h; cases h
  | ok next =>
    obtain ⟨rfl, edge⟩ := transitionPayment_ok moved
    simp only [moved] at h
    split at h
    · cases h
    · next differs =>
      cases h
      exact ⟨rfl, differs, edge.resolve_left differs⟩

lemma adoptIntent_states (order : Order) (canonical : CanonicalCheckout) :
    (adoptIntent order canonical).paymentState = order.paymentState ∧
      (adoptIntent order canonical).fulfillmentState = order.fulfillmentState := by
  unfold adoptIntent
  split <;> exact ⟨rfl, rfl⟩

lemma enqueueFulfillment_stripeEvents (order : Order) (now : Instant) (jobId messageId : Nat)
    (r : OrderRecord) :
    (enqueueFulfillment order now jobId messageId r).stripeEvents = r.stripeEvents := by
  unfold enqueueFulfillment
  split <;> rfl

lemma applyToRecord_stripeEvents (event : ProviderEvent) (canonical : CanonicalCheckout)
    (now : Instant) (jobId messageId : Nat) (r : OrderRecord) :
    (applyToRecord event canonical now jobId messageId r).stripeEvents = r.stripeEvents := by
  cases applied : applyEvent r.order event canonical with
  | none => simp only [applyToRecord, applied]
  | some changed =>
    simp only [applyToRecord, applied]
    split
    · exact enqueueFulfillment_stripeEvents _ _ _ _ _
    · rfl

/-- Either no state changes and no job appears, or the payment takes one step of its table and
a payment that becomes `paid` queues the order. -/
lemma applyToRecord_states (event : ProviderEvent) (canonical : CanonicalCheckout)
    (now : Instant) (jobId messageId : Nat) (r : OrderRecord) :
    let r' := applyToRecord event canonical now jobId messageId r
    (r'.order.paymentState = r.order.paymentState ∧
        r'.order.fulfillmentState = r.order.fulfillmentState ∧ r'.tables = r.tables) ∨
      (r'.order.paymentState ∈ paymentTransitions r.order.paymentState ∧
        ((r'.order.paymentState = .paid ∧ r'.order.fulfillmentState = .queued) ∨
          (r'.order.paymentState ≠ .paid ∧
            r'.order.fulfillmentState = r.order.fulfillmentState ∧ r'.tables = r.tables))) := by
  intro r'
  cases applied : applyEvent r.order event canonical with
  | none =>
    have adopted : r' = { r with order := adoptIntent r.order canonical } := by
      simp only [r', applyToRecord, applied]
    left
    rw [adopted]
    exact ⟨(adoptIntent_states _ _).1, (adoptIntent_states _ _).2, rfl⟩
  | some changed =>
    obtain ⟨target, -, moved⟩ := Option.bind_eq_some_iff.1 applied
    obtain ⟨change, -, edge⟩ := transitionPayment_some moved
    obtain ⟨payment, fulfillment⟩ := adoptIntent_states changed canonical
    have reached : changed.paymentState = target := by rw [change]
    have kept : changed.fulfillmentState = r.order.fulfillmentState := by rw [change]
    rw [reached] at payment
    rw [kept] at fulfillment
    have order : r'.order = settleOrder (adoptIntent changed canonical) := by
      simp only [r', applyToRecord, applied]
    right
    by_cases paid : target = .paid
    · have queued : r'.order =
          { adoptIntent changed canonical with fulfillmentState := .queued } := by
        rw [order, settleOrder, if_pos (payment.trans paid)]
      rw [queued]
      exact ⟨payment.symm ▸ edge, Or.inl ⟨payment.trans paid, rfl⟩⟩
    · have unpaid : (adoptIntent changed canonical).paymentState ≠ .paid :=
        fun h => paid (payment.symm.trans h)
      have same : r'.order = adoptIntent changed canonical := by
        rw [order, settleOrder, if_neg unpaid]
      have tables : r'.tables = r.tables := by
        simp only [r', applyToRecord, applied, settleOrder, if_neg unpaid]
      rw [same]
      exact ⟨payment.symm ▸ edge, Or.inr ⟨unpaid, fulfillment, tables⟩⟩

/-- A commit answers a duplicate, records a rejection, or records and applies the event. -/
lemma commitEvent_ok {settings : PaymentSettings} {event : ProviderEvent}
    {payloadSha256 : Sha256} {canonical : Option CanonicalCheckout} {now : Instant}
    {jobId messageId : Nat} {r r' : OrderRecord} {result : WebhookResult}
    (h : commitEvent settings event payloadSha256 canonical now jobId messageId r =
      .ok (result, r')) :
    (∃ recorded, OrderRecord.stripeEvent r event.eventId = some recorded ∧
        result = duplicateResult recorded event payloadSha256 ∧ r' = r) ∨
      (OrderRecord.stripeEvent r event.eventId = none ∧ result = ⟨false, false⟩ ∧
        ∃ code, r' = recordStripeEvent r (recordedEvent event payloadSha256 now (some code))) ∨
      (OrderRecord.stripeEvent r event.eventId = none ∧ result = ⟨false, true⟩ ∧
        ∃ checkout, canonical = some checkout ∧
          r' = recordStripeEvent (applyToRecord event checkout now jobId messageId r)
            (recordedEvent event payloadSha256 now none)) := by
  unfold commitEvent at h
  cases known : OrderRecord.stripeEvent r event.eventId with
  | some recorded =>
    simp only [known] at h
    cases h
    exact Or.inl ⟨recorded, rfl, rfl, rfl⟩
  | none =>
    simp only [known] at h
    split at h
    · next order checkout found =>
      split at h
      · cases h
        exact Or.inr (Or.inl ⟨rfl, rfl, _, rfl⟩)
      · split at h
        · cases h
          exact Or.inr (Or.inl ⟨rfl, rfl, _, rfl⟩)
        · obtain ⟨rfl, rfl, -⟩ := guarded_ok h
          exact Or.inr (Or.inr ⟨rfl, rfl, checkout, rfl, rfl⟩)
    · cases h
      exact Or.inr (Or.inl ⟨rfl, rfl, _, rfl⟩)

/-- The part of a checkout's finalization that touches the order: the session is bound
once. -/
def bindSession (sessionId : String) (r : OrderRecord) : Except String OrderRecord :=
  if absentOr r.order.checkoutSessionId (some sessionId) then
    .ok { r with order := { r.order with checkoutSessionId := some sessionId } }
  else .error "provider session conflicts with reserved order"

/-- Nothing but the session is bound. -/
lemma bindSession_ok {sessionId : String} {r r' : OrderRecord}
    (bound : bindSession sessionId r = .ok r') :
    r' = { r with order := { r.order with checkoutSessionId := some sessionId } } := by
  unfold bindSession at bound
  split at bound
  · cases bound
    rfl
  · cases bound

/-! ## The service as a program -/

/-- Anything the provider raises. -/
inductive ProviderError where
  | unavailable
  deriving DecidableEq

inductive PaymentRequest where
  | stripeEvent (eventId : String)
  | resolveInternalOrderId (event : ProviderEvent)
  | boundSession (event : ProviderEvent)
  | retrieveCheckout (sessionId : String)
  | commitEvent (event : ProviderEvent) (payloadSha256 : Sha256)
      (canonical : Option CanonicalCheckout)

abbrev PaymentReply : PaymentRequest → Type
  | .stripeEvent _ => Option StripeEvent
  | .resolveInternalOrderId _ => Except ProviderError (Option String)
  | .boundSession _ => Option String
  | .retrieveCheckout _ => Except ProviderError CanonicalCheckout
  | .commitEvent _ _ _ => Except AdapterError WebhookResult

inductive PaymentFailure where
  | signature
  | provider (error : ProviderError)
  | adapter (error : AdapterError)
  deriving DecidableEq

abbrev Webhook (α : Type) := Prog PaymentRequest PaymentReply PaymentFailure α

abbrev callPayment (q : PaymentRequest) : Webhook (PaymentReply q) := request q

def fromProvider {α : Type} : Except ProviderError α → Webhook α
  | .ok a => done a
  | .error e => fail (.provider e)

/-- The event with its order, asked from the provider when the event does not carry it. -/
def resolveEvent (event : ProviderEvent) : Webhook ProviderEvent :=
  match event.internalOrderId with
  | some _ => done event
  | none => do
    let orderId ← fromProvider (← callPayment (.resolveInternalOrderId event))
    pure { event with internalOrderId := orderId }

/-- The checkout of the session bound to the event's order, if one is bound. -/
def retrieveBound : Option String → Webhook (Option CanonicalCheckout)
  | none => done none
  | some sessionId => do
    let canonical ← fromProvider (← callPayment (.retrieveCheckout sessionId))
    pure (some canonical)

def processNew (event : ProviderEvent) (payloadSha256 : Sha256) : Webhook WebhookResult := do
  let event ← resolveEvent event
  let session ← callPayment (.boundSession event)
  let canonical ← retrieveBound session
  match ← callPayment (.commitEvent event payloadSha256 canonical) with
  | .ok result => pure result
  | .error e => fail (.adapter e)

/-- `WebhookService.process` from an event whose signature was verified. -/
def processWebhook (settings : PaymentSettings) (event : ProviderEvent) (payloadSha256 : Sha256) :
    Webhook WebhookResult :=
  if event.livemode ≠ settings.expectedLivemode then fail .signature
  else do
    let recorded ← callPayment (.stripeEvent event.eventId)
    match recorded with
    | some recorded => pure (duplicateResult recorded event payloadSha256)
    | none => processNew event payloadSha256

structure PaymentEnv where
  now : Instant
  jobId : Nat
  messageId : Nat
  orderId : Except ProviderError (Option String)
  canonical : Except ProviderError CanonicalCheckout

def performPayment (settings : PaymentSettings) (env : PaymentEnv) :
    (q : PaymentRequest) → OrderRecord → PaymentReply q × OrderRecord
  | .stripeEvent eventId, r => (OrderRecord.stripeEvent r eventId, r)
  | .resolveInternalOrderId _, r => (env.orderId, r)
  | .boundSession event, r => ((findOrderForEvent settings event r).bind (·.checkoutSessionId), r)
  | .retrieveCheckout _, r => (env.canonical, r)
  | .commitEvent event payloadSha256 canonical, r =>
    match commitEvent settings event payloadSha256 canonical env.now env.jobId env.messageId r with
    | .ok (result, r') => (.ok result, r')
    | .error e => (.error e, r)

section
variable (settings : PaymentSettings) (env : PaymentEnv) (q : PaymentRequest) {r : OrderRecord}
  (holds : OrderRecord → Prop)

/-- Only a commit changes the record. -/
lemma performPayment_of_commit (same : holds r)
    (commits : ∀ event payloadSha256 canonical result r', commitEvent settings event payloadSha256
      canonical env.now env.jobId env.messageId r = .ok (result, r') → holds r') :
    holds (performPayment settings env q r).2 := by
  cases q with
  | commitEvent event payloadSha256 canonical =>
    simp only [performPayment]
    cases done : commitEvent settings event payloadSha256 canonical env.now env.jobId
        env.messageId r with
    | error e => exact same
    | ok committed => exact commits event payloadSha256 canonical _ _ done
  | stripeEvent | resolveInternalOrderId | boundSession | retrieveCheckout => exact same

/-- A payment request leaves the record, or records a rejected event, or records an event with
what it makes of the order. -/
lemma performPayment_of_events (same : holds r)
    (rejected : ∀ recorded, holds (recordStripeEvent r recorded))
    (applied : ∀ event checkout recorded, holds (recordStripeEvent
      (applyToRecord event checkout env.now env.jobId env.messageId r) recorded)) :
    holds (performPayment settings env q r).2 := by
  refine performPayment_of_commit settings env q holds same fun event _ _ _ r' done => ?_
  rcases commitEvent_ok done with ⟨_, -, -, rfl⟩ | ⟨-, -, _, rfl⟩ | ⟨-, -, checkout, -, rfl⟩
  · exact same
  · exact rejected _
  · exact applied event checkout _

end

end PaymentWebhooks
