import SpacerocksCoa.ProofRecords
import SpacerocksCoa.JobClaims

/-!
# The rows of one order

Everything the database keeps about one order, in tables that are lists in insertion
order, with the selections the adapters make on them and the trigger that guards an
update of the order row. Rows of other orders are not represented: no statement of the
modelled transactions reads or writes them.

Columns that repeat another column under a check constraint (the length of a proof, its
state next to its metadata) are not stored twice.
-/
namespace OrderRows
open OrderStates ProofRecords JobClaims

inductive PaymentMode where
  | disabled | fixture | stripeTest | stripeLive
  deriving DecidableEq, Repr

/-- The columns that never change after the order is created. -/
structure OrderSnapshot where
  orderReference : OrderReference
  certificateReference : CertificateReference
  manifestDigest : ManifestDigest
  email : String
  amountMinor : Nat
  currency : String
  paymentMode : PaymentMode
  deriving DecidableEq

structure Order where
  id : Nat
  snapshot : OrderSnapshot
  paymentState : PaymentState
  fulfillmentState : FulfillmentState
  checkoutSessionId : Option String
  paymentIntentId : Option String
  calendarSubmittedAt : Option Instant
  deriving DecidableEq

/-- The key of the stamp job of an order. -/
def Order.fulfillmentKey (order : Order) : JobKey := .stamp order.id

def Order.state (order : Order) : OrderState OrderSnapshot :=
  ⟨order.snapshot, order.paymentState, order.fulfillmentState⟩

/-! ## Rows -/

structure ProofVersion where
  version : Nat
  targetDigest : ManifestDigest
  proofBytes : Bytes
  proofSha256 : Sha256
  calendarSubmittedAt : Instant
  verificationMetadata : Option (Evidence Instant)
  deriving DecidableEq

structure ProofVerification where
  proofVersion : Nat
  block : BlockEvidence Instant
  verifiedAt : Instant
  deriving DecidableEq

structure ProofBundle where
  proofVersion : Nat
  bundleBytes : Bytes
  bundleSha256 : Sha256
  deriving DecidableEq

/-- The text `bitcoin-observed-v{version}-{confirmations}-{microseconds}`. -/
structure ObservationKey where
  proofVersion : Nat
  confirmations : Nat
  observedMicros : Int
  deriving DecidableEq

@[ext] structure Observation where
  id : Nat
  proofVersion : Nat
  observedConfirmations : Nat
  confirmed : 1 ≤ observedConfirmations
  blockHeight : Nat
  blockHash : String
  method : String
  confirmationPolicy : String
  observedAt : Instant
  eventKey : ObservationKey
  createdAt : Instant

instance : DecidableEq Observation := fun _ _ => decidable_of_iff _ Observation.ext_iff.symm

/-- The texts under which a state event is recorded once. -/
inductive EventKey where
  | stampReplayStart (version : Nat)
  | stampReplay (version : Nat)
  | stampStart
  | stampResponse
  | stampPersisted
  | bitcoinReverified (version : Nat) (micros : Int)
  | bitcoinVerified (version : Nat)
  | workerTerminal (safeCode : String)
  | stripe (eventId : String)
  | resendDelivered (svixEventId : String)
  | checkout (order : Nat)
  | download (id : Nat)
  deriving DecidableEq

def EventKey.text : EventKey → String
  | stampReplayStart version => "stamp-replay-start-v" ++ toString version
  | stampReplay version => "stamp-replay-v" ++ toString version
  | stampStart => "stamp-start-v1"
  | stampResponse => "stamp-response-v1"
  | stampPersisted => "stamp-persisted-v1"
  | bitcoinReverified version micros =>
    "bitcoin-reverified-v" ++ toString version ++ "-" ++ toString micros
  | bitcoinVerified version => "bitcoin-verified-v" ++ toString version
  | workerTerminal safeCode => "worker-terminal-" ++ safeCode
  | stripe eventId => "stripe:" ++ eventId
  | resendDelivered svixEventId => "resend-delivered:" ++ svixEventId
  | checkout order => "checkout:" ++ toString order
  | download id => "download:" ++ toString id

inductive EventSource where
  | fulfillmentWorker | stripeWebhook | resendWebhook | checkout | customerDownload
  deriving DecidableEq, Repr

structure StateEvent where
  sequence : Nat
  eventKey : EventKey
  source : EventSource
  previousPaymentState : PaymentState
  paymentState : PaymentState
  previousFulfillmentState : FulfillmentState
  fulfillmentState : FulfillmentState
  createdAt : Instant
  deriving DecidableEq

inductive OutboxState where
  | available | leased | retry | accepted | delivered | failed | deadLetter
  deriving DecidableEq, Repr

inductive OutboxKind where
  | notification (kind : NotificationKind)
  | paymentConfirmed
  deriving DecidableEq

inductive OutboxKey where
  | milestone (key : MessageKey)
  | paymentConfirmed (order : Nat)
  deriving DecidableEq

structure OutboxPayload where
  template : Option NotificationKind
  orderReference : OrderReference
  deriving DecidableEq

structure OutboxRecord where
  id : Nat
  messageKey : OutboxKey
  kind : OutboxKind
  recipient : String
  payload : OutboxPayload
  state : OutboxState
  attemptCount : Nat
  maxAttempts : Nat
  availableAt : Instant
  leaseOwner : Option String
  leaseUntil : Option Instant
  leaseToken : Option Nat
  proofVersion : Option Nat
  confirmationCount : Option Nat
  confirmationObservationId : Option Nat
  providerMessageId : Option String
  acceptedAt : Option Instant
  deliveredAt : Option Instant
  idempotencyExpiresAt : Instant
  safeErrorCode : Option String
  createdAt : Instant
  deriving DecidableEq

inductive AttemptOutcome where
  | accepted | retry | failed | deadLetter | leaseExpired
  deriving DecidableEq, Repr

structure NotificationAttempt where
  outboxId : Nat
  attemptNumber : Nat
  workerId : String
  leaseToken : Nat
  startedAt : Instant
  finishedAt : Option Instant
  outcome : Option AttemptOutcome
  responseStatus : Option Nat
  providerMessageId : Option String
  safeErrorCode : Option String
  deriving DecidableEq

inductive ResendEventType where
  | delivered | bounced | failed | complained
  | other (name : String)
  deriving DecidableEq

structure ResendWebhookEvent where
  svixEventId : String
  eventType : ResendEventType
  providerMessageId : String
  payloadSha256 : Sha256
  eventCreatedAt : Instant
  processedAt : Instant
  deriving DecidableEq

inductive StripeEventType where
  | checkoutSessionCompleted | asyncPaymentSucceeded | asyncPaymentFailed
  | checkoutSessionExpired | chargeRefunded | refundCreated | refundUpdated
  | chargeDisputeCreated | chargeDisputeUpdated
  | other (name : String)
  deriving DecidableEq

structure StripeEvent where
  stripeEventId : String
  eventType : StripeEventType
  livemode : Bool
  payloadSha256 : Sha256
  processedAt : Option Instant
  safeErrorCode : Option String
  deriving DecidableEq

structure OrderRecord where
  order : Order
  proofs : List ProofVersion
  verifications : List ProofVerification
  bundles : List ProofBundle
  observations : List Observation
  stateEvents : List StateEvent
  outbox : List OutboxRecord
  notificationAttempts : List NotificationAttempt
  resendEvents : List ResendWebhookEvent
  stripeEvents : List StripeEvent
  tables : JobTables
  deriving DecidableEq

/-! ## Selections -/

/-- The row of the highest version. -/
def OrderRecord.latestProof (r : OrderRecord) : Option ProofVersion :=
  List.argmax ProofVersion.version r.proofs

def OrderRecord.proof (r : OrderRecord) (version : Nat) : Option ProofVersion :=
  r.proofs.find? (fun p => p.version == version)

def OrderRecord.verification (r : OrderRecord) (version : Nat) : Option ProofVerification :=
  r.verifications.find? (fun v => v.proofVersion == version)

def OrderRecord.bundle (r : OrderRecord) (version : Nat) : Option ProofBundle :=
  r.bundles.find? (fun b => b.proofVersion == version)

/-- The order in which observations are looked at: by the instant they report, then by
the instant they were recorded, then by identifier. -/
def Observation.order (o : Observation) : Int ×ₗ Int ×ₗ Nat :=
  toLex (o.observedAt, toLex (o.createdAt, o.id))

def OrderRecord.latestObservation (r : OrderRecord) (version : Nat) : Option Observation :=
  List.argmax Observation.order (r.observations.filter (fun o => o.proofVersion == version))

def OrderRecord.observation (r : OrderRecord) (id : Nat) : Option Observation :=
  r.observations.find? (fun o => o.id == id)

def OrderRecord.stateEvent (r : OrderRecord) (key : EventKey) : Option StateEvent :=
  r.stateEvents.find? (fun e => e.eventKey == key)

/-- One more than the highest sequence number so far. -/
def OrderRecord.nextSequence (r : OrderRecord) : Nat :=
  (r.stateEvents.map StateEvent.sequence).foldl max 0 + 1

def OrderRecord.message (r : OrderRecord) (key : OutboxKey) : Option OutboxRecord :=
  r.outbox.find? (fun m => m.messageKey == key)

/-- An observation and a verification name the same block in the same way. -/
def Observation.matchesVerification (o : Observation) (v : ProofVerification) : Bool :=
  o.blockHeight == v.block.blockHeight && o.blockHash == v.block.blockHash &&
    o.method == v.block.method && o.confirmationPolicy == v.block.confirmationPolicy

/-! ## The trigger on the order row -/

/-- The check constraint `ck_orders_paid_before_work`. -/
def paidBeforeWork (order : Order) : Bool :=
  order.fulfillmentState == .awaitingPayment || order.fulfillmentState == .manualReview ||
    decide (Settled order.paymentState)

/-- Evidence the trigger wants before an order becomes verified. -/
def latestVerified (r : OrderRecord) : Bool :=
  match r.latestProof with
  | none => false
  | some latest => (r.verification latest.version).isSome

/-- A delivered initial confirmation whose bound and current observations agree with the
verification of the version. -/
def senderEvidence (r : OrderRecord) (version : Nat) (v : ProofVerification)
    (sender : OutboxRecord) : Bool :=
  sender.messageKey == .milestone ⟨.initialConfirmation, version, r.order.snapshot.orderReference⟩ &&
    sender.kind == .notification .initialConfirmation &&
    sender.proofVersion == some version &&
    sender.confirmationCount.any (fun count => decide (1 ≤ count)) &&
    sender.state == .delivered && sender.providerMessageId.isSome &&
    sender.acceptedAt.isSome && sender.deliveredAt.isSome &&
    r.resendEvents.any (fun event => some event.providerMessageId == sender.providerMessageId &&
      event.eventType == .delivered) &&
    (sender.confirmationObservationId.bind r.observation).any (fun bound =>
      bound.proofVersion == version && some bound.observedConfirmations == sender.confirmationCount &&
        decide (1 ≤ bound.observedConfirmations) && bound.matchesVerification v) &&
    (r.latestObservation version).any (fun current =>
      decide (1 ≤ current.observedConfirmations) && current.matchesVerification v)

def latestDelivered (r : OrderRecord) : Bool :=
  match r.latestProof with
  | none => false
  | some latest =>
    match r.verification latest.version with
    | none => false
    | some v => (r.bundle latest.version).isSome &&
      r.outbox.any (senderEvidence r latest.version v)

/-- `enforce_order_state_transition` with the check constraint: whether the update of the
order row from `before` is let through. The record holds the rows as the trigger sees
them, the new order row included. -/
def enforceOrderStateTransition (before : Order) (r : OrderRecord) : Bool :=
  decide (PaymentEdge before.paymentState r.order.paymentState) &&
    decide (FulfillmentEdge before.fulfillmentState r.order.fulfillmentState) &&
    (before.fulfillmentState == r.order.fulfillmentState ||
      ((r.order.fulfillmentState != .queued || r.order.paymentState == .paid) &&
        (r.order.fulfillmentState != .bitcoinVerified || latestVerified r) &&
        (r.order.fulfillmentState != .delivered || latestDelivered r))) &&
    paidBeforeWork r.order

end OrderRows
