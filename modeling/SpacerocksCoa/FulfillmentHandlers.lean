import SpacerocksCoa.TransactionalPrograms
import SpacerocksCoa.NotificationAdapters

/-!
# The four fulfillment handlers as programs

Stamping, upgrading, delivery and confirmation monitoring, each a program that reads and
writes one order in separate transactions and talks to calendars and verifiers between
them. A request is one transaction, one remote call or one reading of the clock; nothing
else of the world is visible to a handler, so between two requests anything may happen.
-/
namespace FulfillmentHandlers
open OrderStates ProofRecords OrderRows JobClaims FulfillmentAdapters NotificationAdapters
open TransactionalPrograms TransactionalPrograms.Prog

/-- What a calendar can do besides answering: break the proof, or anything else. -/
inductive CalendarError where
  | proofInvalid | unavailable
  deriving DecidableEq

inductive VerifierError where
  | unavailable | evidenceInvalid | unexpected
  deriving DecidableEq

inductive Request where
  | getForFulfillment
  | latest
  | transitionFulfillmentOnce (target : FulfillmentState) (eventKey : EventKey)
      (calendarSubmittedAt : Option Instant)
  | stampExactDigest (digest : ManifestDigest)
  | upgradeExactDigest (digest : ManifestDigest) (proofBytes : Bytes)
  | verifyExactDigest (digest : ManifestDigest) (proofBytes : Bytes)
  | append (proof : StoredProof Instant)
  | putVerifiedOnce (proofVersion : Nat) (result : BitcoinVerification Instant)
  | getVerified (proofVersion : Nat)
  | recordOnce (proofVersion : Nat) (eventKey : ObservationKey)
      (verification : BitcoinVerification Instant)
  | latestObservation (proofVersion : Nat)
  | putOnce (proofVersion : Nat) (bundle : Bytes)
  | enqueue (message : OutboxMessage)
  | now
  | enqueueOnce (spec : JobSpec) (availableAt : Instant)
  | dispatchDue (jobId generation : Nat)
  | createTask (jobId generation : Nat)
  | recordDispatched (jobId generation : Nat)
  | recordDispatchFailure (jobId generation : Nat)
  | heartbeat (job : ClaimedJob) (leaseUntil : Instant)
  | retryAt (attempt : Nat)
  | finish (job : ClaimedJob) (outcome : JobOutcome) (now : Instant) (retryAt : Option Instant)
      (safeErrorCode : Option String)

abbrev Reply : Request → Type
  | .getForFulfillment => Option FulfillmentOrder
  | .latest => Option (StoredProof Instant)
  | .transitionFulfillmentOnce _ _ _ => Except AdapterError FulfillmentOrder
  | .stampExactDigest _ => Except CalendarError (PendingProof Instant)
  | .upgradeExactDigest _ _ => Except CalendarError Bytes
  | .verifyExactDigest _ _ => Except VerifierError (BitcoinVerification Instant)
  | .append _ => Except AdapterError Unit
  | .putVerifiedOnce _ _ => Except AdapterError Unit
  | .getVerified _ => Except AdapterError (Option (Evidence Instant))
  | .recordOnce _ _ _ => Except AdapterError Observation
  | .latestObservation _ => Option Observation
  | .putOnce _ _ => Except AdapterError Unit
  | .enqueue _ => Except AdapterError Unit
  | .now => Instant
  | .enqueueOnce _ _ => Enqueued
  | .dispatchDue _ _ => Bool
  | .createTask _ _ => Bool
  | .recordDispatched _ _ => Bool
  | .recordDispatchFailure _ _ => Unit
  | .heartbeat _ _ => Bool
  | .retryAt _ => Instant
  | .finish _ _ _ _ _ => Except AdapterError (Option (Nat × Nat))

/-- How a handler can end other than normally. -/
inductive Failure where
  | manualReview (safeCode : String)
  | retryable (safeCode : String)
  | confirmationPending
  | adapter (error : AdapterError)
  | dispatchUnavailable
  | unexpected
  deriving DecidableEq

abbrev Handler (α : Type) := Prog Request Reply Failure α

abbrev call (q : Request) : Handler (Reply q) := request q

structure Services where
  platform : Platform
  /-- `int(t.timestamp() * 1_000_000)`, a floating point computation. -/
  timestampMicros : Instant → Int
  buildReceipt : StoredProof Instant → CertificateReference → Except String Bytes
  build : StoredProof Instant → Bytes → CertificateReference → Except String Bytes
  /-- Whether created jobs get a cloud task. -/
  taskDispatch : Bool

/-- A reply of an adapter; its error is raised in the handler. -/
def adapter {α : Type} (reply : Except AdapterError α) : Handler α :=
  match reply with
  | .ok a => done a
  | .error e => fail (.adapter e)

def valueError {α : Type} (reply : Except String α) : Handler α :=
  match reply with
  | .ok a => done a
  | .error code => fail (.adapter (.value code))

/-! One request each, under the name of the method the source calls. -/

abbrev getForFulfillment : Handler (Option FulfillmentOrder) := call .getForFulfillment

abbrev latestProof : Handler (Option (StoredProof Instant)) := call .latest

abbrev stampExactDigest (digest : ManifestDigest) :
    Handler (Except CalendarError (PendingProof Instant)) :=
  call (.stampExactDigest digest)

abbrev upgradeExactDigest (digest : ManifestDigest) (proofBytes : Bytes) :
    Handler (Except CalendarError Bytes) :=
  call (.upgradeExactDigest digest proofBytes)

abbrev verifyExactDigest (digest : ManifestDigest) (proofBytes : Bytes) :
    Handler (Except VerifierError (BitcoinVerification Instant)) :=
  call (.verifyExactDigest digest proofBytes)

abbrev appendProof (proof : StoredProof Instant) : Handler (Except AdapterError Unit) :=
  call (.append proof)

abbrev getVerifiedRow (proofVersion : Nat) :
    Handler (Except AdapterError (Option (Evidence Instant))) :=
  call (.getVerified proofVersion)

abbrev latestObservation (proofVersion : Nat) : Handler (Option Observation) :=
  call (.latestObservation proofVersion)

def manualReview {α : Type} (safeCode : String) : Handler α := fail (.manualReview safeCode)

def transition (target : FulfillmentState) (eventKey : EventKey)
    (calendarSubmittedAt : Option Instant) : Handler FulfillmentOrder := do
  adapter (← call (.transitionFulfillmentOnce target eventKey calendarSubmittedAt))

def load : Handler FulfillmentOrder := do
  match ← getForFulfillment with
  | none => manualReview "order_not_found"
  | some order => pure order

def verifyBitcoin (digest : ManifestDigest) (proofBytes : Bytes) :
    Handler (BitcoinVerification Instant) := do
  match ← verifyExactDigest digest proofBytes with
  | .ok verification => pure verification
  | .error .unavailable => fail (.retryable "bitcoin_verifier_unavailable")
  | .error .evidenceInvalid => manualReview "bitcoin_evidence_invalid"
  | .error .unexpected => fail .unexpected

/-- A `ValueError` of the append is forgiven when the stored latest version is exactly the
proof; an error of the database is not caught. -/
def appendOnce (proof : StoredProof Instant) : Handler Unit := do
  match ← appendProof proof with
  | .ok () => pure ()
  | .error .database => fail (.adapter .database)
  | .error (.value _) =>
    let replay ← latestProof
    if replay = some proof then pure () else manualReview "proof_append_conflict"

/-! ## Stamping -/

def stampReplay (s : Services) (order : FulfillmentOrder) (latest : StoredProof Instant) :
    Handler Unit := do
  if validateExactProof s.platform order.state.snapshot.manifestDigest latest.proofBytes
      (some latest.proofSha256) = false then
    manualReview "stored_proof_invalid"
  else if latest.targetDigest ≠ order.state.snapshot.manifestDigest then
    manualReview "stored_proof_target_mismatch"
  else if order.calendarSubmittedAt.any (fun time => time != latest.calendarSubmittedAt) then
    manualReview "proof_submission_time_conflict"
  else if order.state.fulfillment = .queued then
    let _ ← transition .stamping (.stampReplayStart latest.version)
      (some latest.calendarSubmittedAt)
    let _ ← transition .calendarPending (.stampReplay latest.version)
      (some latest.calendarSubmittedAt)
    pure ()
  else if order.state.fulfillment = .stamping then
    let _ ← transition .calendarPending (.stampReplay latest.version)
      (some latest.calendarSubmittedAt)
    pure ()
  else pure ()

/-- The part of the handler from the calendar submission on. -/
def stampSubmit (s : Services) (snapshot : OrderSnapshot) : Handler Unit := do
  match ← stampExactDigest snapshot.manifestDigest with
  | .error .proofInvalid => manualReview "calendar_proof_invalid"
  | .error .unavailable => fail (.retryable "calendar_submit_unavailable")
  | .ok pending =>
    if validateExactProof s.platform snapshot.manifestDigest pending.proofBytes none = false then
      manualReview "calendar_proof_invalid"
    else
      let stored ← adapter (makeStoredProof s.platform snapshot.orderReference 1
        snapshot.manifestDigest pending.proofBytes pending.calendarSubmittedAt none)
      appendOnce stored
      let _ ← transition .stamping .stampResponse (some pending.calendarSubmittedAt)
      let _ ← transition .calendarPending .stampPersisted (some pending.calendarSubmittedAt)
      pure ()

def stampHandler (s : Services) : Handler Unit := do
  let order ← load
  match ← latestProof with
  | some latest => stampReplay s order latest
  | none =>
    if order.state.payment ≠ .paid then manualReview "initial_stamp_not_paid"
    else
      let order ← if order.state.fulfillment = .queued then
          transition .stamping .stampStart none
        else pure order
      if order.state.fulfillment ≠ .stamping then manualReview "stamp_state_invalid"
      else stampSubmit s order.state.snapshot

/-! ## Upgrading and verifying again -/

/-- The same block in the same way, and not verified earlier than before. -/
def sameReverificationEvidence (existing : Option (Evidence Instant))
    (current : Evidence Instant) : Bool :=
  existing.any fun e => current.block == e.block && decide (e.verifiedAt ≤ current.verifiedAt)

def observationEventKey (s : Services) (proofVersion : Nat) (verification : Evidence Instant) :
    ObservationKey :=
  ⟨proofVersion, verification.confirmations, s.timestampMicros verification.verifiedAt⟩

def recordObservation (s : Services) (proofVersion : Nat) (verification : Evidence Instant) :
    Handler Observation := do
  adapter (← call (.recordOnce proofVersion (observationEventKey s proofVersion verification)
    (.verified verification)))

/-- The upgrade handler on an order that is already verified or delivered. -/
def reverify (s : Services) (order : FulfillmentOrder) (latest : StoredProof Instant) :
    Handler Unit := do
  match ← verifyBitcoin order.state.snapshot.manifestDigest latest.proofBytes with
  | .unverified _ _ => manualReview "bitcoin_reverification_failed"
  | .verified verification =>
    if sameReverificationEvidence latest.verification verification = false then
      manualReview "bitcoin_reverification_metadata_conflict"
    else
      let _ ← recordObservation s latest.version verification
      let _ ← transition order.state.fulfillment
        (.bitcoinReverified latest.version (s.timestampMicros verification.verifiedAt)) none
      pure ()

/-- The upgrade handler from the verification of the bytes it holds on. -/
def confirmUpgrade (s : Services) (digest : ManifestDigest) (latest : StoredProof Instant) :
    Handler Unit := do
  match ← verifyBitcoin digest latest.proofBytes with
  | .unverified _ _ => fail .confirmationPending
  | .verified verification =>
    adapter (← call (.putVerifiedOnce latest.version (.verified verification)))
    let _ ← recordObservation s latest.version verification
    let _ ← transition .bitcoinVerified (.bitcoinVerified latest.version) none
    pure ()

def upgradePending (s : Services) (snapshot : OrderSnapshot) (latest : StoredProof Instant) :
    Handler Unit := do
  match ← upgradeExactDigest snapshot.manifestDigest latest.proofBytes with
  | .error .proofInvalid => manualReview "upgraded_proof_invalid"
  | .error .unavailable => fail (.retryable "calendar_upgrade_unavailable")
  | .ok upgradedBytes =>
    if validateExactProof s.platform snapshot.manifestDigest upgradedBytes none = false then
      manualReview "upgraded_proof_invalid"
    else if upgradedBytes = latest.proofBytes then
      confirmUpgrade s snapshot.manifestDigest latest
    else
      let upgraded ← adapter (makeStoredProof s.platform snapshot.orderReference
        (latest.version + 1) snapshot.manifestDigest upgradedBytes latest.calendarSubmittedAt none)
      appendOnce upgraded
      confirmUpgrade s snapshot.manifestDigest upgraded

def upgradeHandler (s : Services) : Handler Unit := do
  let order ← load
  match ← latestProof with
  | none => manualReview "proof_missing"
  | some latest =>
    if validateExactProof s.platform order.state.snapshot.manifestDigest latest.proofBytes
        (some latest.proofSha256) = false then
      manualReview "stored_proof_invalid"
    else if order.calendarSubmittedAt ≠ some latest.calendarSubmittedAt then
      manualReview "proof_submission_time_conflict"
    else if order.state.fulfillment = .bitcoinVerified ∨ order.state.fulfillment = .delivered then
      reverify s order latest
    else if order.state.fulfillment ≠ .calendarPending then manualReview "upgrade_state_invalid"
    else upgradePending s order.state.snapshot latest

/-! ## Delivery and monitoring -/

def enqueueMilestone (kind : NotificationKind) (snapshot : OrderSnapshot)
    (proofVersion confirmations : Nat) : Handler Unit := do
  let message ← valueError (notificationMessage kind snapshot.orderReference snapshot.email
    proofVersion confirmations)
  adapter (← call (.enqueue message))

/-- Delivery once the proof and its verification agree. -/
def deliver (s : Services) (snapshot : OrderSnapshot) (proof : StoredProof Instant) :
    Handler Unit := do
  match ← latestObservation proof.version with
  | none => manualReview "delivery_confirmation_observation_missing"
  | some observation =>
    let receipt ← valueError (s.buildReceipt proof snapshot.certificateReference)
    let bundle ← valueError (s.build proof receipt snapshot.certificateReference)
    adapter (← call (.putOnce proof.version bundle))
    enqueueMilestone .initialConfirmation snapshot proof.version observation.observedConfirmations

def deliveryHandler (s : Services) : Handler Unit := do
  let order ← load
  if order.state.fulfillment ≠ .bitcoinVerified ∧ order.state.fulfillment ≠ .delivered then
    manualReview "delivery_state_invalid"
  else if order.calendarSubmittedAt = none then manualReview "proof_submission_time_missing"
  else
    match ← latestProof with
    | none => manualReview "proof_missing"
    | some proof =>
      if some proof.calendarSubmittedAt ≠ order.calendarSubmittedAt then
        manualReview "proof_submission_time_conflict"
      else
        match ← adapter (← getVerifiedRow proof.version) with
        | none => manualReview "delivery_verification_metadata_missing"
        | some verification =>
          if proof.verification ≠ some verification then
            manualReview "delivery_proof_metadata_mismatch"
          else deliver s order.state.snapshot proof

/-- Monitoring from the new verification on, against what was stored and last observed. -/
def confirmAgain (s : Services) (snapshot : OrderSnapshot) (proof : StoredProof Instant)
    (stored : Evidence Instant) (previous : Observation) : Handler Unit := do
  match ← verifyBitcoin snapshot.manifestDigest proof.proofBytes with
  | .unverified _ _ => manualReview "bitcoin_confirmation_lost"
  | .verified current =>
    if sameReverificationEvidence (some stored) current = false then
      manualReview "bitcoin_reverification_metadata_conflict"
    else if current.confirmations < previous.observedConfirmations then
      manualReview "bitcoin_confirmation_count_decreased"
    else
      let observation ← recordObservation s proof.version current
      if observation.observedConfirmations < 6 then fail .confirmationPending
      else
        enqueueMilestone .finalConfirmation snapshot proof.version
          observation.observedConfirmations

def confirmationHandler (s : Services) : Handler Unit := do
  let order ← load
  if order.state.fulfillment ≠ .bitcoinVerified ∧ order.state.fulfillment ≠ .delivered then
    manualReview "confirmation_monitor_state_invalid"
  else
    match ← latestProof with
    | none => manualReview "proof_missing"
    | some proof =>
      if validateExactProof s.platform order.state.snapshot.manifestDigest proof.proofBytes
          (some proof.proofSha256) = false then
        manualReview "stored_proof_invalid"
      else
        let stored ← adapter (← getVerifiedRow proof.version)
        let previous ← latestObservation proof.version
        match stored, previous with
        | some stored, some previous =>
          confirmAgain s order.state.snapshot proof stored previous
        | _, _ => manualReview "confirmation_monitor_evidence_missing"

end FulfillmentHandlers
