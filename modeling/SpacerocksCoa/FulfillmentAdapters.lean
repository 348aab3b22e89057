import Mathlib.Data.List.Infix
import SpacerocksCoa.OrderRows

/-!
# The fulfillment transactions of one order

The proof store, the fulfillment repository, the verification repository and the bundle
repository. Each function is the body of one database transaction: on an error the
record is unchanged, because no new record is returned. The order row is locked by every
writer, so one transaction sees and leaves one record.

What lies outside this code is a parameter: the hash, the structural check of a detached
proof, the lowercase text of an address, and whether the database carries the trigger on
the order row.
-/
namespace FulfillmentAdapters
open OrderStates ProofRecords OrderRows

structure Platform where
  sha256 : Bytes → Sha256
  /-- Deserialization, target and tree checks of a detached proof. -/
  exactProof : ManifestDigest → Bytes → Bool
  /-- The UTF-8 text of an address in lower case. -/
  lowerEmail : String → Bytes
  databaseGuard : Bool

/-- A `ValueError` with its code, or an error of the database itself. -/
inductive AdapterError where
  | value (code : String)
  | database
  deriving DecidableEq

structure FulfillmentOrder where
  id : Nat
  state : OrderState OrderSnapshot
  calendarSubmittedAt : Option Instant
  deriving DecidableEq

def fulfillmentOrder (order : Order) : FulfillmentOrder :=
  ⟨order.id, order.state, order.calendarSubmittedAt⟩

def validateExactProof (p : Platform) (digest : ManifestDigest) (proofBytes : Bytes)
    (expectedSha256 : Option Sha256) : Bool :=
  decide (1 ≤ proofBytes.length) && decide (proofBytes.length ≤ maxProofBytes) &&
    expectedSha256.all (fun expected => p.sha256 proofBytes == expected) &&
    p.exactProof digest proofBytes

/-- `make_stored_proof`; the error is a `ValueError` of the proof check. -/
def makeStoredProof (p : Platform) (orderReference : OrderReference) (version : Nat)
    (targetDigest : ManifestDigest) (proofBytes : Bytes) (calendarSubmittedAt : Instant)
    (verification : Option (Evidence Instant)) : Except AdapterError (StoredProof Instant) :=
  if version < 1 then .error (.value "proof_version_must_be_positive")
  else if validateExactProof p targetDigest proofBytes none = false then
    .error (.value "proof_invalid")
  else .ok ⟨orderReference, version, targetDigest, proofBytes, p.sha256 proofBytes,
    calendarSubmittedAt, verification⟩

/-- The submission time of an order is set once. -/
def mergeCalendarTime (order : Order) : Option Instant → Except AdapterError Order
  | none => .ok order
  | some supplied =>
    match order.calendarSubmittedAt with
    | none => .ok { order with calendarSubmittedAt := some supplied }
    | some time =>
      if time = supplied then .ok order
      else .error (.value "calendar_submission_time_conflict")

/-! ## The proof store -/

def verificationOf (v : ProofVerification) (o : Observation) : Evidence Instant where
  method := v.block.method
  verifiedAt := v.verifiedAt
  blockHeight := v.block.blockHeight
  blockHash := v.block.blockHash
  blockTime := v.block.blockTime
  confirmationPolicy := v.block.confirmationPolicy
  confirmations := o.observedConfirmations
  confirmed := o.confirmed

/-- A verification is shown only when asked for, and then the separate row with its latest
observation wins over the metadata of the version. -/
def storedProof (value : ProofVersion) (orderReference : OrderReference)
    (separate : Option ProofVerification) (observation : Option Observation)
    (projectVerification : Bool) : StoredProof Instant where
  orderReference := orderReference
  version := value.version
  targetDigest := value.targetDigest
  proofBytes := value.proofBytes
  proofSha256 := value.proofSha256
  calendarSubmittedAt := value.calendarSubmittedAt
  verification :=
    if projectVerification then
      match separate, observation with
      | some v, some o => some (verificationOf v o)
      | _, _ => value.verificationMetadata
    else none

def newVerification (version : Nat) (result : Evidence Instant) : ProofVerification :=
  ⟨version, result.block, result.verifiedAt⟩

def newVersion (proof : StoredProof Instant) : ProofVersion :=
  ⟨proof.version, proof.targetDigest, proof.proofBytes, proof.proofSha256,
    proof.calendarSubmittedAt, proof.verification⟩

/-- The rows that an appended version adds. -/
def insertProof (proof : StoredProof Instant) (r : OrderRecord) : OrderRecord :=
  { r with
    proofs := r.proofs ++ [newVersion proof]
    verifications := r.verifications ++
      (proof.verification.map (newVerification proof.version)).toList }

def append (proof : StoredProof Instant) (r : OrderRecord) : Except AdapterError OrderRecord :=
  if ¬(1 ≤ proof.proofByteLength ∧ proof.proofByteLength ≤ maxProofBytes) then
    .error (.value "proof_size_invalid")
  else if r.order.snapshot.manifestDigest ≠ proof.targetDigest then
    .error (.value "proof_target_does_not_match_order")
  else
    match mergeCalendarTime r.order (some proof.calendarSubmittedAt) with
    | .error e => .error e
    | .ok order =>
      match r.latestProof with
      | none =>
        if proof.version ≠ 1 then .error (.value "first_proof_version_must_be_one")
        else .ok (insertProof proof { r with order := order })
      | some latest =>
        if proof.version = latest.version then
          if storedProof latest r.order.snapshot.orderReference none none true = proof then
            .ok { r with order := order }
          else .error (.value "proof_version_conflict")
        else if proof.version ≠ latest.version + 1 then
          .error (.value "proof_version_must_append")
        else if latest.targetDigest ≠ proof.targetDigest then
          .error (.value "proof_target_is_immutable")
        else .ok (insertProof proof { r with order := order })

/-- `latest`, with the verification shown when the order is verified or delivered. -/
def latest (r : OrderRecord) : Option (StoredProof Instant) :=
  r.latestProof.map fun proof =>
    let verification := r.verification proof.version
    storedProof proof r.order.snapshot.orderReference verification
      (verification.bind fun _ => r.latestObservation proof.version)
      (r.order.fulfillmentState == .bitcoinVerified || r.order.fulfillmentState == .delivered)

/-! ## The fulfillment repository -/

def getForFulfillment (r : OrderRecord) : FulfillmentOrder := fulfillmentOrder r.order

/-- An update of the order row passes the trigger when the database carries it. -/
def guarded {α : Type} (p : Platform) (before : Order) (value : α) (r : OrderRecord) :
    Except AdapterError (α × OrderRecord) :=
  if p.databaseGuard && !enforceOrderStateTransition before r then .error .database
  else .ok (value, r)

def newStateEvent (r : OrderRecord) (key : EventKey) (source : EventSource) (after : Order)
    (now : Instant) : StateEvent :=
  ⟨r.nextSequence, key, source, r.order.paymentState, after.paymentState,
    r.order.fulfillmentState, after.fulfillmentState, now⟩

def transitionFulfillmentOnce (p : Platform) (target : FulfillmentState) (eventKey : EventKey)
    (calendarSubmittedAt : Option Instant) (now : Instant) (r : OrderRecord) :
    Except AdapterError (FulfillmentOrder × OrderRecord) :=
  match r.stateEvent eventKey with
  | some existing =>
    if existing.fulfillmentState ≠ target then
      .error (.value "fulfillment_event_key_conflict")
    else
      match mergeCalendarTime r.order calendarSubmittedAt with
      | .error e => .error e
      | .ok order => .ok (fulfillmentOrder order, { r with order := order })
  | none =>
    match r.order.state.transitionFulfillment target with
    | .error message => .error (.value message)
    | .ok transitioned =>
      match mergeCalendarTime r.order calendarSubmittedAt with
      | .error e => .error e
      | .ok merged =>
        if target = .calendarPending ∧ merged.calendarSubmittedAt = none then
          .error (.value "calendar_submission_time_required")
        else
          let order := { merged with fulfillmentState := transitioned.fulfillment }
          guarded p r.order (fulfillmentOrder order)
            { r with
              order := order
              stateEvents := r.stateEvents ++
                [newStateEvent r eventKey .fulfillmentWorker order now] }

/-! ## Verifications and bundles -/

def putVerifiedOnce (proofVersion : Nat) (result : BitcoinVerification Instant)
    (r : OrderRecord) : Except AdapterError OrderRecord :=
  match result with
  | .unverified _ _ => .error (.value "verification_result_must_be_verified")
  | .verified evidence =>
    match verificationError evidence with
    | some code => .error (.value code)
    | none =>
      match r.proof proofVersion with
      | none => .error (.value "verification_proof_not_found")
      | some proof =>
        if proof.targetDigest ≠ r.order.snapshot.manifestDigest then
          .error (.value "verification_proof_target_conflict")
        else
          match r.verification proofVersion with
          | some existing =>
            if existing.block ≠ evidence.block then .error (.value "verification_conflict")
            else .ok r
          | none =>
            .ok { r with
              verifications := r.verifications ++ [newVerification proofVersion evidence] }

def getVerified (proofVersion : Nat) (r : OrderRecord) :
    Except AdapterError (Option (Evidence Instant)) :=
  match r.verification proofVersion with
  | none => .ok none
  | some value =>
    match r.latestObservation proofVersion with
    | none => .error (.value "verification_confirmation_observation_missing")
    | some observation =>
      if observation.matchesVerification value = false then
        .error (.value "verification_confirmation_observation_mismatch")
      else .ok (some (verificationOf value observation))

def maxBundleBytes : Nat := 12 * 1024 * 1024

/-- `bytes.lower`. -/
def lowerBytes (bytes : Bytes) : Bytes :=
  bytes.map fun b => if 65 ≤ b ∧ b ≤ 90 then b + 32 else b

def asciiBytes (text : String) : Bytes := text.toUTF8.data.toList

def containsSensitiveData (p : Platform) (order : Order) (bundle : Bytes) : Bool :=
  decide (p.lowerEmail order.snapshot.email <:+: lowerBytes bundle) ||
    decide (asciiBytes "status_token" <:+: lowerBytes bundle) ||
    decide (asciiBytes "authorization: bearer" <:+: lowerBytes bundle)

def putOnce (p : Platform) (proofVersion : Nat) (bundle : Bytes) (r : OrderRecord) :
    Except AdapterError OrderRecord :=
  if ¬(1 ≤ bundle.length ∧ bundle.length ≤ maxBundleBytes) then
    .error (.value "bundle_size_invalid")
  else if containsSensitiveData p r.order bundle then
    .error (.value "bundle_contains_sensitive_data")
  else
    match r.proof proofVersion with
    | none => .error (.value "bundle_proof_not_found")
    | some proof =>
      if proof.targetDigest ≠ r.order.snapshot.manifestDigest then
        .error (.value "bundle_proof_target_conflict")
      else
        match r.bundle proofVersion with
        | some existing =>
          if existing.bundleSha256 ≠ p.sha256 bundle ∨ existing.bundleBytes ≠ bundle then
            .error (.value "bundle_conflict")
          else .ok r
        | none =>
          .ok { r with bundles := r.bundles ++ [⟨proofVersion, bundle, p.sha256 bundle⟩] }

/-! ## What each transaction can do -/

lemma mergeCalendarTime_ok {order order' : Order} {supplied : Option Instant}
    (h : mergeCalendarTime order supplied = .ok order') :
    order' = { order with calendarSubmittedAt := order.calendarSubmittedAt.or supplied } ∧
      ∀ time, order.calendarSubmittedAt = some time → supplied.all (fun s => time == s) := by
  unfold mergeCalendarTime at h
  cases supplied with
  | none =>
    cases h
    exact ⟨by simp, by simp⟩
  | some s =>
    cases known : order.calendarSubmittedAt with
    | none =>
      simp only [known] at h
      cases h
      exact ⟨by simp, by simp⟩
    | some time =>
      simp only [known] at h
      split at h
      · next same =>
        cases h
        subst same
        refine ⟨?_, by simp⟩
        cases order
        simp_all
      · cases h

/-- Either the version was there already, or it is the next one and its rows are added. -/
lemma append_ok {proof : StoredProof Instant} {r r' : OrderRecord}
    (h : append proof r = .ok r') :
    ∃ order, mergeCalendarTime r.order (some proof.calendarSubmittedAt) = .ok order ∧
      r.order.snapshot.manifestDigest = proof.targetDigest ∧
      ((r' = { r with order := order } ∧ ∃ latest, r.latestProof = some latest ∧
          storedProof latest r.order.snapshot.orderReference none none true = proof) ∨
        (r' = insertProof proof { r with order := order } ∧
          ((r.latestProof = none ∧ proof.version = 1) ∨
            ∃ latest, r.latestProof = some latest ∧ proof.version = latest.version + 1))) := by
  unfold append at h
  split at h
  · cases h
  · split at h
    · cases h
    · next target =>
      cases merged : mergeCalendarTime r.order (some proof.calendarSubmittedAt) with
      | error e => simp only [merged] at h; cases h
      | ok order =>
        refine ⟨order, rfl, not_not.1 target, ?_⟩
        simp only [merged] at h
        cases found : r.latestProof with
        | none =>
          simp only [found] at h
          split at h
          · cases h
          · next first =>
            cases h
            exact Or.inr ⟨rfl, Or.inl ⟨rfl, not_not.1 first⟩⟩
        | some latest =>
          simp only [found] at h
          split at h
          · split at h
            · next same =>
              cases h
              exact Or.inl ⟨rfl, latest, rfl, same⟩
            · cases h
          · split at h
            · cases h
            · next following =>
              split at h
              · cases h
              · cases h
                exact Or.inr ⟨rfl, Or.inr ⟨latest, rfl, not_not.1 following⟩⟩

lemma guarded_ok {α : Type} {p : Platform} {before : Order} {value value' : α}
    {r r' : OrderRecord} (h : guarded p before value r = .ok (value', r')) :
    value' = value ∧ r' = r ∧
      (p.databaseGuard = true → enforceOrderStateTransition before r = true) := by
  unfold guarded at h
  split at h
  · cases h
  · next passes =>
    cases h
    refine ⟨rfl, rfl, fun guard => ?_⟩
    simpa [guard] using passes

/-- Either the event was recorded before with the same target, or the order moves along an
edge of the fulfillment table and the event is recorded. -/
lemma transitionFulfillmentOnce_ok {p : Platform} {target : FulfillmentState}
    {key : EventKey} {time : Option Instant} {now : Instant} {r r' : OrderRecord}
    {result : FulfillmentOrder}
    (h : transitionFulfillmentOnce p target key time now r = .ok (result, r')) :
    result = fulfillmentOrder r'.order ∧ ∃ merged, mergeCalendarTime r.order time = .ok merged ∧
      ((r' = { r with order := merged } ∧
          ∃ event, r.stateEvent key = some event ∧ event.fulfillmentState = target) ∨
        (r.stateEvent key = none ∧
          FulfillmentEdge r.order.fulfillmentState target ∧
          (r.order.fulfillmentState = .awaitingPayment → target = .queued →
            r.order.paymentState = .paid) ∧
          (target = .calendarPending → merged.calendarSubmittedAt.isSome) ∧
          r' = { r with
            order := { merged with fulfillmentState := target }
            stateEvents := r.stateEvents ++ [newStateEvent r key .fulfillmentWorker
              { merged with fulfillmentState := target } now] } ∧
          (p.databaseGuard = true → enforceOrderStateTransition r.order r' = true))) := by
  unfold transitionFulfillmentOnce at h
  cases known : r.stateEvent key with
  | some event =>
    simp only [known] at h
    split at h
    · cases h
    · next same =>
      cases merged : mergeCalendarTime r.order time with
      | error e => simp only [merged] at h; cases h
      | ok order =>
        simp only [merged] at h
        cases h
        exact ⟨rfl, order, rfl, Or.inl ⟨rfl, event, rfl, not_not.1 same⟩⟩
  | none =>
    simp only [known] at h
    cases moved : r.order.state.transitionFulfillment target with
    | error message => simp only [moved] at h; cases h
    | ok transitioned =>
      obtain ⟨rfl, edge, paid⟩ := transitionFulfillment_ok moved
      cases merged : mergeCalendarTime r.order time with
      | error e => simp only [moved, merged] at h; cases h
      | ok order =>
        simp only [moved, merged] at h
        split at h
        · cases h
        · next submitted =>
          obtain ⟨rfl, rfl, guard⟩ := guarded_ok h
          refine ⟨rfl, order, rfl, Or.inr ⟨rfl, edge, paid, fun pending => ?_, rfl, guard⟩⟩
          by_contra missing
          exact submitted ⟨pending, by simpa using missing⟩

lemma putVerifiedOnce_ok {version : Nat} {result : BitcoinVerification Instant}
    {r r' : OrderRecord} (h : putVerifiedOnce version result r = .ok r') :
    ∃ evidence proof, result = .verified evidence ∧ ValidEvidence evidence ∧
      r.proof version = some proof ∧ proof.targetDigest = r.order.snapshot.manifestDigest ∧
      ((r' = r ∧ ∃ v, r.verification version = some v ∧ v.block = evidence.block) ∨
        (r.verification version = none ∧
          r' = { r with verifications := r.verifications ++ [newVerification version evidence] })) := by
  unfold putVerifiedOnce at h
  cases result with
  | unverified => cases h
  | verified evidence =>
    cases invalid : verificationError evidence with
    | some code => simp only [invalid] at h; cases h
    | none =>
      cases stored : r.proof version with
      | none => simp only [invalid, stored] at h; cases h
      | some proof =>
        simp only [invalid, stored] at h
        split at h
        · cases h
        · next target =>
          refine ⟨evidence, proof, rfl, invalid, rfl, not_not.1 target, ?_⟩
          cases known : r.verification version with
          | some existing =>
            simp only [known] at h
            split at h
            · cases h
            · next same =>
              cases h
              exact Or.inl ⟨rfl, existing, rfl, not_not.1 same⟩
          | none =>
            simp only [known] at h
            cases h
            exact Or.inr ⟨rfl, rfl⟩

lemma putOnce_ok {p : Platform} {version : Nat} {bundle : Bytes} {r r' : OrderRecord}
    (h : putOnce p version bundle r = .ok r') :
    (∃ proof, r.proof version = some proof) ∧
      ((r' = r ∧ ∃ stored, r.bundle version = some stored ∧ stored.bundleBytes = bundle) ∨
        (r.bundle version = none ∧
          r' = { r with bundles := r.bundles ++ [⟨version, bundle, p.sha256 bundle⟩] })) := by
  unfold putOnce at h
  split at h
  · cases h
  · split at h
    · cases h
    · cases stored : r.proof version with
      | none => simp only [stored] at h; cases h
      | some proof =>
        simp only [stored] at h
        split at h
        · cases h
        · refine ⟨⟨proof, rfl⟩, ?_⟩
          cases known : r.bundle version with
          | some existing =>
            simp only [known] at h
            split at h
            · cases h
            · next same =>
              cases h
              rw [not_or, not_not, not_not] at same
              exact Or.inl ⟨rfl, existing, rfl, same.2⟩
          | none =>
            simp only [known] at h
            cases h
            exact Or.inr ⟨rfl, rfl⟩

end FulfillmentAdapters
