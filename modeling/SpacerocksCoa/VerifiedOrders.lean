import SpacerocksCoa.WorkerRuns

/-!
# A verified order has a verified latest proof

The evidence an order needs once it is verified or delivered: a verification of the
latest proof version, and for a delivered order a bundle of that version. Every request
and every arrival keeps it, with one exception: nothing in the proof store looks at the
state of the order, so an upgrade run with an old snapshot can append a new version to an
order that another run has moved on.
-/
namespace VerifiedOrders
open OrderStates ProofRecords OrderRows JobClaims FulfillmentAdapters NotificationAdapters
open FulfillmentHandlers WorkerRuns TransactionalPrograms

/-- Past the point where the latest version has to be verified. -/
def Verified (r : OrderRecord) : Prop :=
  r.order.fulfillmentState = .bitcoinVerified ∨ r.order.fulfillmentState = .delivered

def LatestVerified (r : OrderRecord) : Prop :=
  ∃ latest v, r.latestProof = some latest ∧ r.verification latest.version = some v

def LatestBundled (r : OrderRecord) : Prop :=
  ∃ latest b, r.latestProof = some latest ∧ r.bundle latest.version = some b

structure EvidenceHeld (r : OrderRecord) : Prop where
  verified : Verified r → LatestVerified r
  delivered : r.order.fulfillmentState = .delivered → LatestBundled r

/-- The append would add a version: the first one, or the one after the latest. -/
def Inserts (proof : StoredProof Instant) (r : OrderRecord) : Prop :=
  (r.latestProof = none ∧ proof.version = 1) ∨
    ∃ latest, r.latestProof = some latest ∧ proof.version = latest.version + 1

instance (r : OrderRecord) : Decidable (Verified r) := instDecidableOr

instance (proof : StoredProof Instant) (r : OrderRecord) : Decidable (Inserts proof r) :=
  match found : r.latestProof with
  | none => decidable_of_iff (proof.version = 1) (by simp [Inserts, found])
  | some latest =>
    decidable_of_iff (proof.version = latest.version + 1) (by simp [Inserts, found])

/-- No append adds a version to an order that is already verified or delivered. -/
def noLateVersion : StepCondition Request Env Arriving (Option ClaimedJob) World where
  request _ _ q w := match q with
    | .append proof => Verified w.record → ¬Inserts proof w.record
    | _ => True
  arrival _ _ := True

instance (job : Option ClaimedJob) (env : Env) (q : Request) (w : World) :
    Decidable (noLateVersion.request job env q w) := by
  cases q with
  | append proof => exact inferInstanceAs (Decidable (Verified w.record → ¬Inserts proof w.record))
  | _ => exact .isTrue trivial

instance (a : Arriving) (w : World) : Decidable (noLateVersion.arrival a w) := .isTrue trivial

/-! ## One step -/

lemma latestVerified_iff (r : OrderRecord) : latestVerified r = true ↔ LatestVerified r := by
  unfold latestVerified LatestVerified
  cases r.latestProof with
  | none => simp
  | some latest => simp [Option.isSome_iff_exists]

lemma verification_append {r : OrderRecord} {version : Nat} {v : ProofVerification}
    (more : List ProofVerification) (h : r.verification version = some v) :
    ({ r with verifications := r.verifications ++ more } : OrderRecord).verification version =
      some v := by
  simp only [OrderRecord.verification, List.find?_append] at h ⊢
  rw [h]
  rfl

lemma bundle_append {r : OrderRecord} {version : Nat} {b : ProofBundle}
    (more : List ProofBundle) (h : r.bundle version = some b) :
    ({ r with bundles := r.bundles ++ more } : OrderRecord).bundle version = some b := by
  simp only [OrderRecord.bundle, List.find?_append] at h ⊢
  rw [h]
  rfl

/-- The evidence depends on four tables only. -/
lemma evidenceHeld_of_same {r r' : OrderRecord} (held : EvidenceHeld r)
    (state : r'.order.fulfillmentState = r.order.fulfillmentState)
    (proofs : r'.proofs = r.proofs) (verifications : r'.verifications = r.verifications)
    (bundles : r'.bundles = r.bundles) : EvidenceHeld r' := by
  constructor
  · intro verified
    have before : Verified r := by simpa only [Verified, state] using verified
    simpa only [LatestVerified, OrderRecord.latestProof, OrderRecord.verification, proofs,
      verifications] using held.verified before
  · intro delivered
    rw [state] at delivered
    simpa only [LatestBundled, OrderRecord.latestProof, OrderRecord.bundle, proofs,
      bundles] using held.delivered delivered

lemma mergeCalendarTime_state {order order' : Order} {time : Option Instant}
    (h : mergeCalendarTime order time = .ok order') :
    order'.fulfillmentState = order.fulfillmentState := by
  rw [(mergeCalendarTime_ok h).1]

/-- What the trigger lets through arrives with its evidence. -/
lemma evidenceHeld_of_guard {before : Order} {r r' : OrderRecord} (held : EvidenceHeld r)
    (order : before = r.order) (proofs : r'.proofs = r.proofs)
    (verifications : r'.verifications = r.verifications) (bundles : r'.bundles = r.bundles)
    (passes : enforceOrderStateTransition before r' = true) : EvidenceHeld r' := by
  by_cases state : r'.order.fulfillmentState = r.order.fulfillmentState
  · exact evidenceHeld_of_same held state proofs verifications bundles
  · subst order
    simp only [enforceOrderStateTransition, Bool.and_eq_true, Bool.or_eq_true, beq_iff_eq,
      bne_iff_ne, Ne.symm state, false_or] at passes
    obtain ⟨⟨-, ⟨-, verifiedEvidence⟩, deliveredEvidence⟩, -⟩ := passes
    have bundled : r'.order.fulfillmentState = .delivered →
        LatestVerified r' ∧ LatestBundled r' := by
      intro delivered
      have evidence := deliveredEvidence.resolve_left (not_not.2 delivered)
      unfold latestDelivered at evidence
      split at evidence
      · cases evidence
      · next latest found =>
        split at evidence
        · cases evidence
        · next v verification =>
          simp only [Bool.and_eq_true, Option.isSome_iff_exists] at evidence
          obtain ⟨⟨b, bundle⟩, -⟩ := evidence
          exact ⟨⟨latest, v, found, verification⟩, ⟨latest, b, found, bundle⟩⟩
    refine ⟨fun verified => ?_, fun delivered => (bundled delivered).2⟩
    rcases verified with verified | delivered
    · exact (latestVerified_iff r').1 (verifiedEvidence.resolve_left (not_not.2 verified))
    · exact (bundled delivered).1

lemma transition_keeps {p : Platform} (guard : p.databaseGuard = true)
    {target : FulfillmentState} {key : EventKey} {time : Option Instant} {now : Instant}
    {r : OrderRecord} (held : EvidenceHeld r) :
    EvidenceHeld (commit r (transitionFulfillmentOnce p target key time now r)).2 := by
  cases done : transitionFulfillmentOnce p target key time now r with
  | error e => exact held
  | ok result =>
    obtain ⟨value, r'⟩ := result
    obtain ⟨-, merged, merge, cases'⟩ := transitionFulfillmentOnce_ok done
    rcases cases' with ⟨rfl, -⟩ | ⟨-, -, -, -, rfl, passes⟩
    · exact evidenceHeld_of_same held (mergeCalendarTime_state merge) rfl rfl rfl
    · exact evidenceHeld_of_guard held rfl rfl rfl rfl (passes guard)

lemma append_keeps {proof : StoredProof Instant} {r : OrderRecord} (held : EvidenceHeld r)
    (early : Verified r → ¬Inserts proof r) :
    EvidenceHeld (commitUnit r (FulfillmentAdapters.append proof r)).2 := by
  cases done : FulfillmentAdapters.append proof r with
  | error e => exact held
  | ok r' =>
    obtain ⟨order, merge, -, cases'⟩ := append_ok done
    have state := mergeCalendarTime_state merge
    rcases cases' with ⟨rfl, -⟩ | ⟨rfl, inserts⟩
    · exact evidenceHeld_of_same held state rfl rfl rfl
    · have unverified : ¬Verified r := fun verified => early verified inserts
      have still : ¬Verified (insertProof proof { r with order := order }) := by
        simpa only [Verified, insertProof, state] using unverified
      exact ⟨fun verified => absurd verified still, fun delivered => absurd (Or.inr delivered) still⟩

lemma putVerifiedOnce_keeps {version : Nat} {result : BitcoinVerification Instant}
    {r : OrderRecord} (held : EvidenceHeld r) :
    EvidenceHeld (commitUnit r (putVerifiedOnce version result r)).2 := by
  cases done : putVerifiedOnce version result r with
  | error e => exact held
  | ok r' =>
    obtain ⟨evidence, -, -, -, -, -, cases'⟩ := putVerifiedOnce_ok done
    rcases cases' with ⟨rfl, -⟩ | ⟨-, rfl⟩
    · exact held
    · refine ⟨fun verified => ?_, held.delivered⟩
      obtain ⟨latest, v, found, verification⟩ := held.verified verified
      exact ⟨latest, v, found, verification_append _ verification⟩

lemma putOnce_keeps {p : Platform} {version : Nat} {bundle : Bytes} {r : OrderRecord}
    (held : EvidenceHeld r) : EvidenceHeld (commitUnit r (putOnce p version bundle r)).2 := by
  cases done : putOnce p version bundle r with
  | error e => exact held
  | ok r' =>
    obtain ⟨-, cases'⟩ := putOnce_ok done
    rcases cases' with ⟨rfl, -⟩ | ⟨-, rfl⟩
    · exact held
    · refine ⟨held.verified, fun delivered => ?_⟩
      obtain ⟨latest, b, found, bundle⟩ := held.delivered delivered
      exact ⟨latest, b, found, bundle_append _ bundle⟩

lemma onlyMessages_keeps {r r' : OrderRecord} (held : EvidenceHeld r)
    (messages : OnlyMessages r r') : EvidenceHeld r' := by
  unfold OnlyMessages at messages
  rw [messages]
  exact evidenceHeld_of_same held rfl rfl rfl rfl

lemma delivers_keeps {p : Platform} (guard : p.databaseGuard = true) {r r' : OrderRecord}
    (held : EvidenceHeld r) (delivers : Delivers p r r') : EvidenceHeld r' := by
  obtain ⟨-, passes, _, _, moved⟩ := delivers
  refine evidenceHeld_of_guard held rfl ?_ ?_ ?_ (passes guard) <;> rw [moved]

lemma processEvent_keeps {p : Platform} (guard : p.databaseGuard = true)
    {event : VerifiedResendEvent} {payload : Sha256} {now : Instant} {r : OrderRecord}
    (held : EvidenceHeld r) : EvidenceHeld (commit r (processEvent p event payload now r)).2 := by
  cases done : processEvent p event payload now r with
  | error e => exact held
  | ok result =>
    rcases processEvent_ok done with messages | delivers
    · exact onlyMessages_keeps held messages
    · exact delivers_keeps guard held delivers

lemma recordAccepted_keeps {p : Platform} (guard : p.databaseGuard = true)
    {message : ClaimedNotification} {acceptance : ProviderAcceptance} {now : Instant}
    {r : OrderRecord} (held : EvidenceHeld r) :
    EvidenceHeld (commitUnit r (recordAccepted p message acceptance now r)).2 := by
  cases done : recordAccepted p message acceptance now r with
  | error e => exact held
  | ok r' =>
    rcases recordAccepted_ok done with messages | delivers
    · exact onlyMessages_keeps held messages
    · exact delivers_keeps guard held delivers

lemma recordOnce_keeps {version : Nat} {key : ObservationKey}
    {verification : BitcoinVerification Instant} {now : Instant} {freshId : Nat}
    {r : OrderRecord} (held : EvidenceHeld r) :
    EvidenceHeld (commit r (recordOnce version key verification now freshId r)).2 := by
  cases done : recordOnce version key verification now freshId r with
  | error e => exact held
  | ok result =>
    obtain ⟨_, _, _, _, _, _, _, _, cases'⟩ := recordOnce_ok done
    rcases cases' with ⟨same, -⟩ | ⟨-, -, -, added⟩
    · exact same ▸ held
    · simp only [commit, added]
      exact evidenceHeld_of_same held rfl rfl rfl rfl

lemma enqueue_keeps {message : OutboxMessage} {now : Instant} {freshId : Nat} {r : OrderRecord}
    (held : EvidenceHeld r) : EvidenceHeld (commitUnit r (enqueue message now freshId r)).2 := by
  cases done : enqueue message now freshId r with
  | error e => exact held
  | ok r' =>
    obtain ⟨observation, -, same | added⟩ := enqueue_ok done
    · exact same ▸ held
    · rw [commitUnit, added]
      exact evidenceHeld_of_same held rfl rfl rfl rfl

/-- Every request keeps the evidence, an append under its condition. -/
lemma perform_keeps {s : Services} (guard : s.platform.databaseGuard = true)
    {job : Option ClaimedJob} {env : Env} {q : Request} {w : World}
    (held : EvidenceHeld w.record) (meets : noLateVersion.request job env q w) :
    EvidenceHeld (perform s env q w).2.record := by
  cases q with
  | transitionFulfillmentOnce target key time => exact transition_keeps guard held
  | append proof => exact append_keeps held meets
  | putVerifiedOnce version result => exact putVerifiedOnce_keeps held
  | recordOnce version key verification => exact recordOnce_keeps held
  | putOnce version bundle => exact putOnce_keeps held
  | enqueue message => exact enqueue_keeps held
  | finish job outcome now retryAt code =>
    simp only [perform, answer]
    split
    · exact evidenceHeld_of_same held rfl rfl rfl rfl
    · exact held
  | enqueueOnce | recordDispatched | recordDispatchFailure | heartbeat =>
    exact evidenceHeld_of_same held rfl rfl rfl rfl
  | getForFulfillment | latest | stampExactDigest | upgradeExactDigest | verifyExactDigest
  | getVerified | latestObservation | now | dispatchDue | createTask | retryAt => exact held

lemma startJob_keeps {s : Services} {r : OrderRecord} {claimed : Option (ClaimedJob × JobTables)}
    (held : EvidenceHeld r) : EvidenceHeld (startJob s r claimed).1 := by
  cases claimed with
  | none => exact held
  | some claimed => exact evidenceHeld_of_same held rfl rfl rfl rfl

lemma arrive_keeps {s : Services} (guard : s.platform.databaseGuard = true) {now : Instant}
    {a : Arrival} {r : OrderRecord} (held : EvidenceHeld r) :
    EvidenceHeld (arriveRecord s now r a).1 := by
  cases a with
  | claim workerId => exact startJob_keeps held
  | claimSpecific jobId generation workerId =>
    simp only [arriveRecord]
    split
    · exact startJob_keeps held
    · exact held
  | operatorReplay jobId =>
    simp only [arriveRecord]
    split
    · exact evidenceHeld_of_same held rfl rfl rfl rfl
    · exact held
  | recoverStale staleGrace limit =>
    simp only [arriveRecord]
    split
    · exact evidenceHeld_of_same held rfl rfl rfl rfl
    · exact held
  | resendEvent event payload => exact processEvent_keeps guard held
  | senderAccepted message acceptance => exact recordAccepted_keeps guard held
  | heartbeat job leaseUntil => exact evidenceHeld_of_same held rfl rfl rfl rfl
  | operatorReverify | operatorUpgrade | reconcile => exact held

/-! ## Every run -/

/-- Whatever the programs and their interleaving, an order that is verified or delivered has
its evidence, as long as no append adds a version to it then. -/
theorem evidence_held_in_every_run (s : Services) (guard : s.platform.databaseGuard = true)
    (c : Config Request Reply Failure RunEnd (Option ClaimedJob) World)
    (start : EvidenceHeld c.world.record) (moves : List (Move Env Arriving))
    (meets : noLateVersion.MeetsAll (workerService s) moves c) :
    EvidenceHeld ((workerService s).run moves c).world.record :=
  run_inv (fun w => EvidenceHeld w.record)
    (fun _ _ _ _ held allowed => perform_keeps guard held allowed)
    (fun _ _ held _ => arrive_keeps guard held) start meets

/-! ## A run in which two upgrades overlap

The order's digest is the merkle root of the first Bitcoin block. Both calendars answer
the stamp request; later one upgrade brings an attestation of block 0 and another, started
before the order was verified, brings a second attestation. -/

def sampleDigest : ManifestDigest :=
  ⟨[59, 163, 237, 253, 122, 123, 18, 178, 122, 199, 44, 62, 103, 118, 143, 97, 127, 200,
    27, 195, 136, 138, 81, 50, 58, 159, 184, 170, 75, 30, 94, 74], rfl⟩

/-- The magic bytes of a detached proof, its version and the hash operation. -/
def proofHeader : Bytes :=
  [0, 79, 112, 101, 110, 84, 105, 109, 101, 115, 116, 97, 109, 112, 115, 0, 0, 80,
    114, 111, 111, 102, 0, 191, 137, 226, 232, 132, 232, 146, 148, 1, 8]

def bitcoinAttestation (height : UInt8) : Bytes :=
  [0, 5, 136, 150, 13, 115, 215, 25, 1, 1, height]

/-- A pending attestation of one of the two calendars of the pool. -/
def pendingAttestation (calendar : UInt8) : Bytes :=
  [0, 131, 223, 227, 13, 46, 249, 12, 142, 34, 33, 104, 116, 116, 112, 115, 58, 47,
    47, calendar, 46, 112, 111, 111, 108, 46, 111, 112, 101, 110, 116, 105, 109, 101, 115, 116,
    97, 109, 112, 115, 46, 111, 114, 103]

def detachedProof (attestations : List Bytes) (last : Bytes) : Bytes :=
  proofHeader ++ sampleDigest.value ++ attestations.flatMap (fun a => 255 :: a) ++ last

def stampedBytes : Bytes := detachedProof [pendingAttestation 97] (pendingAttestation 98)

def upgradedBytes : Bytes :=
  detachedProof [bitcoinAttestation 0, pendingAttestation 97] (pendingAttestation 98)

def secondUpgradeBytes : Bytes :=
  detachedProof [bitcoinAttestation 0, bitcoinAttestation 1, pendingAttestation 97]
    (pendingAttestation 98)

/-- SHA-256 on the three proofs above. -/
def sampleSha256 (bytes : Bytes) : Sha256 :=
  if bytes = stampedBytes then
    ⟨[219, 210, 72, 224, 157, 15, 86, 198, 228, 243, 239, 93, 153, 228, 217, 188, 206, 178,
      194, 129, 30, 92, 68, 238, 204, 55, 126, 150, 73, 142, 5, 84], rfl⟩
  else if bytes = upgradedBytes then
    ⟨[127, 238, 250, 164, 89, 72, 162, 82, 78, 253, 247, 104, 112, 112, 137, 161, 208, 4,
      9, 220, 158, 135, 118, 170, 249, 145, 53, 212, 163, 163, 250, 53], rfl⟩
  else
    ⟨[177, 37, 115, 45, 205, 104, 191, 207, 172, 68, 48, 249, 146, 230, 9, 101, 0, 254,
      26, 69, 41, 62, 95, 171, 76, 155, 7, 171, 106, 207, 158, 12], rfl⟩

def samplePlatform : Platform where
  sha256 := sampleSha256
  exactProof digest bytes := digest == sampleDigest &&
    [stampedBytes, upgradedBytes, secondUpgradeBytes].contains bytes
  lowerEmail := asciiBytes
  databaseGuard := true

/-- Instants of the runs below are whole seconds, on which the microsecond text is exact. -/
def sampleServices : Services where
  platform := samplePlatform
  timestampMicros := id
  buildReceipt _ _ := .error "invalid_service_version"
  build _ _ _ := .error "receipt_json_invalid"
  taskDispatch := false

/-- The given second of the first hour of 2026. -/
def sampleTime (seconds : Int) : Instant := (1767225600 + seconds) * 1000000

def sampleOrder : Order where
  id := 1
  snapshot :=
    { orderReference := ⟨"ts_01J00000000000000000000000", by decide⟩
      certificateReference := ⟨"SR-0001", by decide⟩
      manifestDigest := sampleDigest
      email := "buyer@example.org"
      amountMinor := 500
      currency := "eur"
      paymentMode := .stripeLive }
  paymentState := .paid
  fulfillmentState := .queued
  checkoutSessionId := some "cs_live_1"
  paymentIntentId := some "pi_1"
  calendarSubmittedAt := none

/-- A paid order whose stamp job was just enqueued. -/
def queuedRecord : OrderRecord where
  order := sampleOrder
  proofs := []
  verifications := []
  bundles := []
  observations := []
  stateEvents := []
  outbox := []
  notificationAttempts := []
  resendEvents := []
  stripeEvents := []
  tables := (enqueueOnce
    { jobKey := .stamp 1, kind := .stampManifestDigest, orderId := 1 }
    (sampleTime 0) (sampleTime 0) 1 ⟨[], [], []⟩).2

def queuedWorld : Config Request Reply Failure RunEnd (Option ClaimedJob) World :=
  ⟨⟨queuedRecord, sampleTime 0, 100⟩, []⟩

/-- What the answer of the verifier is once an attestation of the first block is there. -/
def sampleEvidence (time : Instant) : Evidence Instant where
  method := "bitcoin-core-rpc-exact-digest"
  verifiedAt := time
  blockHeight := 0
  blockHash := "000000000019d6689c085ae165831e934ff763ae46a2a6c172b3f1b60a8ce26f"
  blockTime := 1231006505000000
  confirmationPolicy := "bitcoin-core-mainnet-canonical-min-1"
  confirmations := 101
  confirmed := by decide

def sampleEnv (seconds : Int) (freshId : Nat) (upgrade : Bytes) : Env where
  now := sampleTime seconds
  tip := 100
  freshId := freshId
  stamp := .ok ⟨stampedBytes, sampleTime seconds⟩
  upgrade := .ok upgrade
  verify := .ok (.verified (sampleEvidence (sampleTime seconds)))
  created := true
  retryAt := sampleTime (seconds + 60)

/-- One run serves several requests in a row. -/
def serveTimes (run count : Nat) (env : Env) : List (Move Env Arriving) :=
  List.replicate count (.serve run env)

def arriveAt (seconds : Int) (arrival : Arrival) : Move Env Arriving :=
  .arrive ⟨sampleTime seconds, 100, arrival⟩

/-- The stamp job runs to its end. An upgrade job appends version 2; the operator requests
another upgrade, which loads the still pending order; the first upgrade verifies version 2
and moves the order on; the second one appends version 3. -/
def overlappingUpgrades : List (Move Env Arriving) :=
  [arriveAt 1 (.claim "worker-a")] ++
  serveTimes 0 13 (sampleEnv 2 2 stampedBytes) ++
  [arriveAt 3 (.claim "worker-a")] ++
  serveTimes 1 4 (sampleEnv 4 3 upgradedBytes) ++
  [arriveAt 5 .operatorUpgrade] ++
  serveTimes 2 4 (sampleEnv 6 4 upgradedBytes) ++
  [arriveAt 7 (.claim "worker-b")] ++
  serveTimes 3 3 (sampleEnv 8 5 secondUpgradeBytes) ++
  serveTimes 1 4 (sampleEnv 9 6 upgradedBytes) ++
  serveTimes 3 1 (sampleEnv 10 7 secondUpgradeBytes)

lemma queued_evidence : EvidenceHeld queuedWorld.world.record :=
  ⟨fun verified => absurd verified (by decide), fun delivered => absurd delivered (by decide)⟩

set_option maxRecDepth 4000 in
/-- Up to the late append the run meets the condition and reaches a verified order. -/
theorem evidence_held_until_late_append :
    ((workerService sampleServices).run overlappingUpgrades.dropLast
        queuedWorld).world.record.order.fulfillmentState = .bitcoinVerified ∧
      EvidenceHeld ((workerService sampleServices).run overlappingUpgrades.dropLast
        queuedWorld).world.record :=
  ⟨by decide, evidence_held_in_every_run sampleServices rfl queuedWorld queued_evidence
    overlappingUpgrades.dropLast (by decide)⟩

set_option maxRecDepth 4000 in
/-- The order is verified and its latest version is not. -/
theorem late_append_loses_evidence :
    queuedWorld.runs = [] ∧ queuedWorld.world.record.order.fulfillmentState = .queued ∧
      ((workerService sampleServices).run overlappingUpgrades
        queuedWorld).world.record.order.fulfillmentState = .bitcoinVerified ∧
      ¬LatestVerified ((workerService sampleServices).run overlappingUpgrades
        queuedWorld).world.record :=
  ⟨rfl, rfl, by decide, fun held => absurd ((latestVerified_iff _).2 held) (by decide)⟩

end VerifiedOrders
