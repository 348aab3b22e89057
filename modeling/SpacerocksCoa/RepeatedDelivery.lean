import SpacerocksCoa.Receipts

/-!
# Delivering again

The delivery handler with the receipt and the bundle that it builds. Between two runs of it the
order may be observed again, with more confirmations, and the notice may be sent; a run may stop
after any of its transactions. The receipt leaves the confirmations out, so the bundle of a later
run is the bundle of the first one.

The JSON text of a receipt, the archive format and the zone in which the database hands back an
instant are parameters.
-/
namespace RepeatedDelivery
open OrderStates ProofRecords OrderRows FulfillmentAdapters NotificationAdapters
open FulfillmentHandlers WorkerRuns TransactionalPrograms TransactionalPrograms.Prog
open Receipts (DateTime Receipt ProofBundleContext leafText leafOf hexText)

/-! ## The bundle -/

structure Bundling where
  platform : Platform
  timestampMicros : Instant → Int
  taskDispatch : Bool
  /-- An instant as the database hands it back. -/
  civil : Instant → DateTime
  /-- The line that `json.dumps` writes of a receipt. -/
  dumps : Receipt → Bytes
  loads : Bytes → Option Receipt
  /-- The archive of stored files, with one fixed time. -/
  archive : List (String × Bytes) → Bytes
  serviceVersion : String

variable (b : Bundling)

def Bundling.evidence (e : Evidence Instant) : Evidence DateTime :=
  ⟨e.method, b.civil e.verifiedAt, e.blockHeight, e.blockHash, b.civil e.blockTime,
    e.confirmationPolicy, e.confirmations, e.confirmed⟩

def Bundling.proof (proof : StoredProof Instant) : StoredProof DateTime :=
  ⟨proof.orderReference, proof.version, proof.targetDigest, proof.proofBytes,
    proof.proofSha256, b.civil proof.calendarSubmittedAt, proof.verification.map b.evidence⟩

def readme (pending : Bool) : Bytes :=
  asciiBytes ("Spacerocks supplemental OpenTimestamps proof\n\n" ++
    "This package is separate from the original signed COA. It proves only that the exact\n" ++
    "manifest SHA-256 digest was timestamped; it does not prove identity, ownership, or " ++
    "authenticity.\n" ++
    if pending then "Status: PENDING. Calendar submission is not Bitcoin confirmation.\n"
    else "Status: BITCOIN VERIFIED under the policy recorded in timestamp-receipt.json.\n")

def instructions : Bytes :=
  asciiBytes ("Keep the original manifest.json and manifest.json.ots together.\n" ++
    "Verify sha256sums.txt, then use an independent OpenTimestamps client to verify the proof.\n" ++
    "A pending calendar attestation must not be treated as Bitcoin confirmation.\n")

def Bundling.checksumLine (file : String × Bytes) : Bytes :=
  asciiBytes (hexText (b.platform.sha256 file.2).value ++ "  " ++ file.1 ++ "\n")

/-- The files of a bundle; the checksums follow the order of the names, which is theirs. -/
def Bundling.files (proofBytes receiptJson : Bytes) (pending : Bool) : List (String × Bytes) :=
  let files := [("README-FIRST.txt", readme pending), ("manifest.json.ots", proofBytes),
    ("timestamp-receipt.json", receiptJson), ("verification-instructions.txt", instructions)]
  files ++ [("sha256sums.txt", files.flatMap b.checksumLine)]

/-- `DeterministicProofBundler.build` -/
def Bundling.build (proof : StoredProof DateTime) (receiptJson : Bytes)
    (context : ProofBundleContext) : Except String Bytes :=
  if validateExactProof b.platform proof.targetDigest proof.proofBytes
      (some proof.proofSha256) = false then .error "proof_invalid"
  else if ¬(1 ≤ receiptJson.length ∧ receiptJson.length ≤ 64 * 1024) then
    .error "receipt_json_size_invalid"
  else
    match b.loads receiptJson with
    | none => .error "receipt_json_invalid"
    | some receipt =>
      match Receipts.validateReceipt receipt proof context with
      | .error code => .error code
      | .ok () =>
        let pending := leafText (leafOf receipt "proof_state") == some "calendar_pending"
        let bundle := b.archive (b.files proof.proofBytes receiptJson pending)
        if maxBundleBytes < bundle.length then .error "proof_bundle_too_large" else .ok bundle

def Bundling.services : Services where
  platform := b.platform
  timestampMicros := b.timestampMicros
  buildReceipt proof certificate :=
    match Receipts.buildReceipt (b.proof proof) certificate b.serviceVersion with
    | .error code => .error code
    | .ok receipt => .ok (b.dumps receipt)
  build proof receipt certificate :=
    b.build (b.proof proof) receipt ⟨certificate, b.serviceVersion⟩
  taskDispatch := b.taskDispatch

/-- The bundle that a run builds of a stored proof. -/
def Bundling.bundleOf (proof : StoredProof Instant) (certificate : CertificateReference) :
    Except String Bytes :=
  match b.services.buildReceipt proof certificate with
  | .error code => .error code
  | .ok receipt => b.services.build proof receipt certificate

/-- The proof of a version as its verification and an observation show it. -/
def shown (row : ProofVersion) (reference : OrderReference) (v : ProofVerification)
    (o : Observation) : StoredProof Instant :=
  storedProof row reference (some v) (some o) true

/-- The bundle is the same whatever the number of confirmations. -/
theorem bundleOf_shown (row : ProofVersion) (reference : OrderReference) (v : ProofVerification)
    (first second : Observation) (certificate : CertificateReference) :
    b.bundleOf (shown row reference v first) certificate =
      b.bundleOf (shown row reference v second) certificate := rfl

/-! ## An order whose latest version is verified -/

/-- The version `row` is the latest one, `v` is its verification, and every observation of it
names the block of the verification with a count that its column holds. -/
structure Ready (row : ProofVersion) (v : ProofVerification) (r : OrderRecord) : Prop where
  state : r.order.fulfillmentState = .bitcoinVerified ∨ r.order.fulfillmentState = .delivered
  latest : r.latestProof = some row
  stored : r.proof row.version = some row
  target : row.targetDigest = r.order.snapshot.manifestDigest
  submitted : r.order.calendarSubmittedAt = some row.calendarSubmittedAt
  verified : r.verification row.version = some v
  observed : ∃ o ∈ r.observations, o.proofVersion = row.version
  sameBlock : ∀ o ∈ r.observations, o.proofVersion = row.version →
    o.matchesVerification v = true ∧ o.observedConfirmations ≤ 2147483647
  ids : (r.observations.map Observation.id).Nodup

def noticeKey (row : ProofVersion) (r : OrderRecord) : MessageKey :=
  ⟨.initialConfirmation, row.version, r.order.snapshot.orderReference⟩

/-- What a message says, whatever happens to it while it is sent. -/
def content (m : OutboxRecord) :
    OutboxKind × String × OutboxPayload × Option Nat × Option Nat × Option Nat :=
  (m.kind, m.recipient, m.payload, m.proofVersion, m.confirmationCount,
    m.confirmationObservationId)

def notice (row : ProofVersion) (r : OrderRecord) : Option OutboxRecord :=
  r.message (.milestone (noticeKey row r))

/-- What happens between two runs: more observations of the block of the verification, and
whatever else leaves the order, its version, the bundle and the content of the notice. -/
structure Between (row : ProofVersion) (v : ProofVerification) (r r' : OrderRecord) : Prop where
  snapshot : r'.order.snapshot = r.order.snapshot
  submitted : r'.order.calendarSubmittedAt = r.order.calendarSubmittedAt
  state : r'.order.fulfillmentState = .bitcoinVerified ∨ r'.order.fulfillmentState = .delivered
  proofs : r'.proofs = r.proofs
  verifications : r'.verifications = r.verifications
  bundles : r'.bundles = r.bundles
  observations : ∃ added, r'.observations = r.observations ++ added ∧
    ∀ o ∈ added, o.proofVersion = row.version →
      o.matchesVerification v = true ∧ o.observedConfirmations ≤ 2147483647
  ids : (r'.observations.map Observation.id).Nodup
  notice : (notice row r').map content = (notice row r).map content

/-- The worlds that runs of the handler lead to, each stopped anywhere, with other transactions
between them. -/
inductive Repeated (row : ProofVersion) (v : ProofVerification) (start : World) : World → Prop
  | start : Repeated row v start start
  | run {w : World} (before : Repeated row v start w) (envs : List Env) :
      Repeated row v start (serve (perform b.services) (deliveryHandler b.services) envs w).2
  | between {w w' : World} (before : Repeated row v start w)
      (step : Between row v w.record w'.record) : Repeated row v start w'

/-- A bound observation supports the message, and what the message says passed the checks. -/
structure Noticed (row : ProofVersion) (v : ProofVerification) (r : OrderRecord)
    (m : OutboxRecord) : Prop where
  version : 1 ≤ row.version ∧ row.version ≤ 2147483647
  insensitive : payloadSensitive .initialConfirmation r.order.snapshot.orderReference = false
  told : ∃ o ∈ r.observations, o.proofVersion = row.version ∧
    content m = (.notification .initialConfirmation, r.order.snapshot.email,
      ⟨some .initialConfirmation, r.order.snapshot.orderReference⟩, some row.version,
      some o.observedConfirmations, some o.id)

/-- A stored bundle is the one that is built, and a notice is the one that is enqueued. -/
structure Kept (row : ProofVersion) (v : ProofVerification) (bundle : Bytes)
    (r : OrderRecord) : Prop where
  ready : Ready row v r
  bundled : ∀ stored, r.bundle row.version = some stored →
    stored.bundleBytes = bundle ∧ stored.bundleSha256 = b.platform.sha256 bundle ∧
      (1 ≤ bundle.length ∧ bundle.length ≤ maxBundleBytes) ∧
      containsSensitiveData b.platform r.order bundle = false
  noticed : ∀ m, notice row r = some m → Noticed row v r m
  stored : notice row r ≠ none → r.bundle row.version ≠ none

section Reads
variable {row : ProofVersion} {v : ProofVerification} {r : OrderRecord}

/-- The latest observation is one of the version. -/
theorem Ready.observation (ready : Ready row v r) :
    ∃ o, r.latestObservation row.version = some o ∧ o ∈ r.observations ∧
      o.proofVersion = row.version := by
  obtain ⟨seen, member, same⟩ := ready.observed
  cases latest : r.latestObservation row.version with
  | none =>
    have empty := List.argmax_eq_none.1 latest
    have inside : seen ∈ r.observations.filter fun o => o.proofVersion == row.version :=
      List.mem_filter.2 ⟨member, by simpa using same⟩
    rw [empty] at inside
    cases inside
  | some o =>
    have inside := List.mem_filter.1 (List.argmax_mem latest)
    exact ⟨o, rfl, inside.1, by simpa using inside.2⟩

theorem Ready.projected (ready : Ready row v r) :
    (r.order.fulfillmentState == .bitcoinVerified || r.order.fulfillmentState == .delivered) =
      true := by
  rcases ready.state with state | state
  · rw [state]
    rfl
  · rw [state]
    rfl

theorem Ready.shown (ready : Ready row v r) {o : Observation}
    (latest : r.latestObservation row.version = some o) :
    FulfillmentAdapters.latest r =
      some (RepeatedDelivery.shown row r.order.snapshot.orderReference v o) := by
  simp only [FulfillmentAdapters.latest, ready.latest, Option.map_some, ready.verified,
    Option.bind_some, latest, ready.projected, RepeatedDelivery.shown]

theorem Ready.verification (ready : Ready row v r) {o : Observation}
    (latest : r.latestObservation row.version = some o) :
    getVerified row.version r = .ok (some (verificationOf v o)) := by
  obtain ⟨same, latest', member, version⟩ := ready.observation
  cases latest.symm.trans latest'
  simp only [getVerified, ready.verified, latest, (ready.sameBlock o member version).1,
    Bool.true_eq_false, if_false]

end Reads

/-! ## A run up to its first write -/

variable {α : Type}

/-- The program comes to another one by requests that read. -/
inductive Reads (s : Services) (r : OrderRecord) : Handler α → Handler α → Prop
  | here (p : Handler α) : Reads s r p p
  | read {q : Request} {k : Reply q → Handler α} {p : Handler α} (reply : Reply q)
      (same : ∀ env, answer s env q r = (reply, r)) (rest : Reads s r (k reply) p) :
      Reads s r (ask q k) p

/-- What holds of the record however the run is stopped. -/
def Stops (s : Services) (P : OrderRecord → Prop) (p : Handler α) (r : OrderRecord) : Prop :=
  ∀ (envs : List Env) (w : World), w.record = r → P (serve (perform s) p envs w).2.record

/-- What holds of the outcome and the record of a run to the end, in environments of a kind. -/
def Completes (s : Services) (A : Env → Prop) (P : Except Failure α → OrderRecord → Prop)
    (p : Handler α) (r : OrderRecord) : Prop :=
  ∀ (envs : Nat → Env) (w : World), (∀ n, A (envs n)) → w.record = r →
    P (execute (perform s) p envs w).1 (execute (perform s) p envs w).2.record

section Rules
variable {s : Services} {r : OrderRecord} {q : Request} {k : Reply q → Handler α}

theorem stops_done {P : OrderRecord → Prop} (a : α) (holds : P r) : Stops s P (done a) r := by
  rintro envs w rfl
  cases envs <;> exact holds

theorem stops_fail {P : OrderRecord → Prop} (e : Failure) (holds : P r) :
    Stops s P (fail e : Handler α) r := by
  rintro envs w rfl
  cases envs <;> exact holds

theorem stops_ask {P : OrderRecord → Prop} (holds : P r)
    (next : ∀ env, Stops s P (k (answer s env q r).1) (answer s env q r).2) :
    Stops s P (ask q k) r := by
  intro envs w same
  subst same
  cases envs with
  | nil => exact holds
  | cons env rest => exact next env rest (perform s env q w).2 rfl

theorem completes_ask {A : Env → Prop} {P : Except Failure α → OrderRecord → Prop}
    (next : ∀ env, A env → Completes s A P (k (answer s env q r).1) (answer s env q r).2) :
    Completes s A P (ask q k) r := by
  intro envs w allowed same
  subst same
  exact next (envs 0) (allowed 0) (fun n => envs (n + 1)) (perform s (envs 0) q w).2
    (fun n => allowed (n + 1)) rfl

theorem completes_done {A : Env → Prop} {P : Except Failure α → OrderRecord → Prop} (a : α)
    (holds : P (.ok a) r) : Completes s A P (done a) r := by
  rintro envs w - rfl
  exact holds

theorem completes_fail {A : Env → Prop} {P : Except Failure α → OrderRecord → Prop} (e : Failure)
    (holds : P (.error e) r) : Completes s A P (fail e) r := by
  rintro envs w - rfl
  exact holds

theorem Reads.stops {P : OrderRecord → Prop} {p p' : Handler α} (reads : Reads s r p p')
    (holds : P r) (stops : Stops s P p' r) : Stops s P p r := by
  induction reads with
  | here => exact stops
  | read reply same _ ih =>
    refine stops_ask holds fun env => ?_
    rw [same env]
    exact ih stops

theorem Reads.completes {A : Env → Prop} {P : Except Failure α → OrderRecord → Prop}
    {p p' : Handler α} (reads : Reads s r p p') (completes : Completes s A P p' r) :
    Completes s A P p r := by
  induction reads with
  | here => exact completes
  | read reply same _ ih =>
    refine completes_ask fun env _ => ?_
    rw [same env]
    exact ih completes

end Rules

/-- The two writes of a delivery. -/
def storeAndNotify (snapshot : OrderSnapshot) (version : Nat) (bundle : Bytes)
    (confirmations : Nat) : Handler Unit := do
  adapter (← call (.putOnce version bundle))
  enqueueMilestone .initialConfirmation snapshot version confirmations

theorem delivery_reads {row : ProofVersion} {v : ProofVerification} {r : OrderRecord}
    (ready : Ready row v r) {o : Observation}
    (latest : r.latestObservation row.version = some o) {bundle : Bytes}
    (accepted : b.bundleOf (shown row r.order.snapshot.orderReference v o)
      r.order.snapshot.certificateReference = .ok bundle) :
    Reads b.services r (deliveryHandler b.services)
      (storeAndNotify r.order.snapshot row.version bundle o.observedConfirmations) := by
  have state : ¬(r.order.fulfillmentState ≠ .bitcoinVerified ∧
      r.order.fulfillmentState ≠ .delivered) := by
    rcases ready.state with state | state
    · exact fun other => other.1 state
    · exact fun other => other.2 state
  have submitted : ¬r.order.calendarSubmittedAt = none := by
    rw [ready.submitted]
    exact Option.some_ne_none _
  have sameTime : ¬some (shown row r.order.snapshot.orderReference v o).calendarSubmittedAt ≠
      r.order.calendarSubmittedAt := not_not.2 ready.submitted.symm
  refine .read (q := .getForFulfillment) (some (fulfillmentOrder r.order)) (fun _ => rfl) ?_
  show Reads b.services r (ite (r.order.fulfillmentState ≠ .bitcoinVerified ∧
    r.order.fulfillmentState ≠ .delivered) _ (ite (r.order.calendarSubmittedAt = none) _ _)) _
  rw [if_neg state, if_neg submitted]
  refine .read (q := .latest) (some (shown row r.order.snapshot.orderReference v o))
    (fun _ => congrArg (fun reply => (reply, r)) (ready.shown latest)) ?_
  show Reads b.services r (ite (some (shown row r.order.snapshot.orderReference v
    o).calendarSubmittedAt ≠ r.order.calendarSubmittedAt) _ _) _
  rw [if_neg sameTime]
  refine .read (q := .getVerified row.version) (.ok (some (verificationOf v o)))
    (fun _ => congrArg (fun reply => (reply, r)) (ready.verification latest)) ?_
  show Reads b.services r (ite (some (verificationOf v o) ≠ some (verificationOf v o)) _ _) _
  rw [if_neg (not_not.2 rfl)]
  refine .read (q := .latestObservation row.version) (some o)
    (fun _ => congrArg (fun reply => (reply, r)) latest) ?_
  unfold Bundling.bundleOf at accepted
  show Reads b.services r ((valueError (b.services.buildReceipt
    (shown row r.order.snapshot.orderReference v o)
    r.order.snapshot.certificateReference)).bind _) _
  cases receipt : b.services.buildReceipt (shown row r.order.snapshot.orderReference v o)
      r.order.snapshot.certificateReference with
  | error code => simp [receipt] at accepted
  | ok text =>
    simp only [receipt] at accepted
    show Reads b.services r ((valueError (b.services.build
      (shown row r.order.snapshot.orderReference v o) text
      r.order.snapshot.certificateReference)).bind _) _
    rw [accepted]
    exact .here _

/-! ## The two writes -/

section Writes
variable {b} {row : ProofVersion} {v : ProofVerification} {r r' : OrderRecord} {bundle : Bytes}

theorem putOnce_new {p : Platform} {version : Nat}
    (done : putOnce p version bundle r = .ok r') :
    (1 ≤ bundle.length ∧ bundle.length ≤ maxBundleBytes) ∧
      containsSensitiveData p r.order bundle = false := by
  unfold putOnce at done
  split at done
  · cases done
  · next size =>
    split at done
    · cases done
    · next insensitive => exact ⟨not_not.1 size, Bool.eq_false_of_not_eq_true insensitive⟩

/-- A bundle that is there is found equal. -/
theorem Kept.store_again (kept : Kept b row v bundle r) (there : r.bundle row.version ≠ none) :
    putOnce b.platform row.version bundle r = .ok r := by
  cases stored : r.bundle row.version with
  | none => exact absurd stored there
  | some existing =>
    obtain ⟨bytes, checksum, size, insensitive⟩ := kept.bundled existing stored
    have sensitive : ¬containsSensitiveData b.platform r.order bundle = true := by
      rw [insensitive]
      exact Bool.false_ne_true
    have same : ¬(existing.bundleSha256 ≠ b.platform.sha256 bundle ∨
        existing.bundleBytes ≠ bundle) := fun other =>
      other.elim (fun wrong => wrong checksum) fun wrong => wrong bytes
    simp only [putOnce, if_neg (not_not.2 size), if_neg sensitive, kept.ready.stored,
      if_neg (not_not.2 kept.ready.target), stored, if_neg same]

theorem ready_bundles (ready : Ready row v r) (bundles : List ProofBundle) :
    Ready row v { r with bundles := bundles } :=
  ⟨ready.state, ready.latest, ready.stored, ready.target, ready.submitted, ready.verified,
    ready.observed, ready.sameBlock, ready.ids⟩

theorem ready_outbox (ready : Ready row v r) (outbox : List OutboxRecord) :
    Ready row v { r with outbox := outbox } :=
  ⟨ready.state, ready.latest, ready.stored, ready.target, ready.submitted, ready.verified,
    ready.observed, ready.sameBlock, ready.ids⟩

/-- Storing the bundle leaves the order ready and finds or adds just this bundle. -/
theorem Kept.store (kept : Kept b row v bundle r)
    (done : putOnce b.platform row.version bundle r = .ok r') :
    Kept b row v bundle r' ∧ r'.bundle row.version ≠ none ∧ r'.outbox = r.outbox ∧
      r'.observations = r.observations ∧ r'.order = r.order := by
  obtain ⟨size, insensitive⟩ := putOnce_new done
  obtain ⟨-, ⟨rfl, stored, found, -⟩ | ⟨missing, rfl⟩⟩ := putOnce_ok done
  · exact ⟨kept, by rw [found]; exact Option.some_ne_none _, rfl, rfl, rfl⟩
  · have found : OrderRecord.bundle { r with
        bundles := r.bundles ++ [⟨row.version, bundle, b.platform.sha256 bundle⟩] } row.version =
          some ⟨row.version, bundle, b.platform.sha256 bundle⟩ := by
      unfold OrderRecord.bundle at missing ⊢
      rw [List.find?_append, missing]
      simp
    have there : OrderRecord.bundle { r with
        bundles := r.bundles ++ [⟨row.version, bundle, b.platform.sha256 bundle⟩] } row.version ≠
          none := by
      rw [found]
      exact Option.some_ne_none _
    refine ⟨⟨ready_bundles kept.ready _, fun stored same => ?_, fun m sent => ?_, fun _ => there⟩,
      there, rfl, rfl, rfl⟩
    · cases found.symm.trans same
      exact ⟨rfl, rfl, size, insensitive⟩
    · obtain ⟨version, plain, told⟩ := kept.noticed m sent
      exact ⟨version, plain, told⟩

/-- The message of a run that sees the observation. -/
def message (row : ProofVersion) (r : OrderRecord) (o : Observation) : OutboxMessage :=
  ⟨noticeKey row r, r.order.snapshot.orderReference, .initialConfirmation,
    r.order.snapshot.email, row.version, o.observedConfirmations⟩

theorem Ready.authoritative (ready : Ready row v r) {o : Observation}
    (latest : r.latestObservation row.version = some o) :
    authoritativeObservation row.version o.observedConfirmations r = some o := by
  obtain ⟨same, latest', member, version⟩ := ready.observation
  cases latest.symm.trans latest'
  simp only [authoritativeObservation, ready.latest, ready.verified, latest]
  exact if_pos ⟨trivial, ready.target, trivial, (ready.sameBlock o member version).1⟩

theorem sameBlock_of_matches {first second : Observation}
    (one : first.matchesVerification v = true) (other : second.matchesVerification v = true) :
    sameBlock first second = true := by
  simp only [Observation.matchesVerification, Bool.and_eq_true, beq_iff_eq] at one other
  simp only [sameBlock, Bool.and_eq_true, beq_iff_eq]
  obtain ⟨⟨⟨height, hash⟩, method⟩, policy⟩ := one
  obtain ⟨⟨⟨height', hash'⟩, method'⟩, policy'⟩ := other
  exact ⟨⟨⟨height.trans height'.symm, hash.trans hash'.symm⟩, method.trans method'.symm⟩,
    policy.trans policy'.symm⟩

/-- Whatever the count is by now, the notice that is there is the same message. -/
theorem Kept.same (kept : Kept b row v bundle r) {m : OutboxRecord}
    (there : notice row r = some m) {o : Observation}
    (latest : r.latestObservation row.version = some o) :
    sameMessage r m (message row r o) o = true := by
  obtain ⟨-, -, bound, member, version, told⟩ := kept.noticed m there
  obtain ⟨same, latest', inside, own⟩ := kept.ready.observation
  cases latest.symm.trans latest'
  have block := sameBlock_of_matches (kept.ready.sameBlock bound member version).1
    (kept.ready.sameBlock o inside own).1
  have found : r.observation bound.id = some bound :=
    UniqueColumns.find_of_mem kept.ready.ids member
  simp only [content, Prod.mk.injEq] at told
  obtain ⟨kind, recipient, payload, proofVersion, count, observation⟩ := told
  simp [sameMessage, message, kind, recipient, payload, proofVersion, count, observation, found,
    version, block, NotificationKind.minimumConfirmations, bound.confirmed]

theorem message_made {o : Observation} (bounds : 1 ≤ row.version ∧ row.version ≤ 2147483647)
    (count : o.observedConfirmations ≤ 2147483647) :
    notificationMessage .initialConfirmation r.order.snapshot.orderReference
      r.order.snapshot.email row.version o.observedConfirmations = .ok (message row r o) := by
  have fits : ¬(¬(1 ≤ row.version ∧ row.version ≤ 2147483647) ∨
      ¬(NotificationKind.initialConfirmation.minimumConfirmations ≤ o.observedConfirmations ∧
        o.observedConfirmations ≤ 2147483647)) := fun wrong =>
    wrong.elim (fun short => short bounds) fun short => short ⟨o.confirmed, count⟩
  simp only [notificationMessage, if_neg fits]
  rfl

theorem Kept.notify_again (kept : Kept b row v bundle r) (there : notice row r ≠ none)
    {o : Observation} (latest : r.latestObservation row.version = some o) (now : Instant)
    (freshId : Nat) : enqueue (message row r o) now freshId r = .ok r := by
  obtain ⟨m, sent⟩ := Option.ne_none_iff_exists'.1 there
  obtain ⟨bounds, plain, -⟩ := kept.noticed m sent
  obtain ⟨same, latest', inside, own⟩ := kept.ready.observation
  cases latest.symm.trans latest'
  have made := message_made (r := r) bounds (kept.ready.sameBlock o inside own).2
  have found : r.message (.milestone (noticeKey row r)) = some m := sent
  have supported := kept.same sent latest
  simp only [message] at supported
  simp [enqueue, message, made, plain, kept.ready.authoritative latest, found, supported]

theorem putOnce_error {p : Platform} {version : Nat} {e : AdapterError}
    (refused : putOnce p version bundle r = .error e) (missing : r.bundle version = none) :
    e ≠ .value "bundle_conflict" ∧ e ≠ .value "outbox_message_key_conflict" := by
  unfold putOnce at refused
  split at refused
  · cases refused
    simp
  · split at refused
    · cases refused
      simp
    · split at refused
      · cases refused
        simp
      · split at refused
        · cases refused
          simp
        · simp [missing] at refused

theorem enqueue_error {m : OutboxMessage} {now : Instant} {freshId : Nat} {e : AdapterError}
    (refused : enqueue m now freshId r = .error e)
    (missing : r.message (.milestone m.messageKey) = none) :
    e ≠ .value "outbox_message_key_conflict" ∧ e ≠ .value "bundle_conflict" := by
  unfold enqueue at refused
  split at refused
  · next code made =>
    have own : code = "notification_milestone_invalid" := by
      unfold notificationMessage at made
      split at made
      · exact (Except.error.inj made).symm
      · cases made
    cases refused
    simp [own]
  · iterate 4
      split at refused
      · cases refused
        simp
    split at refused
    · cases refused
      simp
    · simp only [missing] at refused
      split at refused
      · cases refused
        simp
      · cases refused

/-- A notice is enqueued only after the checks of its message. -/
theorem enqueue_new {o : Observation} {now : Instant} {freshId : Nat}
    (done : enqueue (message row r o) now freshId r = .ok r') :
    (1 ≤ row.version ∧ row.version ≤ 2147483647) ∧
      payloadSensitive .initialConfirmation r.order.snapshot.orderReference = false := by
  unfold enqueue at done
  split at done
  · cases done
  · next expected made =>
    have bounds : 1 ≤ row.version ∧ row.version ≤ 2147483647 := by
      unfold notificationMessage at made
      split at made
      · cases made
      · next fits => exact not_not.1 (not_or.1 fits).1
    refine ⟨bounds, ?_⟩
    split at done
    · cases done
    · split at done
      · cases done
      · next plain => exact Bool.eq_false_of_not_eq_true plain

theorem Kept.notify (kept : Kept b row v bundle r) (stored : r.bundle row.version ≠ none)
    {o : Observation} (latest : r.latestObservation row.version = some o) {now : Instant}
    {freshId : Nat} (done : enqueue (message row r o) now freshId r = .ok r') :
    Kept b row v bundle r' := by
  cases there : notice row r with
  | some m =>
    have again := kept.notify_again (by rw [there]; exact Option.some_ne_none _) latest now freshId
    cases again.symm.trans done
    exact kept
  | none =>
    obtain ⟨bounds, plain⟩ := enqueue_new done
    obtain ⟨same, latest', inside, own⟩ := kept.ready.observation
    cases latest.symm.trans latest'
    obtain ⟨seen, authoritative, rfl | rfl⟩ := enqueue_ok done
    · exact kept
    · cases authoritative.symm.trans (kept.ready.authoritative latest)
      refine ⟨ready_outbox kept.ready _, kept.bundled, fun m sent => ?_, fun _ => stored⟩
      have added : notice row { r with
          outbox := r.outbox ++ [newMessage freshId (message row r o) o now] } =
            some (newMessage freshId (message row r o) o now) := by
        unfold notice OrderRecord.message at there ⊢
        rw [List.find?_append]
        simp only [noticeKey] at there ⊢
        rw [there]
        simp [newMessage, message, noticeKey]
      cases added.symm.trans sent
      exact ⟨bounds, plain, o, inside, own, rfl⟩

theorem Kept.between (kept : Kept b row v bundle r) (step : Between row v r r') :
    Kept b row v bundle r' := by
  obtain ⟨added, grown, matching⟩ := step.observations
  have key : noticeKey row r' = noticeKey row r := by
    rw [noticeKey, step.snapshot]
    rfl
  have bundled : r'.bundle row.version = r.bundle row.version := by
    rw [OrderRecord.bundle, step.bundles]
    rfl
  have sensitive : containsSensitiveData b.platform r'.order bundle =
      containsSensitiveData b.platform r.order bundle := by
    rw [containsSensitiveData, step.snapshot]
    rfl
  refine ⟨⟨step.state, ?_, ?_, ?_, ?_, ?_, ?_, fun o member => ?_, step.ids⟩, ?_, ?_, ?_⟩
  · rw [OrderRecord.latestProof, step.proofs]
    exact kept.ready.latest
  · rw [OrderRecord.proof, step.proofs]
    exact kept.ready.stored
  · rw [step.snapshot]
    exact kept.ready.target
  · rw [step.submitted]
    exact kept.ready.submitted
  · rw [OrderRecord.verification, step.verifications]
    exact kept.ready.verified
  · obtain ⟨o, member, version⟩ := kept.ready.observed
    exact ⟨o, grown ▸ List.mem_append_left _ member, version⟩
  · rw [grown] at member
    exact (List.mem_append.1 member).elim (kept.ready.sameBlock o) (matching o)
  · rw [bundled, sensitive]
    exact kept.bundled
  · intro m sent
    have said : (notice row r).map content = some (content m) := by
      rw [← step.notice, sent]
      rfl
    obtain ⟨m', old, same⟩ := Option.map_eq_some_iff.1 said
    obtain ⟨bounds, plain, o, member, version, told⟩ := kept.noticed m' old
    refine ⟨bounds, by rw [step.snapshot, plain], o, grown ▸ List.mem_append_left _ member,
      version, ?_⟩
    rw [← same, told, step.snapshot]
  · rw [bundled]
    intro there
    refine kept.stored fun missing => there ?_
    have none := step.notice
    rw [missing] at none
    exact Option.map_eq_none_iff.1 none

/-- The count of a message that can be made is between its bounds. -/
theorem milestone_made {count : Nat} {made : OutboxMessage}
    (ok : notificationMessage .initialConfirmation r.order.snapshot.orderReference
      r.order.snapshot.email row.version count = .ok made) :
    made = ⟨noticeKey row r, r.order.snapshot.orderReference, .initialConfirmation,
      r.order.snapshot.email, row.version, count⟩ := by
  unfold notificationMessage at ok
  split at ok
  · cases ok
  · exact (Except.ok.inj ok).symm

theorem enqueue_rest {m : OutboxMessage} {now : Instant} {freshId : Nat}
    (done : enqueue m now freshId r = .ok r') :
    r'.order = r.order ∧ r'.bundles = r.bundles := by
  obtain ⟨-, -, rfl | rfl⟩ := enqueue_ok done
  · exact ⟨rfl, rfl⟩
  · exact ⟨rfl, rfl⟩

/-- However the writes are stopped, the bundle and the notice are the right ones. -/
theorem Kept.stops (kept : Kept b row v bundle r) {o : Observation}
    (latest : r.latestObservation row.version = some o) :
    Stops b.services (fun r' => Kept b row v bundle r' ∧ r'.order = r.order)
      (storeAndNotify r.order.snapshot row.version bundle o.observedConfirmations) r := by
  refine stops_ask (q := .putOnce row.version bundle) ⟨kept, rfl⟩ fun env => ?_
  cases stored : putOnce b.platform row.version bundle r with
  | error e =>
    have reply : answer b.services env (.putOnce row.version bundle) r = (.error e, r) :=
      congrArg (commitUnit r) stored
    rw [reply]
    exact stops_fail _ ⟨kept, rfl⟩
  | ok r' =>
    obtain ⟨kept', there, -, observations, order⟩ := kept.store stored
    have latest' : r'.latestObservation row.version = some o := by
      rw [OrderRecord.latestObservation, observations]
      exact latest
    have reply : answer b.services env (.putOnce row.version bundle) r = (.ok (), r') :=
      congrArg (commitUnit r) stored
    rw [reply, ← order]
    show Stops b.services _ ((valueError (notificationMessage .initialConfirmation
      r'.order.snapshot.orderReference r'.order.snapshot.email row.version
      o.observedConfirmations)).bind _) r'
    cases made : notificationMessage .initialConfirmation r'.order.snapshot.orderReference
        r'.order.snapshot.email row.version o.observedConfirmations with
    | error code => exact stops_fail _ ⟨kept', rfl⟩
    | ok m =>
      have same : m = message row r' o := milestone_made made
      refine stops_ask (q := .enqueue m) ⟨kept', rfl⟩ fun env' => ?_
      cases sent : enqueue m env'.now env'.freshId r' with
      | error e =>
        have reply : answer b.services env' (.enqueue m) r' = (.error e, r') :=
          congrArg (commitUnit r') sent
        rw [reply]
        exact stops_fail _ ⟨kept', rfl⟩
      | ok last =>
        have reply : answer b.services env' (.enqueue m) r' = (.ok (), last) :=
          congrArg (commitUnit r') sent
        rw [reply]
        rw [same] at sent
        exact stops_done _ ⟨kept'.notify there latest' sent, (enqueue_rest sent).1⟩

/-- What the two writes check of the order, the version and the bundle. -/
structure Sendable (p : Platform) (row : ProofVersion) (bundle : Bytes) (r : OrderRecord) :
    Prop where
  version : 1 ≤ row.version ∧ row.version ≤ 2147483647
  size : 1 ≤ bundle.length ∧ bundle.length ≤ maxBundleBytes
  insensitive : containsSensitiveData p r.order bundle = false
  plain : payloadSensitive .initialConfirmation r.order.snapshot.orderReference = false

/-- The identifier that a new row would get is in use by none. -/
def Fresh (r : OrderRecord) (env : Env) : Prop := ∀ m ∈ r.outbox, m.id ≠ env.freshId

theorem Kept.storable (kept : Kept b row v bundle r) (sendable : Sendable b.platform row bundle r) :
    ∃ r', putOnce b.platform row.version bundle r = .ok r' := by
  by_cases there : r.bundle row.version = none
  · have sensitive : ¬containsSensitiveData b.platform r.order bundle = true := by
      rw [sendable.insensitive]
      exact Bool.false_ne_true
    simp only [putOnce, if_neg (not_not.2 sendable.size), if_neg sensitive, kept.ready.stored,
      if_neg (not_not.2 kept.ready.target), there]
    exact ⟨_, rfl⟩
  · exact ⟨r, kept.store_again there⟩

theorem Kept.notifiable (kept : Kept b row v bundle r) {o : Observation}
    (latest : r.latestObservation row.version = some o)
    (plain : payloadSensitive .initialConfirmation r.order.snapshot.orderReference = false)
    {env : Env} (fresh : Fresh r env) (bounds : 1 ≤ row.version ∧ row.version ≤ 2147483647) :
    ∃ last, enqueue (message row r o) env.now env.freshId r = .ok last := by
  by_cases there : notice row r = none
  · obtain ⟨same, latest', inside, own⟩ := kept.ready.observation
    cases latest.symm.trans latest'
    have made := message_made (r := r) bounds (kept.ready.sameBlock o inside own).2
    have missing : r.message (.milestone (noticeKey row r)) = none := there
    have free : (r.outbox.any fun m => m.id == env.freshId) = false := by
      refine List.any_eq_false.2 fun m member => ?_
      simpa using fresh m member
    simp [enqueue, message, made, plain, kept.ready.authoritative latest, missing, free]
  · exact ⟨r, kept.notify_again there latest env.now env.freshId⟩

/-- How a run to the end ends: what is stored already stays, a notice that is there ends it
well, and nothing is in conflict. -/
structure Outcome (row : ProofVersion) (r : OrderRecord) (result : Except Failure Unit)
    (r' : OrderRecord) : Prop where
  stored : r.bundle row.version ≠ none → r'.bundles = r.bundles
  noticed : notice row r ≠ none → result = .ok () ∧ r' = r
  noConflict : result ≠ .error (.adapter (.value "bundle_conflict")) ∧
    result ≠ .error (.adapter (.value "outbox_message_key_conflict"))

/-- The end of the second write. -/
theorem Kept.notify_outcome (kept : Kept b row v bundle r) {o : Observation}
    (latest : r.latestObservation row.version = some o) (A : Env → Prop) :
    Completes b.services A
      (fun result r' => r'.bundles = r.bundles ∧ Outcome row r result r' ∧
        ((∀ env, A env → Fresh r env) → Sendable b.platform row bundle r → result = .ok ()))
      (enqueueMilestone .initialConfirmation r.order.snapshot row.version
        o.observedConfirmations) r := by
  obtain ⟨same, latest', inside, own⟩ := kept.ready.observation
  cases latest.symm.trans latest'
  have count := (kept.ready.sameBlock o inside own).2
  show Completes b.services A _ ((valueError (notificationMessage .initialConfirmation
    r.order.snapshot.orderReference r.order.snapshot.email row.version
    o.observedConfirmations)).bind _) r
  cases made : notificationMessage .initialConfirmation r.order.snapshot.orderReference
      r.order.snapshot.email row.version o.observedConfirmations with
  | error code =>
    have outside : ¬(1 ≤ row.version ∧ row.version ≤ 2147483647) := fun bounds => by
      cases made.symm.trans (message_made bounds count)
    have own : code = "notification_milestone_invalid" := by
      unfold notificationMessage at made
      split at made
      · exact (Except.error.inj made).symm
      · cases made
    refine completes_fail _ ⟨rfl, ⟨fun _ => rfl, fun there => ?_, ?_⟩, fun _ sendable =>
      absurd sendable.version outside⟩
    · obtain ⟨m, sent⟩ := Option.ne_none_iff_exists'.1 there
      exact absurd (kept.noticed m sent).version outside
    · simp [own]
  | ok m =>
    have shape : m = message row r o := milestone_made made
    refine completes_ask (q := .enqueue m) fun env allowed => ?_
    subst shape
    cases sent : enqueue (message row r o) env.now env.freshId r with
    | error e =>
      have reply : answer b.services env (.enqueue (message row r o)) r = (.error e, r) :=
        congrArg (commitUnit r) sent
      have missing : notice row r = none := by
        by_contra there
        cases sent.symm.trans (kept.notify_again there latest env.now env.freshId)
      have other := enqueue_error sent missing
      rw [reply]
      refine completes_fail _ ⟨rfl, ⟨fun _ => rfl, fun there => absurd missing there, ?_⟩,
        fun fresh sendable => ?_⟩
      · exact ⟨fun wrong => other.2 (Failure.adapter.inj (Except.error.inj wrong)),
          fun wrong => other.1 (Failure.adapter.inj (Except.error.inj wrong))⟩
      · obtain ⟨last, done⟩ := kept.notifiable latest sendable.plain (fresh env allowed)
          sendable.version
        cases sent.symm.trans done
    | ok last =>
      have reply : answer b.services env (.enqueue (message row r o)) r = (.ok (), last) :=
        congrArg (commitUnit r) sent
      have bundles := (enqueue_rest sent).2
      rw [reply]
      refine completes_done _ ⟨bundles, ⟨fun _ => bundles, fun there => ⟨rfl, ?_⟩, ?_⟩,
        fun _ _ => rfl⟩
      · exact Except.ok.inj (sent.symm.trans
          (kept.notify_again there latest env.now env.freshId))
      · constructor
        · intro wrong
          cases wrong
        · intro wrong
          cases wrong

/-- A run to the end from the first write on. -/
theorem Kept.outcome (kept : Kept b row v bundle r) {o : Observation}
    (latest : r.latestObservation row.version = some o) (A : Env → Prop) :
    Completes b.services A
      (fun result r' => Outcome row r result r' ∧
        ((∀ env, A env → Fresh r env) → Sendable b.platform row bundle r → result = .ok ()))
      (storeAndNotify r.order.snapshot row.version bundle o.observedConfirmations) r := by
  refine completes_ask (q := .putOnce row.version bundle) fun env _ => ?_
  cases stored : putOnce b.platform row.version bundle r with
  | error e =>
    have missing : r.bundle row.version = none := by
      by_contra there
      cases stored.symm.trans (kept.store_again there)
    have reply : answer b.services env (.putOnce row.version bundle) r = (.error e, r) :=
      congrArg (commitUnit r) stored
    have other := putOnce_error stored missing
    rw [reply]
    refine completes_fail _ ⟨⟨fun _ => rfl, fun there => absurd missing (kept.stored there), ?_⟩,
      fun _ sendable => ?_⟩
    · exact ⟨fun wrong => other.1 (Failure.adapter.inj (Except.error.inj wrong)),
        fun wrong => other.2 (Failure.adapter.inj (Except.error.inj wrong))⟩
    · obtain ⟨r', done⟩ := kept.storable sendable
      cases stored.symm.trans done
  | ok r' =>
    obtain ⟨kept', -, outbox, observations, order⟩ := kept.store stored
    have latest' : r'.latestObservation row.version = some o := by
      rw [OrderRecord.latestObservation, observations]
      exact latest
    have reply : answer b.services env (.putOnce row.version bundle) r = (.ok (), r') :=
      congrArg (commitUnit r) stored
    have found : r.bundle row.version ≠ none → r' = r := fun there =>
      (Except.ok.inj ((kept.store_again there).symm.trans stored)).symm
    rw [reply, ← order]
    intro envs w allowed same
    obtain ⟨bundles, outcome, sent⟩ := kept'.notify_outcome latest' A envs w allowed same
    refine ⟨⟨fun there => ?_, fun there => ?_, outcome.noConflict⟩, fun fresh sendable => ?_⟩
    · exact bundles.trans (congrArg OrderRecord.bundles (found there))
    · have unchanged := found (kept.stored there)
      subst unchanged
      exact outcome.noticed there
    · refine sent (fun env' allowed' => ?_) ⟨sendable.version, sendable.size, ?_, ?_⟩
      · rw [Fresh, outbox]
        exact fresh env' allowed'
      · rw [order, sendable.insensitive]
      · rw [order, sendable.plain]

end Writes

/-! ## Every run -/

theorem observed_between {row : ProofVersion} {v : ProofVerification} {r : OrderRecord}
    (ready : Ready row v r) {o : Observation}
    (block : o.matchesVerification v = true ∧ o.observedConfirmations ≤ 2147483647)
    (free : ∀ other ∈ r.observations, other.id ≠ o.id) :
    Between row v r { r with observations := r.observations ++ [o] } := by
  refine ⟨rfl, rfl, ready.state, rfl, rfl, rfl, ⟨_, rfl, fun added member _ => ?_⟩, ?_, rfl⟩
  · cases List.mem_singleton.1 member
    exact block
  · rw [List.map_append]
    refine List.nodup_append.2 ⟨ready.ids, List.nodup_singleton _, ?_⟩
    rintro _ member _ same rfl
    obtain ⟨other, old, equal⟩ := List.mem_map.1 member
    exact free other old (equal.trans (List.mem_singleton.1 same))

variable {b}

/-- The bundle that is built of the latest version, whatever was observed last. -/
def Builds (b : Bundling) (row : ProofVersion) (v : ProofVerification) (bundle : Bytes)
    (snapshot : OrderSnapshot) : Prop :=
  ∀ o, b.bundleOf (shown row snapshot.orderReference v o) snapshot.certificateReference =
    .ok bundle

theorem builds_of_accepted {row : ProofVersion} {v : ProofVerification} {r : OrderRecord}
    (ready : Ready row v r) {bundle : Bytes} {proof : StoredProof Instant}
    (latest : FulfillmentAdapters.latest r = some proof)
    (accepted : b.bundleOf proof r.order.snapshot.certificateReference = .ok bundle) :
    Builds b row v bundle r.order.snapshot := by
  intro o
  obtain ⟨seen, found, -, -⟩ := ready.observation
  cases latest.symm.trans (ready.shown found)
  exact (bundleOf_shown b row _ v o seen _).trans accepted

theorem repeated_kept {row : ProofVersion} {v : ProofVerification} {bundle : Bytes}
    {start w : World} (kept : Kept b row v bundle start.record)
    (builds : Builds b row v bundle start.record.order.snapshot)
    (repeated : Repeated b row v start w) :
    Kept b row v bundle w.record ∧
      w.record.order.snapshot = start.record.order.snapshot := by
  induction repeated with
  | start => exact ⟨kept, rfl⟩
  | @run w _ envs ih =>
    obtain ⟨kept', same⟩ := ih
    obtain ⟨o, latest, -, -⟩ := kept'.ready.observation
    have reads := delivery_reads b kept'.ready latest (same ▸ builds o)
    have stops := reads.stops ⟨kept', rfl⟩ (kept'.stops latest)
    obtain ⟨after, order⟩ := stops envs w rfl
    exact ⟨after, by rw [order, same]⟩
  | between _ step ih => exact ⟨ih.1.between step, step.snapshot.trans ih.2⟩

/-- However often the delivery of a verified version is run and stopped, and however often its
block is observed in between, a run builds the same bundle and the same notice: what is stored
is found equal, what is enqueued is found the same, and neither is ever in conflict. -/
theorem delivery_repeats {row : ProofVersion} {v : ProofVerification} {start w : World}
    {proof : StoredProof Instant} {bundle : Bytes} (ready : Ready row v start.record)
    (undelivered : start.record.bundle row.version = none ∧ notice row start.record = none)
    (latest : FulfillmentAdapters.latest start.record = some proof)
    (accepted : b.bundleOf proof start.record.order.snapshot.certificateReference = .ok bundle)
    (repeated : Repeated b row v start w) :
    ∃ again o, FulfillmentAdapters.latest w.record = some again ∧
      w.record.latestObservation row.version = some o ∧
      b.bundleOf again w.record.order.snapshot.certificateReference = .ok bundle ∧
      noticeKey row w.record = noticeKey row start.record ∧
      (w.record.bundle row.version ≠ none →
        putOnce b.platform row.version bundle w.record = .ok w.record) ∧
      (notice row w.record ≠ none → ∀ now freshId,
        enqueue (message row w.record o) now freshId w.record = .ok w.record) ∧
      ∀ envs : Nat → Env,
        let run := execute (perform b.services) (deliveryHandler b.services) envs w
        Outcome row w.record run.1 run.2.record ∧
          ((∀ n, Fresh w.record (envs n)) → Sendable b.platform row bundle w.record →
            run.1 = .ok ()) := by
  have first : Kept b row v bundle start.record := by
    refine ⟨ready, fun stored found => ?_, fun m found => ?_, fun there => ?_⟩
    · cases undelivered.1.symm.trans found
    · cases undelivered.2.symm.trans found
    · exact absurd undelivered.2 there
  have builds := builds_of_accepted ready latest accepted
  obtain ⟨kept, same⟩ := repeated_kept first builds repeated
  obtain ⟨o, seen, -, -⟩ := kept.ready.observation
  have reads := delivery_reads b kept.ready seen (same ▸ builds o)
  refine ⟨_, o, kept.ready.shown seen, seen, same ▸ builds o, ?_, kept.store_again,
    fun there => kept.notify_again there seen, fun envs => ?_⟩
  · rw [noticeKey, same]
    rfl
  · have plain := reads.completes (kept.outcome seen fun env => ∃ n, env = envs n) envs w
      (fun n => ⟨n, rfl⟩) rfl
    refine ⟨plain.1, fun fresh => plain.2 ?_⟩
    rintro _ ⟨n, rfl⟩
    exact fresh n

/-! ## A delivery that stops after the bundle and is repeated six blocks later -/

open Receipts (maxCivil)
open VerifiedOrders (sampleDigest sampleSha256 samplePlatform sampleOrder queuedRecord sampleTime
  upgradedBytes)

theorem utc_offset : (-86400000000 : Int) < 0 ∧ (0 : Int) < 86400000000 := by decide

theorem utc_second {time : Int} (range : 0 ≤ time ∧ time < 315537897600000000) :
    0 ≤ time / 1000000 ∧ time / 1000000 < maxCivil := by
  unfold maxCivil
  omega

theorem utc_micro (time : Int) : 0 ≤ time % 1000000 ∧ time % 1000000 < 1000000 := by omega

/-- The instant in UTC, counted from the start of year 1. -/
def utcFrom (time : Int) : DateTime :=
  if range : 0 ≤ time ∧ time < 315537897600000000 then
    ⟨time / 1000000, time % 1000000, 0, utc_second range, utc_micro time, utc_offset⟩
  else Receipts.firstBlockTime

/-- The instant in UTC; instants count from 1970. -/
def utcCivil (time : Int) : DateTime := utcFrom (time + 62135596800000000)

def sampleRow : ProofVersion :=
  ⟨2, sampleDigest, upgradedBytes, sampleSha256 upgradedBytes, sampleTime 10, none⟩

def sampleVerification : ProofVerification :=
  ⟨2, ⟨"bitcoin-core", 0, "000000000019d6689c085ae165831e934ff763ae46a2a6c172b3f1b60a8ce26f",
    1231006505000000, "confirmations>=1"⟩, sampleTime 20⟩

/-- The block is seen under as many confirmations at a second. -/
def sampleObservation (id confirmations : Nat) (second : Int) (confirmed : 1 ≤ confirmations) :
    Observation :=
  ⟨id, 2, confirmations, confirmed, 0,
    "000000000019d6689c085ae165831e934ff763ae46a2a6c172b3f1b60a8ce26f", "bitcoin-core",
    "confirmations>=1", sampleTime second, ⟨2, confirmations, sampleTime second⟩,
    sampleTime second⟩

def firstSeen : Observation := sampleObservation 1 1 20 Nat.one_pos

def seenAgain : Observation := sampleObservation 2 6 4000 (Nat.le_add_left 1 5)

def verifiedRecord : OrderRecord :=
  { queuedRecord with
    order := { sampleOrder with
      fulfillmentState := .bitcoinVerified
      calendarSubmittedAt := some (sampleTime 10) }
    proofs := [sampleRow]
    verifications := [sampleVerification]
    observations := [firstSeen] }

def verifiedWorld : World := ⟨verifiedRecord, sampleTime 20, 100⟩

def sampleShown : StoredProof Instant :=
  shown sampleRow sampleOrder.snapshot.orderReference sampleVerification firstSeen

def sampleReceipt : Receipt :=
  Receipts.receiptFields Receipts.rfc3339 sampleOrder.snapshot.orderReference.value
    sampleOrder.snapshot.certificateReference.value sampleDigest.value
    ⟨sampleShown.orderReference, 2, sampleDigest, upgradedBytes, sampleSha256 upgradedBytes,
      utcCivil (sampleTime 10), some ⟨"bitcoin-core", utcCivil (sampleTime 20), 0,
        sampleVerification.block.blockHash, utcCivil 1231006505000000, "confirmations>=1", 1,
        Nat.one_pos⟩⟩ "1.0.0"

/-- Texts and archives are stood for by the number of their fields and files. -/
def sampleBundling : Bundling :=
  ⟨samplePlatform, id, false, utcCivil, fun receipt => [UInt8.ofNat receipt.length],
    fun text => if text = [12] then some sampleReceipt else none,
    fun files => [80, 75, UInt8.ofNat files.length], "1.0.0"⟩

theorem sample_built : sampleBundling.bundleOf sampleShown
    sampleOrder.snapshot.certificateReference = .ok [80, 75, 5] := by
  decide +kernel

theorem verified_ready : Ready sampleRow sampleVerification verifiedRecord := by
  refine ⟨Or.inl rfl, by decide +kernel, by decide +kernel, rfl, rfl, by decide,
    ⟨firstSeen, List.mem_singleton_self _, rfl⟩, fun o member _ => ?_, by decide⟩
  cases List.mem_singleton.1 member
  decide

/-- The run stops after its fifth transaction. -/
def crashed : World :=
  (serve (perform sampleBundling.services) (deliveryHandler sampleBundling.services)
    (List.replicate 5 (VerifiedOrders.sampleEnv 30 7 upgradedBytes)) verifiedWorld).2

theorem crashed_record : crashed.record =
    { verifiedRecord with bundles := [⟨2, [80, 75, 5], sampleSha256 [80, 75, 5]⟩] } := by
  decide +kernel

theorem crashed_ready : Ready sampleRow sampleVerification crashed.record := by
  rw [crashed_record]
  exact ready_bundles verified_ready _

def observedAgain : World :=
  { crashed with
    record := { crashed.record with observations := crashed.record.observations ++ [seenAgain] } }

theorem observedAgain_repeated : Repeated sampleBundling sampleRow sampleVerification
    verifiedWorld observedAgain := by
  have first : Repeated sampleBundling sampleRow sampleVerification verifiedWorld crashed :=
    .run .start (List.replicate 5 (VerifiedOrders.sampleEnv 30 7 upgradedBytes))
  refine .between first (observed_between crashed_ready (by decide) ?_)
  rw [crashed_record]
  intro other member
  cases List.mem_singleton.1 member
  decide

theorem delivery_repeats_after_crash : ∃ again o,
    latest observedAgain.record = some again ∧
      observedAgain.record.latestObservation 2 = some o ∧
      sampleBundling.bundleOf again
        observedAgain.record.order.snapshot.certificateReference = .ok [80, 75, 5] ∧
      putOnce samplePlatform 2 [80, 75, 5] observedAgain.record = .ok observedAgain.record := by
  have stored : observedAgain.record.bundle 2 ≠ none := by
    rw [observedAgain, crashed_record]
    decide
  have seen : verifiedRecord.latestObservation 2 = some firstSeen := by decide
  obtain ⟨again, o, shown, found, built, -, store, -⟩ :=
    @delivery_repeats sampleBundling sampleRow sampleVerification verifiedWorld observedAgain
      sampleShown [80, 75, 5] verified_ready ⟨by decide, by decide⟩
      (verified_ready.shown seen) sample_built observedAgain_repeated
  exact ⟨again, o, shown, found, built, store stored⟩

end RepeatedDelivery
