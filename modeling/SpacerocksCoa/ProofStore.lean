import SpacerocksCoa.Receipts

/-!
# The stored versions of a proof

The proof store at the level of its rows: a verification is written as a JSON payload and read
back from it, an appended version is checked against the rows that are there, and a transaction
that fails leaves no trace, although the order was touched before the checks. Two instants are
equal when they are the same point in time, so what is read is compared by its instants.

What the database refuses beyond the constraints of the tables is a parameter, and so is what
other transactions do to the rows that an append does not write.
-/
namespace ProofStore
open OrderStates ProofRecords OrderRows
open FulfillmentAdapters (AdapterError mergeCalendarTime mergeCalendarTime_ok newVerification
  verificationOf)
open Receipts (DateTime Leaf Value Receipt isoformat isoformat_read zToOffset fromisoformat
  bitcoinFields)

/-! ## The payload of a verification -/

abbrev Payload := Receipt

def verificationPayload (e : Evidence DateTime) : Except AdapterError Payload :=
  match verificationError e with
  | some code => .error (.value code)
  | none => .ok
    [("bitcoin",
      .object (bitcoinFields isoformat e ++ [("confirmations", .number e.confirmations)])),
     ("verification_method", .leaf (.text e.method)),
     ("verified_at", .leaf (.time (isoformat e.verifiedAt)))]

/-- `str` of a text or of a number. -/
def readText : Option Leaf → Option String
  | some (.text value) => some value
  | some (.number value) => some (toString value)
  | _ => none

def readNumber : Option Leaf → Option Nat
  | some (.number (.ofNat value)) => some value
  | _ => none

def readTime : Option Leaf → Option DateTime
  | some (.time text) => fromisoformat (zToOffset text)
  | _ => none

def leafAt (payload : Payload) (key : String) : Option Leaf :=
  match payload.lookup key with
  | some (.leaf value) => some value
  | _ => none

def readVerification (payload : Payload) (bitcoin : List (String × Leaf)) :
    Option (Evidence DateTime) := do
  let method ← readText (leafAt payload "verification_method")
  let verifiedAt ← readTime (leafAt payload "verified_at")
  let blockHeight ← readNumber (bitcoin.lookup "block_height")
  let blockHash ← readText (bitcoin.lookup "block_hash")
  let blockTime ← readTime (bitcoin.lookup "block_time")
  let confirmationPolicy ← readText (bitcoin.lookup "confirmation_policy")
  let confirmations ← readNumber (bitcoin.lookup "confirmations")
  -- The constructor of the result raises inside the `try`.
  if confirmed : 1 ≤ confirmations then
    some ⟨method, verifiedAt, blockHeight, blockHash, blockTime, confirmationPolicy,
      confirmations, confirmed⟩
  else none

def verificationFromPayload (payload : Payload) : Except AdapterError (Evidence DateTime) :=
  match payload.lookup "bitcoin" with
  | some (.object bitcoin) =>
    match readVerification payload bitcoin with
    | some e => .ok e
    | none => .error (.value "stored_verification_metadata_invalid")
  | _ => .error (.value "stored_verification_metadata_invalid")

theorem readTime_isoformat (d : DateTime) : readTime (some (.time (isoformat d))) = some d :=
  isoformat_read d

theorem readNumber_cast (n : Nat) : readNumber (some (.number (n : Int))) = some n := rfl

theorem verificationPayload_valid {e : Evidence DateTime} {payload : Payload}
    (written : verificationPayload e = .ok payload) : ValidEvidence e := by
  cases invalid : verificationError e with
  | none => exact invalid
  | some code => simp only [verificationPayload, invalid, reduceCtorEq] at written

/-- A verification is read back as it was written, its offsets included. -/
theorem payload_read {e : Evidence DateTime} {payload : Payload}
    (written : verificationPayload e = .ok payload) :
    verificationFromPayload payload = .ok e := by
  have valid : verificationError e = none := verificationPayload_valid written
  simp only [verificationPayload, valid, Except.ok.injEq] at written
  subst written
  let bitcoin := bitcoinFields isoformat e ++ [("confirmations", Leaf.number e.confirmations)]
  let payload : Payload := [("bitcoin", .object bitcoin),
    ("verification_method", .leaf (.text e.method)),
    ("verified_at", .leaf (.time (isoformat e.verifiedAt)))]
  have object : payload.lookup "bitcoin" = some (.object bitcoin) := rfl
  have method : leafAt payload "verification_method" = some (.text e.method) := rfl
  have verifiedAt : leafAt payload "verified_at" = some (.time (isoformat e.verifiedAt)) := rfl
  have height : bitcoin.lookup "block_height" = some (.number e.blockHeight) := rfl
  have hash : bitcoin.lookup "block_hash" = some (.text e.blockHash) := rfl
  have time : bitcoin.lookup "block_time" = some (.time (isoformat e.blockTime)) := rfl
  have policy : bitcoin.lookup "confirmation_policy" = some (.text e.confirmationPolicy) := rfl
  have count : bitcoin.lookup "confirmations" = some (.number e.confirmations) := rfl
  have read : readVerification payload bitcoin = some e := by
    unfold readVerification
    rw [method, verifiedAt, height, hash, time, policy, count, readTime_isoformat,
      readTime_isoformat, readNumber_cast, readNumber_cast]
    exact dif_pos e.confirmed
  show verificationFromPayload payload = .ok e
  simp only [verificationFromPayload, object, read]

/-! ## Instants -/

def evidenceInstants (e : Evidence DateTime) : Evidence Instant :=
  ⟨e.method, e.verifiedAt.utc, e.blockHeight, e.blockHash, e.blockTime.utc,
    e.confirmationPolicy, e.confirmations, e.confirmed⟩

/-- What `==` sees of a stored proof. -/
def instants (proof : StoredProof DateTime) : StoredProof Instant :=
  ⟨proof.orderReference, proof.version, proof.targetDigest, proof.proofBytes,
    proof.proofSha256, proof.calendarSubmittedAt.utc,
    proof.verification.map evidenceInstants⟩

/-! ## Rows -/

structure ProofRow where
  id : Nat
  version : Nat
  targetDigest : ManifestDigest
  proofBytes : Bytes
  proofSha256 : Sha256
  proofByteLength : Nat
  proofState : ProofState
  calendarSubmittedAt : Instant
  verificationMetadata : Option Payload
  deriving DecidableEq

/-- The rows of one order that the store reads or writes. -/
structure Rows where
  order : Order
  proofs : List ProofRow
  verifications : List ProofVerification
  observations : List Observation

structure Database where
  sha256 : Bytes → Sha256
  /-- A number out of the range of its column or a character that no column can hold. -/
  storesProof : ProofRow → Bool
  storesVerification : ProofVerification → Bool

def Rows.latestProof (r : Rows) : Option ProofRow := List.argmax ProofRow.version r.proofs

def Rows.verification (r : Rows) (version : Nat) : Option ProofVerification :=
  r.verifications.find? fun v => v.proofVersion == version

def Rows.latestObservation (r : Rows) (version : Nat) : Option Observation :=
  List.argmax Observation.order (r.observations.filter fun o => o.proofVersion == version)

/-- The primary key, `uq_proof_order_version` and the checks of `proof_versions`. -/
def proofFits (d : Database) (row : ProofRow) (r : Rows) : Bool :=
  r.proofs.all (fun other => other.id != row.id && other.version != row.version) &&
    decide (0 < row.version) &&
    decide (1 ≤ row.proofByteLength ∧ row.proofByteLength ≤ maxProofBytes ∧
      row.proofByteLength = row.proofBytes.length) &&
    ((row.proofState == .bitcoinVerified) == row.verificationMetadata.isSome) &&
    d.storesProof row

/-- `uq_proof_verification_order_version`; the version it refers to is there. -/
def verificationFits (d : Database) (v : ProofVerification) (r : Rows) : Bool :=
  (r.verification v.proofVersion).isNone && d.storesVerification v

/-! ## Reading a row -/

variable {T : Type}

/-- The checks that the constructor of a stored proof makes. -/
def checkStored (d : Database) (proof : StoredProof T) : Except AdapterError (StoredProof T) :=
  if proof.version < 1 then .error (.value "proof_version_must_be_positive")
  else if ¬(1 ≤ proof.proofBytes.length ∧ proof.proofBytes.length ≤ maxProofBytes) then
    .error (.value "proof_size_invalid")
  else if d.sha256 proof.proofBytes ≠ proof.proofSha256 then
    .error (.value "proof_checksum_mismatch")
  else
    match proof.verification.bind verificationError with
    | some code => .error (.value code)
    | none => .ok proof

/-- The separate row with its latest observation wins over the payload of the version. -/
def storedVerification (row : ProofRow) (separate : Option ProofVerification)
    (observation : Option Observation) (projectVerification : Bool) :
    Except AdapterError (Option (Evidence Instant)) :=
  if projectVerification then
    match separate, observation with
    | some v, some o => .ok (some (verificationOf v o))
    | _, _ =>
      match row.verificationMetadata with
      | none => .ok none
      | some payload =>
        match verificationFromPayload payload with
        | .ok e => .ok (some (evidenceInstants e))
        | .error e => .error e
  else .ok none

def storedProof (d : Database) (row : ProofRow) (orderReference : OrderReference)
    (separate : Option ProofVerification) (observation : Option Observation)
    (projectVerification : Bool) : Except AdapterError (StoredProof Instant) :=
  match storedVerification row separate observation projectVerification with
  | .error e => .error e
  | .ok verification =>
    if row.proofByteLength ≠ row.proofBytes.length then
      .error (.value "stored_proof_length_invalid")
    else
      checkStored d ⟨orderReference, row.version, row.targetDigest, row.proofBytes,
        row.proofSha256, row.calendarSubmittedAt, verification⟩

structure ProofMetadata where
  id : Nat
  version : Nat
  targetDigest : ManifestDigest
  proofSha256 : Sha256
  declaredLength : Nat
  actualLength : Nat
  proofState : ProofState
  calendarSubmittedAt : Instant
  deriving DecidableEq

def ProofRow.metadata (row : ProofRow) : ProofMetadata :=
  ⟨row.id, row.version, row.targetDigest, row.proofSha256, row.proofByteLength,
    row.proofBytes.length, row.proofState, row.calendarSubmittedAt⟩

/-- The digests have 32 bytes by their types. -/
def metadataValid (m : ProofMetadata) : Bool :=
  decide (1 ≤ m.declaredLength ∧ m.declaredLength ≤ maxProofBytes) &&
    m.actualLength == m.declaredLength

def latestMetadata (r : Rows) : Except AdapterError (Option ProofMetadata) :=
  match r.latestProof with
  | none => .ok none
  | some row =>
    if metadataValid row.metadata then .ok (some row.metadata)
    else .error (.value "stored_proof_metadata_invalid")

def latestForOrder (d : Database) (r : Rows) : Except AdapterError (Option (StoredProof Instant)) :=
  match latestMetadata r with
  | .error e => .error e
  | .ok none => .ok none
  | .ok (some selected) =>
    match r.proofs.find? fun row => row.id == selected.id with
    | none => .error (.value "stored_proof_disappeared")
    | some row =>
      if row.metadata ≠ selected then .error (.value "stored_proof_changed")
      else
        let verification := r.verification row.version
        let stored := storedProof d row r.order.snapshot.orderReference verification
          (verification.bind fun _ => r.latestObservation row.version)
          (r.order.fulfillmentState == .bitcoinVerified ||
            r.order.fulfillmentState == .delivered)
        match stored with
        | .ok proof => .ok (some proof)
        | .error e => .error e

/-! ## Appending -/

abbrev Outcome := Except AdapterError Unit × Rows

/-- `session.begin()`: what the body wrote is kept only when it raises nothing. -/
def transaction (body : Rows → Outcome) (r : Rows) : Outcome :=
  match body r with
  | (.ok (), written) => (.ok (), written)
  | (.error e, _) => (.error e, r)

def insertVerification (d : Database) (version : Nat) (e : Evidence DateTime) (r : Rows) :
    Outcome :=
  match verificationError e with
  | some code => (.error (.value code), r)
  | none =>
    let v := newVerification version (evidenceInstants e)
    if verificationFits d v r then (.ok (), { r with verifications := r.verifications ++ [v] })
    else (.error .database, r)

def newRow (id : Nat) (proof : StoredProof DateTime) (metadata : Option Payload) : ProofRow :=
  ⟨id, proof.version, proof.targetDigest, proof.proofBytes, proof.proofSha256,
    proof.proofByteLength, proof.proofState, proof.calendarSubmittedAt.utc, metadata⟩

def metadataOf : Option (Evidence DateTime) → Except AdapterError (Option Payload)
  | none => .ok none
  | some e =>
    match verificationPayload e with
    | .ok payload => .ok (some payload)
    | .error e => .error e

def insertProof (d : Database) (id : Nat) (proof : StoredProof DateTime) (r : Rows) : Outcome :=
  match metadataOf proof.verification with
  | .error e => (.error e, r)
  | .ok metadata =>
    let row := newRow id proof metadata
    if proofFits d row r then
      let added := { r with proofs := r.proofs ++ [row] }
      match proof.verification with
      | none => (.ok (), added)
      | some e => insertVerification d proof.version e added
    else (.error .database, r)

/-- The checks against the latest version; the order has been touched already. -/
def appendNext (d : Database) (id : Nat) (proof : StoredProof DateTime) (r : Rows) : Outcome :=
  match r.latestProof with
  | none =>
    if proof.version ≠ 1 then (.error (.value "first_proof_version_must_be_one"), r)
    else insertProof d id proof r
  | some latest =>
    if proof.version = latest.version then
      match storedProof d latest r.order.snapshot.orderReference none none true with
      | .error e => (.error e, r)
      | .ok stored =>
        if stored = instants proof then (.ok (), r)
        else (.error (.value "proof_version_conflict"), r)
    else if proof.version ≠ latest.version + 1 then
      (.error (.value "proof_version_must_append"), r)
    else if latest.targetDigest ≠ proof.targetDigest then
      (.error (.value "proof_target_is_immutable"), r)
    else insertProof d id proof r

/-- The body of the transaction. -/
def appendBody (d : Database) (id : Nat) (proof : StoredProof DateTime) (r : Rows) : Outcome :=
  if r.order.snapshot.orderReference ≠ proof.orderReference then
    (.error (.value "proof_order_not_found"), r)
  else if r.order.snapshot.manifestDigest ≠ proof.targetDigest then
    (.error (.value "proof_target_does_not_match_order"), r)
  else
    match mergeCalendarTime r.order (some proof.calendarSubmittedAt.utc) with
    | .error e => (.error e, r)
    | .ok order => appendNext d id proof { r with order := order }

/-- `append`; `id` is the identifier drawn for a new row. -/
def append (d : Database) (id : Nat) (proof : StoredProof DateTime) (r : Rows) : Outcome :=
  if ¬(1 ≤ proof.proofByteLength ∧ proof.proofByteLength ≤ maxProofBytes) then
    (.error (.value "proof_size_invalid"), r)
  else transaction (appendBody d id proof) r

theorem insertVerification_ok {d : Database} {version : Nat} {e : Evidence DateTime}
    {r r' : Rows} (done : insertVerification d version e r = (.ok (), r')) :
    r'.order = r.order ∧ r'.proofs = r.proofs ∧
      ∀ v ∈ r'.verifications, v ∈ r.verifications ∨ ∀ o, ValidEvidence (verificationOf v o) := by
  cases invalid : verificationError e with
  | some code => simp [insertVerification, invalid] at done
  | none =>
    simp only [insertVerification, invalid] at done
    split at done
    · cases done
      refine ⟨rfl, rfl, fun v member => ?_⟩
      rcases List.mem_append.1 member with old | added
      · exact Or.inl old
      · cases List.mem_singleton.1 added
        exact Or.inr fun _ => invalid
    · simp at done

/-- One row is added, and whatever verification is added with it was checked. -/
theorem insertProof_ok {d : Database} {id : Nat} {proof : StoredProof DateTime} {r r' : Rows}
    (done : insertProof d id proof r = (.ok (), r')) :
    ∃ metadata, metadataOf proof.verification = .ok metadata ∧
      proofFits d (newRow id proof metadata) r ∧ r'.order = r.order ∧
      r'.proofs = r.proofs ++ [newRow id proof metadata] ∧
      ∀ v ∈ r'.verifications, v ∈ r.verifications ∨ ∀ o, ValidEvidence (verificationOf v o) := by
  cases encoded : metadataOf proof.verification with
  | error e => simp [insertProof, encoded] at done
  | ok metadata =>
    simp only [insertProof, encoded] at done
    split at done
    · next fits =>
      refine ⟨metadata, rfl, fits, ?_⟩
      cases shown : proof.verification with
      | none =>
        simp only [shown] at done
        cases done
        exact ⟨rfl, rfl, fun v member => Or.inl member⟩
      | some e =>
        simp only [shown] at done
        obtain ⟨order, proofs, verifications⟩ := insertVerification_ok done
        exact ⟨order, proofs, verifications⟩
    · simp at done

theorem appendNext_ok {d : Database} {id : Nat} {proof : StoredProof DateTime} {r r' : Rows}
    (done : appendNext d id proof r = (.ok (), r')) :
    (r' = r ∧ ∃ latest, r.latestProof = some latest ∧
        storedProof d latest r.order.snapshot.orderReference none none true =
          .ok (instants proof)) ∨
      (insertProof d id proof r = (.ok (), r') ∧
        ((r.latestProof = none ∧ proof.version = 1) ∨
          ∃ latest, r.latestProof = some latest ∧ proof.version = latest.version + 1)) := by
  cases found : r.latestProof with
  | none =>
    simp only [appendNext, found] at done
    split at done
    · simp at done
    · next first => exact Or.inr ⟨done, Or.inl ⟨rfl, not_not.1 first⟩⟩
  | some latest =>
    simp only [appendNext, found] at done
    split at done
    · cases read : storedProof d latest r.order.snapshot.orderReference none none true with
      | error e => simp [read] at done
      | ok stored =>
        simp only [read] at done
        split at done
        · next same =>
          cases done
          exact Or.inl ⟨rfl, latest, rfl, same ▸ read⟩
        · simp at done
    · split at done
      · simp at done
      · next following =>
        split at done
        · simp at done
        · exact Or.inr ⟨done, Or.inr ⟨latest, rfl, not_not.1 following⟩⟩

theorem appendBody_ok {d : Database} {id : Nat} {proof : StoredProof DateTime} {r r' : Rows}
    (done : appendBody d id proof r = (.ok (), r')) :
    r.order.snapshot.orderReference = proof.orderReference ∧
      r.order.snapshot.manifestDigest = proof.targetDigest ∧
      ∃ order, mergeCalendarTime r.order (some proof.calendarSubmittedAt.utc) = .ok order ∧
        appendNext d id proof { r with order := order } = (.ok (), r') := by
  unfold appendBody at done
  split at done
  · simp at done
  · next reference =>
    split at done
    · simp at done
    · next digest =>
      cases merged : mergeCalendarTime r.order (some proof.calendarSubmittedAt.utc) with
      | error e => simp [merged] at done
      | ok order =>
        simp only [merged] at done
        exact ⟨not_not.1 reference, not_not.1 digest, order, rfl, done⟩

/-- An append is refused and changes nothing, or its body went through. -/
theorem append_cases (d : Database) (id : Nat) (proof : StoredProof DateTime) (r : Rows) :
    (∃ e, append d id proof r = (.error e, r)) ∨
      ∃ r', append d id proof r = (.ok (), r') ∧ appendBody d id proof r = (.ok (), r') := by
  unfold append
  split
  · exact Or.inl ⟨_, rfl⟩
  · unfold transaction
    split
    · next written body => exact Or.inr ⟨written, rfl, body⟩
    · next e _ _ => exact Or.inl ⟨e, rfl⟩

/-! ## Runs -/

/-- What another transaction leaves of the rows of an order: the columns of its snapshot, a
submission time once it is set, and the versions. A verification is checked before it is
stored. -/
structure Others (r r' : Rows) : Prop where
  snapshot : r'.order.snapshot = r.order.snapshot
  calendar : ∀ time, r.order.calendarSubmittedAt = some time →
    r'.order.calendarSubmittedAt = some time
  proofs : r'.proofs = r.proofs
  verifications : ∀ v ∈ r'.verifications,
    v ∈ r.verifications ∨ ∀ o, ValidEvidence (verificationOf v o)

/-- The proofs that were appended, the last one at the end. -/
def recorded (past : List (StoredProof DateTime)) (proof : StoredProof DateTime)
    (r r' : Rows) : List (StoredProof DateTime) :=
  if r'.proofs = r.proofs then past else past ++ [proof]

/-- Rows that some sequence of attempts, with other transactions between them, leads to. -/
inductive Reached (d : Database) (order : Order) : List (StoredProof DateTime) → Rows → Prop
  | created : Reached d order [] ⟨order, [], [], []⟩
  | attempt {past : List (StoredProof DateTime)} {r : Rows} (id : Nat)
      (proof : StoredProof DateTime) (valid : proof.Valid d.sha256)
      (before : Reached d order past r) :
      Reached d order (recorded past proof r (append d id proof r).2) (append d id proof r).2
  | others {past : List (StoredProof DateTime)} {r r' : Rows} (before : Reached d order past r)
      (step : Others r r') : Reached d order past r'

/-- A row is what was written for a proof that belongs to the order. -/
structure Holds (d : Database) (order : Order) (proof : StoredProof DateTime)
    (row : ProofRow) : Prop where
  valid : proof.Valid d.sha256
  reference : order.snapshot.orderReference = proof.orderReference
  digest : order.snapshot.manifestDigest = proof.targetDigest
  calendar : order.calendarSubmittedAt = some proof.calendarSubmittedAt.utc
  written : ∃ metadata, metadataOf proof.verification = .ok metadata ∧
    row = newRow row.id proof metadata

structure Kept (d : Database) (past : List (StoredProof DateTime)) (r : Rows) : Prop where
  holds : List.Forall₂ (Holds d r.order) past r.proofs
  versions : r.proofs.map ProofRow.version = List.range' 1 r.proofs.length
  ids : (r.proofs.map ProofRow.id).Nodup
  checked : ∀ v ∈ r.verifications, ∀ o, ValidEvidence (verificationOf v o)

theorem Holds.later {d : Database} {order order' : Order} {proof : StoredProof DateTime}
    {row : ProofRow} (holds : Holds d order proof row) (snapshot : order'.snapshot = order.snapshot)
    (calendar : ∀ time, order.calendarSubmittedAt = some time →
      order'.calendarSubmittedAt = some time) : Holds d order' proof row where
  valid := holds.valid
  reference := by rw [snapshot, holds.reference]
  digest := by rw [snapshot, holds.digest]
  calendar := calendar _ holds.calendar
  written := holds.written

theorem merged_calendar {order order' : Order} {time : Instant}
    (merged : mergeCalendarTime order (some time) = .ok order') :
    order'.snapshot = order.snapshot ∧ order'.calendarSubmittedAt = some time ∧
      ∀ set, order.calendarSubmittedAt = some set → order'.calendarSubmittedAt = some set := by
  obtain ⟨rfl, same⟩ := mergeCalendarTime_ok merged
  cases known : order.calendarSubmittedAt with
  | none => simp
  | some set =>
    have equal := same set known
    simp_all

/-- The rows come in the order of their versions, so the highest one is the last. -/
theorem latest_last {r : Rows}
    (versions : r.proofs.map ProofRow.version = List.range' 1 r.proofs.length) :
    r.latestProof = r.proofs.getLast? := by
  unfold Rows.latestProof
  cases shape : r.proofs using List.reverseRecOn with
  | nil => rfl
  | append_singleton init last _ =>
    rw [shape, List.map_append, List.length_append, List.length_singleton,
      List.range'_concat] at versions
    obtain ⟨front, back⟩ := List.append_inj' versions rfl
    have own : last.version = 1 + init.length := by simpa using back
    rw [List.argmax_concat, List.getLast?_concat]
    cases best : List.argmax ProofRow.version init with
    | none => rfl
    | some row =>
      have member : row.version ∈ List.range' 1 init.length :=
        front ▸ List.mem_map_of_mem (List.argmax_mem best)
      have bound := List.mem_range'_1.1 member
      exact if_pos (by omega)

/-! ## What is read of a version -/

theorem checkStored_valid {d : Database} {proof : StoredProof T} (valid : proof.Valid d.sha256) :
    checkStored d proof = .ok proof := by
  have checked : proof.verification.bind verificationError = none := by
    cases shown : proof.verification with
    | none => rfl
    | some e => exact valid.verification e shown
  rw [checkStored, if_neg (Nat.not_lt.2 valid.version), if_neg (not_not.2 valid.size),
    if_neg (not_not.2 valid.checksum), checked]

section Shown
variable {d : Database} {order : Order} {proof : StoredProof DateTime} {row : ProofRow}
  {separate : Option ProofVerification} {observation : Option Observation}

theorem stored_shown (holds : Holds d order proof row) {project : Bool}
    {v : Option (Evidence Instant)}
    (shown : storedVerification row separate observation project = .ok v)
    (checked : ∀ e, v = some e → ValidEvidence e) :
    storedProof d row order.snapshot.orderReference separate observation project =
      .ok { instants proof with verification := v } := by
  obtain ⟨metadata, -, same⟩ := holds.written
  have length : row.proofByteLength = row.proofBytes.length := by
    rw [same]
    rfl
  have read : (⟨order.snapshot.orderReference, row.version, row.targetDigest, row.proofBytes,
      row.proofSha256, row.calendarSubmittedAt, v⟩ : StoredProof Instant) =
        { instants proof with verification := v } := by
    rw [same, holds.reference]
    rfl
  have valid : ({ instants proof with verification := v } : StoredProof Instant).Valid d.sha256 :=
    ⟨holds.valid.version, holds.valid.size, holds.valid.checksum, checked⟩
  rw [storedProof, shown]
  simp only
  rw [if_neg (not_not.2 length), read, checkStored_valid valid]

/-- Without a separate row and its observation, the payload is read. -/
theorem payload_shown (holds : Holds d order proof row)
    (absent : separate.bind (fun _ => observation) = none) :
    storedVerification row separate observation true = .ok (instants proof).verification := by
  have payload : storedVerification row separate observation true =
      storedVerification row none none true := by
    cases separate with
    | none => rfl
    | some v =>
      cases observation with
      | none => rfl
      | some o => simp at absent
  obtain ⟨metadata, encoded, same⟩ := holds.written
  rw [payload, same]
  cases shown : proof.verification with
  | none =>
    rw [shown] at encoded
    cases encoded
    simp [storedVerification, newRow, instants, shown]
  | some e =>
    rw [shown] at encoded
    cases written : verificationPayload e with
    | error code => simp [metadataOf, written] at encoded
    | ok text =>
      simp only [metadataOf, written, Except.ok.injEq] at encoded
      subst encoded
      simp [storedVerification, newRow, payload_read written, instants, shown]

theorem instants_checked (valid : proof.Valid d.sha256) :
    ∀ e, (instants proof).verification = some e → ValidEvidence e := by
  rintro _ shown
  obtain ⟨e, own, rfl⟩ := Option.map_eq_some_iff.1 shown
  exact valid.verification e own

theorem stored_again (holds : Holds d order proof row) :
    storedProof d row order.snapshot.orderReference none none true = .ok (instants proof) :=
  stored_shown holds (payload_shown holds rfl) (instants_checked holds.valid)

/-- Whatever is there beside the version, a checked verification or none is shown. -/
theorem shown_checked (holds : Holds d order proof row) (project : Bool)
    (checked : ∀ v, separate = some v → ∀ o, ValidEvidence (verificationOf v o)) :
    ∃ v, storedVerification row separate observation project = .ok v ∧
      ∀ e, v = some e → ValidEvidence e := by
  cases project with
  | false => exact ⟨none, rfl, fun _ none => by cases none⟩
  | true =>
    cases both : separate.bind (fun _ => observation) with
    | none => exact ⟨_, payload_shown holds both, instants_checked holds.valid⟩
    | some o =>
      obtain ⟨v, rfl, rfl⟩ := Option.bind_eq_some_iff.1 both
      refine ⟨_, rfl, ?_⟩
      rintro _ ⟨⟩
      exact checked v rfl o

end Shown

/-! ## Every run -/

section Kept
variable {d : Database} {order : Order} {past : List (StoredProof DateTime)} {r : Rows}

theorem Kept.last (kept : Kept d past r) {proof : StoredProof DateTime}
    (last : past.getLast? = some proof) :
    ∃ row, r.latestProof = some row ∧ row ∈ r.proofs ∧ Holds d r.order proof row := by
  rw [latest_last kept.versions]
  have reversed := List.rel_reverse kept.holds
  rw [List.getLast?_eq_head?_reverse] at last
  obtain ⟨older, newest⟩ := List.head?_eq_some_iff.1 last
  rw [newest, List.forall₂_cons_left_iff] at reversed
  obtain ⟨row, rows, holds, -, rest⟩ := reversed
  have found : r.proofs.getLast? = some row := by
    rw [List.getLast?_eq_head?_reverse, rest, List.head?_cons]
  exact ⟨row, found, List.mem_of_getLast? found, holds⟩

theorem Kept.others {r' : Rows} (kept : Kept d past r) (step : Others r r') : Kept d past r' where
  holds := by
    rw [step.proofs]
    exact kept.holds.imp fun _ _ holds => holds.later step.snapshot step.calendar
  versions := by rw [step.proofs, kept.versions]
  ids := by rw [step.proofs]; exact kept.ids
  checked := fun v member => (step.verifications v member).elim (kept.checked v) id

theorem Kept.next (kept : Kept d past r) {proof : StoredProof DateTime}
    (next : (r.latestProof = none ∧ proof.version = 1) ∨
      ∃ latest, r.latestProof = some latest ∧ proof.version = latest.version + 1) :
    proof.version = 1 + r.proofs.length := by
  rw [latest_last kept.versions] at next
  have versions := kept.versions
  cases shape : r.proofs using List.reverseRecOn with
  | nil => simpa [shape] using next
  | append_singleton init last _ =>
    rw [shape, List.map_append, List.length_append, List.length_singleton,
      List.range'_concat] at versions
    obtain ⟨-, back⟩ := List.append_inj' versions rfl
    have own : last.version = 1 + init.length := by simpa using back
    have following : proof.version = last.version + 1 := by simpa [shape] using next
    rw [following, own, List.length_append, List.length_singleton]
    omega

theorem Kept.append (kept : Kept d past r) (id : Nat) {proof : StoredProof DateTime}
    (valid : proof.Valid d.sha256) :
    Kept d (recorded past proof r (append d id proof r).2) (append d id proof r).2 := by
  rcases append_cases d id proof r with ⟨e, refused⟩ | ⟨r', accepted, body⟩
  · rw [refused, recorded, if_pos rfl]
    exact kept
  · obtain ⟨reference, digest, order, merged, next⟩ := appendBody_ok body
    obtain ⟨snapshot, calendar, still⟩ := merged_calendar merged
    have touched : Kept d past { r with order := order } :=
      kept.others ⟨snapshot, still, rfl, fun v member => Or.inl member⟩
    rw [accepted]
    rcases appendNext_ok next with ⟨rfl, -⟩ | ⟨inserted, following⟩
    · rw [recorded, if_pos rfl]
      exact touched
    · obtain ⟨metadata, encoded, fits, sameOrder, rows, verifications⟩ := insertProof_ok inserted
      have longer : r'.proofs ≠ r.proofs := by
        rw [rows]
        simp
      have version := touched.next following
      simp only [recorded, if_neg longer]
      refine ⟨?_, ?_, ?_, fun v member => ?_⟩
      · rw [rows, sameOrder]
        refine List.rel_append touched.holds
          (.cons ⟨valid, ?_, ?_, ?_, metadata, encoded, rfl⟩ .nil)
        · rw [snapshot, reference]
        · rw [snapshot, digest]
        · exact calendar
      · rw [rows, List.map_append, List.length_append, List.length_singleton, List.range'_concat,
          touched.versions]
        simp [newRow, version]
      · rw [rows, List.map_append]
        refine List.nodup_append.2 ⟨touched.ids, List.nodup_singleton _, ?_⟩
        rintro _ member _ own rfl
        obtain ⟨row, old, same⟩ := List.mem_map.1 member
        have new : row.id = id := same.trans (List.mem_singleton.1 own)
        simp only [proofFits, Bool.and_eq_true, List.all_eq_true, bne_iff_ne] at fits
        exact (fits.1.1.1.1 row old).1 new
      · exact (verifications v member).elim (touched.checked v) fun checked => checked

end Kept

theorem related_of_mem {α β : Type} {R : α → β → Prop} {left : List α} {right : List β}
    (related : List.Forall₂ R left right) {b : β} (member : b ∈ right) : ∃ a, R a b := by
  induction related with
  | nil => cases member
  | @cons first second _ _ head _ ih =>
    rcases List.mem_cons.1 member with rfl | inside
    · exact ⟨first, head⟩
    · exact ih inside

theorem reached_kept {d : Database} {order : Order} {past : List (StoredProof DateTime)} {r : Rows}
    (reached : Reached d order past r) : Kept d past r := by
  induction reached with
  | created => exact ⟨.nil, rfl, List.nodup_nil, fun _ none => absurd none List.not_mem_nil⟩
  | attempt id proof valid _ ih => exact ih.append id valid
  | others _ step ih => exact ih.others step

/-- Appending again what was appended last finds it there. -/
theorem append_again {d : Database} {past : List (StoredProof DateTime)} {r : Rows}
    (kept : Kept d past r) {last again : StoredProof DateTime}
    (appended : past.getLast? = some last) (same : instants again = instants last) (id : Nat) :
    append d id again r = (.ok (), r) := by
  obtain ⟨row, found, -, holds⟩ := kept.last appended
  obtain ⟨metadata, -, written⟩ := holds.written
  have bytes : again.proofBytes = last.proofBytes :=
    congrArg (fun proof : StoredProof Instant => proof.proofBytes) same
  have reference : again.orderReference = last.orderReference :=
    congrArg (fun proof : StoredProof Instant => proof.orderReference) same
  have digest : again.targetDigest = last.targetDigest :=
    congrArg (fun proof : StoredProof Instant => proof.targetDigest) same
  have time : again.calendarSubmittedAt.utc = last.calendarSubmittedAt.utc :=
    congrArg (fun proof : StoredProof Instant => proof.calendarSubmittedAt) same
  have version : again.version = row.version := by
    rw [written]
    exact congrArg (fun proof : StoredProof Instant => proof.version) same
  have size : 1 ≤ again.proofByteLength ∧ again.proofByteLength ≤ maxProofBytes := by
    rw [StoredProof.proofByteLength, bytes]
    exact holds.valid.size
  have untouched : mergeCalendarTime r.order (some again.calendarSubmittedAt.utc) =
      .ok r.order := by
    simp only [mergeCalendarTime, holds.calendar, time, if_true]
  have next : appendNext d id again r = (.ok (), r) := by
    simp only [appendNext, found, if_pos version, stored_again holds, same, if_true]
  have body : appendBody d id again r = (.ok (), r) := by
    rw [appendBody, if_neg (not_not.2 (holds.reference.trans reference.symm)),
      if_neg (not_not.2 (holds.digest.trans digest.symm)), untouched]
    exact next
  rw [append, if_neg (not_not.2 size), transaction, body]

/-- What is read of the latest version of a run. -/
theorem latest_shown {d : Database} {past : List (StoredProof DateTime)} {r : Rows}
    (kept : Kept d past r) {last : StoredProof DateTime} (appended : past.getLast? = some last) :
    ∃ v, latestForOrder d r = .ok (some { instants last with verification := v }) ∧
      ((r.order.fulfillmentState = .bitcoinVerified ∨ r.order.fulfillmentState = .delivered) →
        (r.verification last.version).bind (fun _ => r.latestObservation last.version) = none →
        v = (instants last).verification) := by
  obtain ⟨row, found, member, holds⟩ := kept.last appended
  obtain ⟨metadata, -, written⟩ := holds.written
  have version : row.version = last.version := by
    rw [written]
    rfl
  have sized : metadataValid row.metadata = true := by
    rw [written]
    simp [metadataValid, ProofRow.metadata, newRow, StoredProof.proofByteLength, holds.valid.size]
  have latest : latestMetadata r = .ok (some row.metadata) := by
    simp only [latestMetadata, found, sized, if_true]
  have chosen : r.proofs.find? (fun other => other.id == row.metadata.id) = some row :=
    UniqueColumns.find_of_mem kept.ids member
  have separateChecked : ∀ v, r.verification row.version = some v →
      ∀ o, ValidEvidence (verificationOf v o) :=
    fun v stored => kept.checked v (List.mem_of_find?_eq_some stored)
  have shown := @shown_checked d r.order last row (r.verification row.version)
    ((r.verification row.version).bind fun _ => r.latestObservation row.version) holds
    (r.order.fulfillmentState == .bitcoinVerified || r.order.fulfillmentState == .delivered)
    separateChecked
  obtain ⟨v, shown, checked⟩ := shown
  refine ⟨v, ?_, fun projected absent => ?_⟩
  · simp only [latestForOrder, latest, chosen, ne_eq, not_true_eq_false, if_false,
      stored_shown holds shown checked]
  · have project : (r.order.fulfillmentState == .bitcoinVerified ||
        r.order.fulfillmentState == .delivered) = true := by
      rcases projected with state | state
      · rw [state]
        rfl
      · rw [state]
        rfl
    rw [project, version] at shown
    have alone : (r.verification last.version).bind (fun _ =>
        (r.verification last.version).bind fun _ => r.latestObservation last.version) = none := by
      rw [absent]
      cases r.verification last.version with
      | none => rfl
      | some => rfl
    exact Except.ok.inj (shown.symm.trans (payload_shown holds alone))

/-- After any sequence of attempts the versions count up from one, with the digest and the
submission time of the order; the last proof can be appended again for nothing, a refused
append changes nothing, and what is read is what was appended last. -/
theorem proof_store_keeps {d : Database} {order : Order} {past : List (StoredProof DateTime)}
    {r : Rows} (reached : Reached d order past r) :
    r.proofs.map ProofRow.version = List.range' 1 r.proofs.length ∧
      (∀ row ∈ r.proofs, row.targetDigest = r.order.snapshot.manifestDigest ∧
        r.order.calendarSubmittedAt = some row.calendarSubmittedAt) ∧
      (∀ last again id, past.getLast? = some last → instants again = instants last →
        append d id again r = (.ok (), r)) ∧
      (∀ id proof e r', append d id proof r = (.error e, r') → r' = r) ∧
      (∀ e payload, verificationPayload e = .ok payload →
        verificationFromPayload payload = .ok e) ∧
      ∀ last, past.getLast? = some last → ∃ stored, latestForOrder d r = .ok (some stored) ∧
        stored.proofBytes = last.proofBytes ∧ stored.version = last.version ∧
        stored.targetDigest = last.targetDigest ∧
        stored.calendarSubmittedAt = last.calendarSubmittedAt.utc ∧
        ((r.order.fulfillmentState = .bitcoinVerified ∨ r.order.fulfillmentState = .delivered) →
          (r.verification last.version).bind
              (fun _ => r.latestObservation last.version) = none →
          stored.verification = last.verification.map evidenceInstants) := by
  have kept := reached_kept reached
  refine ⟨kept.versions, fun row member => ?_, fun last again id appended same =>
    append_again kept appended same id, fun id proof e r' refused => ?_,
    fun e payload => payload_read, fun last appended => ?_⟩
  · obtain ⟨proof, holds⟩ := related_of_mem kept.holds member
    obtain ⟨metadata, -, written⟩ := holds.written
    refine ⟨?_, ?_⟩
    · rw [written, holds.digest]
      rfl
    · rw [written, holds.calendar]
      rfl
  · rcases append_cases d id proof r with ⟨code, same⟩ | ⟨other, accepted, -⟩
    · rw [same] at refused
      exact (congrArg Prod.snd refused).symm
    · rw [accepted] at refused
      simp at refused
  · obtain ⟨v, shown, decoded⟩ := latest_shown kept appended
    exact ⟨_, shown, rfl, rfl, rfl, rfl, decoded⟩

/-! ## A verified proof follows a pending one -/

open Receipts (sampleEvidence sampleOrderReference wholeSecond)
open VerifiedOrders (sampleOrder sampleDigest sampleSha256 stampedBytes upgradedBytes)

def sampleDatabase : Database := ⟨sampleSha256, fun _ => true, fun _ => true⟩

def pendingOrder : Order := { sampleOrder with fulfillmentState := .calendarPending }

def pendingProof : StoredProof DateTime :=
  ⟨pendingOrder.snapshot.orderReference, 1, sampleDigest, stampedBytes,
    sampleSha256 stampedBytes, wholeSecond, none⟩

def verifiedProof (version : Nat) : StoredProof DateTime :=
  ⟨pendingOrder.snapshot.orderReference, version, sampleDigest, upgradedBytes,
    sampleSha256 upgradedBytes, wholeSecond, some sampleEvidence⟩

theorem pendingProof_valid : pendingProof.Valid sampleDatabase.sha256 := by
  refine ⟨Nat.le_refl 1, ?_, rfl, ?_⟩
  · show 1 ≤ stampedBytes.length ∧ stampedBytes.length ≤ maxProofBytes
    decide +kernel
  · rintro _ ⟨⟩

theorem verifiedProof_valid {version : Nat} (positive : 1 ≤ version) :
    (verifiedProof version).Valid sampleDatabase.sha256 := by
  refine ⟨positive, ?_, rfl, ?_⟩
  · show 1 ≤ upgradedBytes.length ∧ upgradedBytes.length ≤ maxProofBytes
    decide +kernel
  · rintro _ ⟨⟩
    show verificationError sampleEvidence = none
    decide +kernel

def pendingRows : Rows := (append sampleDatabase 7 pendingProof ⟨pendingOrder, [], [], []⟩).2

/-- A version is left out. -/
def refusedRows : Rows := (append sampleDatabase 8 (verifiedProof 3) pendingRows).2

def appendedRows : Rows := (append sampleDatabase 9 (verifiedProof 2) refusedRows).2

/-- The order is verified afterwards. -/
def verifiedRows : Rows :=
  { appendedRows with order := { appendedRows.order with fulfillmentState := .bitcoinVerified } }

theorem others_of_state (r : Rows) (state : FulfillmentState) :
    Others r { r with order := { r.order with fulfillmentState := state } } :=
  ⟨rfl, fun _ => id, rfl, fun _ => Or.inl⟩

theorem verifiedRows_reached :
    Reached sampleDatabase pendingOrder [pendingProof, verifiedProof 2] verifiedRows := by
  have first : recorded [] pendingProof ⟨pendingOrder, [], [], []⟩ pendingRows = [pendingProof] :=
    if_neg (by decide +kernel)
  have refused : recorded [pendingProof] (verifiedProof 3) pendingRows refusedRows =
      [pendingProof] := if_pos (by decide +kernel)
  have second : recorded [pendingProof] (verifiedProof 2) refusedRows appendedRows =
      [pendingProof, verifiedProof 2] := if_neg (by decide +kernel)
  have pending : Reached sampleDatabase pendingOrder [pendingProof] pendingRows := by
    rw [← first]
    exact .attempt 7 pendingProof pendingProof_valid .created
  have skipped : Reached sampleDatabase pendingOrder [pendingProof] refusedRows := by
    rw [← refused]
    exact .attempt 8 (verifiedProof 3) (verifiedProof_valid (by decide)) pending
  have appended : Reached sampleDatabase pendingOrder [pendingProof, verifiedProof 2]
      appendedRows := by
    rw [← second]
    exact .attempt 9 (verifiedProof 2) (verifiedProof_valid (by decide)) skipped
  exact .others appended (others_of_state appendedRows .bitcoinVerified)

/-- Two versions are stored, and a third that leaves one out is refused; the second is appended
again for nothing and read with its verification. -/
theorem proof_store_keeps_second :
    verifiedRows.proofs.map ProofRow.version = [1, 2] ∧
      append sampleDatabase 8 (verifiedProof 4) verifiedRows =
        (.error (.value "proof_version_must_append"), verifiedRows) ∧
      append sampleDatabase 10 (verifiedProof 2) verifiedRows = (.ok (), verifiedRows) ∧
      ∃ stored, latestForOrder sampleDatabase verifiedRows = .ok (some stored) ∧
        stored.version = 2 ∧ stored.verification = some (evidenceInstants sampleEvidence) := by
  obtain ⟨versions, -, again, refuses, -, latest⟩ := proof_store_keeps verifiedRows_reached
  have repeated := again (verifiedProof 2) (verifiedProof 2) 10 rfl rfl
  have two : verifiedRows.proofs.length = 2 := by decide +kernel
  have refused : (append sampleDatabase 8 (verifiedProof 4) verifiedRows).1 =
      .error (.value "proof_version_must_append") := by decide +kernel
  have outcome : append sampleDatabase 8 (verifiedProof 4) verifiedRows =
      (.error (.value "proof_version_must_append"),
        (append sampleDatabase 8 (verifiedProof 4) verifiedRows).2) := by rw [← refused]
  have state : verifiedRows.order.fulfillmentState = .bitcoinVerified := by rw [verifiedRows]
  obtain ⟨stored, shown, -, version, -, -, decoded⟩ := latest (verifiedProof 2) rfl
  refine ⟨by rw [versions, two]; rfl, ?_, repeated,
    stored, shown, version, decoded (Or.inl state) (by decide +kernel)⟩
  exact outcome.trans (congrArg _ (refuses 8 (verifiedProof 4) _ _ outcome))

end ProofStore
