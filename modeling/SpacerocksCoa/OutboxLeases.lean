import Mathlib.Data.List.MinMax
import Mathlib.Data.Prod.Lex
import SpacerocksCoa.HexText
import SpacerocksCoa.NotificationAdapters

/-!
# Claiming, sending and recording of outbox messages

The outbox table with its attempts, for the messages of any number of orders: the claim of
a sender, with the expiry of rows that can no longer be claimed in the same transaction,
and the three ways of recording an outcome. Senders hold what a claim returned and may
come back with any of it at any time, or never. A transaction skips the rows that another
one has locked; which rows these are is an argument of the claim.

The clock only moves forward. The instant that a sender passes when it records is its own:
the dispatcher passes the one it claimed with.
-/
namespace OutboxLeases
open OrderStates ProofRecords OrderRows FulfillmentAdapters NotificationAdapters

structure Outbox where
  rows : List OutboxRecord
  attempts : List NotificationAttempt
  deriving DecidableEq

def Outbox.row (o : Outbox) (id : Nat) : Option OutboxRecord :=
  o.rows.find? fun m => m.id == id

def Outbox.modifyRow (o : Outbox) (id : Nat) (f : OutboxRecord → OutboxRecord) : Outbox :=
  { o with rows := o.rows.map fun m => if m.id = id then f m else m }

/-! ## Which rows a claim looks at -/

def second : Int := 1000000

def supported (m : OutboxRecord) : Bool :=
  match m.kind with
  | .notification _ => true
  | .paymentConfirmed => false

/-- The idempotency window of the provider is over, or the attempts are used up. -/
def exhausted (now : Instant) (m : OutboxRecord) : Bool :=
  decide (m.idempotencyExpiresAt ≤ now) || decide (m.maxAttempts ≤ m.attemptCount)

def leaseExpired (now : Instant) (m : OutboxRecord) : Bool :=
  m.state == .leased && m.leaseUntil.any fun until_ => decide (until_ < now)

def waiting (m : OutboxRecord) : Bool := m.state == .available || m.state == .retry

def expirable (now : Instant) (m : OutboxRecord) : Bool :=
  supported m && ((waiting m && exhausted now m) || (leaseExpired now m && exhausted now m)) &&
    m.providerMessageId.isNone

def claimable (now : Instant) (m : OutboxRecord) : Bool :=
  (waiting m || leaseExpired now m) && decide (m.availableAt ≤ now) &&
    m.providerMessageId.isNone && supported m && m.confirmationObservationId.isSome &&
    decide (now < m.idempotencyExpiresAt) && decide (m.attemptCount < m.maxAttempts)

/-- The order in which claimable rows are looked at. -/
def claimOrder (m : OutboxRecord) : Int ×ₗ Int ×ₗ Nat :=
  toLex (m.availableAt, toLex (m.createdAt, m.id))

/-! ## Expiry -/

def unfinished (id : Nat) (a : NotificationAttempt) : Bool :=
  a.outboxId == id && a.finishedAt.isNone

/-- `_finish_attempt`. -/
def finishAttempt (now : Instant) (outcome : AttemptOutcome) (responseStatus : Option Nat)
    (providerMessageId safeErrorCode : Option String) (a : NotificationAttempt) :
    NotificationAttempt :=
  { a with
    finishedAt := some now
    outcome := some outcome
    responseStatus := responseStatus
    providerMessageId := providerMessageId
    safeErrorCode := safeErrorCode }

def releaseRow (m : OutboxRecord) : OutboxRecord :=
  { m with leaseOwner := none, leaseUntil := none, leaseToken := none }

def deadLetterRow (m : OutboxRecord) : OutboxRecord :=
  { releaseRow m with
    state := .deadLetter
    safeErrorCode := some "idempotency_horizon_exhausted" }

/-- The rows one expiry takes: at most a hundred that no other transaction has locked. -/
def expiring (locked : List Nat) (now : Instant) (o : Outbox) : List OutboxRecord :=
  (o.rows.filter fun m => expirable now m && !locked.contains m.id).take 100

/-- `_expire_unclaimable`; of a leased row the unfinished attempt is finished, too. -/
def expireUnclaimable (locked : List Nat) (now : Instant) (o : Outbox) : Outbox where
  rows := o.rows.map fun m =>
    if (expiring locked now o).any (fun e => e.id == m.id) then deadLetterRow m else m
  attempts := o.attempts.map fun a =>
    if (expiring locked now o).any (fun e => e.state == .leased && unfinished e.id a) then
      finishAttempt now .deadLetter none none (some "idempotency_horizon_exhausted") a
    else a

/-! ## The claim -/

/-- What a sender gets; the provider sees the idempotency key. -/
structure Claimed extends ClaimedNotification where
  messageKey : OutboxKey
  kind : OutboxKind
  recipient : String
  orderReference : OrderReference
  proofVersion : Nat
  confirmationCount : Nat
  leaseUntil : Instant
  idempotencyKey : String
  deriving DecidableEq

def OutboxKey.text : OutboxKey → String
  | .milestone key => key.text
  | .paymentConfirmed order => "payment_confirmed:" ++ toString order

def idempotencyKey (sha256 : Bytes → Sha256) (key : OutboxKey) : String :=
  "resend-" ++ String.ofList (HexText.toHex (sha256 (asciiBytes (OutboxKey.text key))).value)

def leaseRow (workerId : String) (leaseUntil : Instant) (token : Nat) (m : OutboxRecord) :
    OutboxRecord :=
  { m with
    state := .leased
    attemptCount := m.attemptCount + 1
    leaseOwner := some workerId
    leaseUntil := some leaseUntil
    leaseToken := some token
    safeErrorCode := none }

def newAttempt (m : OutboxRecord) (workerId : String) (token : Nat) (now : Instant) :
    NotificationAttempt :=
  ⟨m.id, m.attemptCount + 1, workerId, token, now, none, none, none, none, none⟩

/-- The attempt of a lease that ran out is closed by the next claim. -/
def leaseExpiredAttempt (now : Instant) (a : NotificationAttempt) : NotificationAttempt :=
  { a with
    finishedAt := some now
    outcome := some .leaseExpired
    safeErrorCode := some "lease_expired" }

def takeLease (m : OutboxRecord) (workerId : String) (now leaseUntil : Instant) (token : Nat)
    (o : Outbox) : Outbox where
  rows := (o.modifyRow m.id (leaseRow workerId leaseUntil token)).rows
  attempts := (o.attempts.map fun a =>
    if unfinished m.id a then leaseExpiredAttempt now a else a) ++ [newAttempt m workerId token now]

/-- `_claimed`; rows without a milestone cannot be sent. -/
def claimed (sha256 : Bytes → Sha256) (m : OutboxRecord) (workerId : String) (token : Nat)
    (leaseUntil : Instant) : Except AdapterError Claimed :=
  match m.proofVersion, m.confirmationCount with
  | some version, some count =>
    .ok ⟨⟨m.id, m.attemptCount + 1, workerId, token⟩, m.messageKey, m.kind, m.recipient,
      m.payload.orderReference, version, count, leaseUntil, idempotencyKey sha256 m.messageKey⟩
  | _, _ => .error (.value "stored_notification_milestone_missing")

def selectClaimable (locked : List Nat) (now : Instant) (o : Outbox) : Option OutboxRecord :=
  List.argmin claimOrder (o.rows.filter fun m => claimable now m && !locked.contains m.id)

def claim (sha256 : Bytes → Sha256) (workerId : String) (now leaseFor : Int) (token : Nat)
    (locked : List Nat) (o : Outbox) : Except AdapterError (Option Claimed × Outbox) :=
  if ¬(1 ≤ workerId.length ∧ workerId.length ≤ 128) then
    .error (.value "notification_claim_invalid")
  else if ¬(second ≤ leaseFor ∧ leaseFor ≤ 3600 * second) then
    .error (.value "notification_lease_duration_invalid")
  else
    match selectClaimable locked now (expireUnclaimable locked now o) with
    | none => .ok (none, expireUnclaimable locked now o)
    | some m =>
      match claimed sha256 m workerId token (now + leaseFor) with
      | .error e => .error e
      | .ok result =>
        .ok (some result,
          takeLease m workerId now (now + leaseFor) token (expireUnclaimable locked now o))

/-! ## Recording an outcome -/

/-- `_SAFE_ERROR_CODE`: one to 64 lower case letters, digits and underscores. -/
def safeErrorCode (code : String) : Bool :=
  decide (1 ≤ code.length) && decide (code.length ≤ 64) &&
    code.toList.all fun c => ('a' ≤ c && c ≤ 'z') || ('0' ≤ c && c ≤ '9') || c == '_'

def statusValid (status : Option Nat) : Bool :=
  status.all fun s => decide (100 ≤ s) && decide (s ≤ 599)

/-- The row of a lease whose token and attempt number are still the current ones. -/
def activeLease (message : ClaimedNotification) (now : Instant) (o : Outbox) :
    Except AdapterError OutboxRecord :=
  match o.row message.id with
  | none => .error (.value "notification_lease_stale")
  | some record =>
    if record.state ≠ .leased ∨ record.leaseOwner ≠ some message.leaseOwner ∨
        record.leaseToken ≠ some message.leaseToken ∨ record.attemptCount ≠ message.attempt ∨
        record.leaseUntil.all (fun until_ => decide (until_ < now)) ∨
        record.providerMessageId.isSome then
      .error (.value "notification_lease_stale")
    else if o.attempts.any (openAttempt message) = false then
      .error (.value "notification_attempt_missing")
    else .ok record

/-- The row and the attempt of a lease at its end. -/
def finishLease (message : ClaimedNotification) (onRow : OutboxRecord → OutboxRecord)
    (onAttempt : NotificationAttempt → NotificationAttempt) (o : Outbox) : Outbox where
  rows := (o.modifyRow message.id onRow).rows
  attempts := o.attempts.map fun a => if openAttempt message a then onAttempt a else a

def retryRow (exhausted : Bool) (retryAt : Instant) (code : String) (m : OutboxRecord) :
    OutboxRecord :=
  { releaseRow m with
    state := if exhausted then .deadLetter else .retry
    availableAt := retryAt
    safeErrorCode := some code }

def recordRetry (message : ClaimedNotification) (now retryAt : Instant) (code : String)
    (responseStatus : Option Nat) (o : Outbox) : Except AdapterError Outbox :=
  if safeErrorCode code = false then .error (.value "notification_safe_error_code_invalid")
  else if statusValid responseStatus = false then
    .error (.value "notification_response_status_invalid")
  else if retryAt ≤ now then .error (.value "notification_retry_time_invalid")
  else
    match activeLease message now o with
    | .error e => .error e
    | .ok record =>
      let over_ := exhausted retryAt record
      .ok (finishLease message (retryRow over_ retryAt code)
        (finishAttempt now (if over_ then .deadLetter else .retry) responseStatus none (some code))
        o)

def failRow (code : String) (m : OutboxRecord) : OutboxRecord :=
  { releaseRow m with state := .failed, safeErrorCode := some code }

def recordTerminalFailure (message : ClaimedNotification) (now : Instant) (code : String)
    (responseStatus : Option Nat) (o : Outbox) : Except AdapterError Outbox :=
  if safeErrorCode code = false then .error (.value "notification_safe_error_code_invalid")
  else if statusValid responseStatus = false then
    .error (.value "notification_response_status_invalid")
  else
    match activeLease message now o with
    | .error e => .error e
    | .ok _ =>
      .ok (finishLease message (failRow code)
        (finishAttempt now .failed responseStatus none (some code)) o)

def deliverRow (deliveredAt : Instant) (m : OutboxRecord) : OutboxRecord :=
  { m with state := .delivered, deliveredAt := some deliveredAt, safeErrorCode := none }

/-- The acceptance of a message. When the evidence lets a delivered event that is stored
already take effect in the same transaction, `noticed` is its instant. -/
def recordAccepted (message : ClaimedNotification) (acceptance : ProviderAcceptance)
    (now : Instant) (noticed : Option Instant) (o : Outbox) : Except AdapterError Outbox :=
  if acceptance.responseStatus ≠ 200 ∨ safeProviderId acceptance.messageId = false then
    .error (.value "notification_provider_acceptance_invalid")
  else
    match activeLease message now o with
    | .error e => .error e
    | .ok _ =>
      if o.rows.any (fun m => m.providerMessageId == some acceptance.messageId) then
        .error .database
      else
        let accepted := finishLease message (markAccepted acceptance.messageId now)
          (finishAttempt now .accepted (some acceptance.responseStatus)
            (some acceptance.messageId) none) o
        match noticed with
        | none => .ok accepted
        | some deliveredAt => .ok (accepted.modifyRow message.id (deliverRow deliveredAt))

lemma row_some {o : Outbox} {id : Nat} {m : OutboxRecord} (h : o.row id = some m) :
    m ∈ o.rows ∧ m.id = id := by
  unfold Outbox.row at h
  have same := List.find?_some h
  exact ⟨List.mem_of_find?_eq_some h, by simpa using same⟩

lemma activeLease_ok {message : ClaimedNotification} {now : Instant} {o : Outbox}
    {m : OutboxRecord} (h : activeLease message now o = .ok m) :
    m ∈ o.rows ∧ m.id = message.id ∧ m.state = .leased ∧
      m.leaseOwner = some message.leaseOwner ∧ m.leaseToken = some message.leaseToken ∧
      m.attemptCount = message.attempt ∧ m.providerMessageId = none := by
  unfold activeLease at h
  cases found : o.row message.id with
  | none => simp only [found] at h; cases h
  | some record =>
    simp only [found] at h
    split at h
    · cases h
    · next current =>
      split at h
      · cases h
      · cases h
        simp only [not_or, not_not, Bool.not_eq_true, Option.isSome_eq_false_iff,
          Option.isNone_iff_eq_none] at current
        obtain ⟨leased, owner, token, count, -, unsent⟩ := current
        obtain ⟨member, id⟩ := row_some found
        exact ⟨member, id, leased, owner, token, count, unsent⟩

lemma applyDeliveredEvent_outbox {p : Platform} {record : OutboxRecord}
    {event : ResendWebhookEvent} {now : Instant} {r r' : OrderRecord}
    {result : WebhookProcessResult}
    (h : applyDeliveredEvent p record event now r = .ok (result, r')) :
    (r'.outbox = r.outbox ∨
      r'.outbox = (modifyMessage record.id (deliverRow event.eventCreatedAt) r).outbox) ∧
    r'.notificationAttempts = r.notificationAttempts := by
  unfold applyDeliveredEvent at h
  split at h
  · cases h
    exact ⟨Or.inl rfl, rfl⟩
  · split at h
    · cases h
      exact ⟨Or.inr rfl, rfl⟩
    · obtain ⟨-, rfl, -⟩ := guarded_ok h
      exact ⟨Or.inr rfl, rfl⟩

/-- The acceptance of a message of one order is an acceptance in its table. -/
lemma recordAccepted_refines {p : Platform} {message : ClaimedNotification}
    {acceptance : ProviderAcceptance} {now : Instant} {r r' : OrderRecord}
    (h : NotificationAdapters.recordAccepted p message acceptance now r = .ok r') :
    ∃ noticed, recordAccepted message acceptance now noticed ⟨r.outbox, r.notificationAttempts⟩ =
      .ok ⟨r'.outbox, r'.notificationAttempts⟩ := by
  unfold NotificationAdapters.recordAccepted at h
  split at h
  · cases h
  · next valid =>
    split at h
    · cases h
    · next m active =>
      split at h
      · cases h
      · next fresh =>
        have active' : activeLease message now ⟨r.outbox, r.notificationAttempts⟩ = .ok m := active
        have accepted (noticed : Option Instant) :
            recordAccepted message acceptance now noticed ⟨r.outbox, r.notificationAttempts⟩ =
              .ok (match noticed with
                | none => ⟨(finishAccepted message acceptance now r).outbox,
                    (finishAccepted message acceptance now r).notificationAttempts⟩
                | some deliveredAt => (Outbox.mk (finishAccepted message acceptance now r).outbox
                    (finishAccepted message acceptance now r).notificationAttempts).modifyRow
                      message.id (deliverRow deliveredAt)) := by
          unfold recordAccepted
          rw [if_neg valid, active']
          simp only [if_neg fresh]
          cases noticed with
          | none => rfl
          | some deliveredAt => rfl
        simp only at h
        split at h
        · cases h
          exact ⟨none, accepted none⟩
        · next event _ =>
          split at h
          · cases h
          · next result after applied =>
            cases h
            obtain ⟨-, own, -⟩ := activeLease_ok active'
            obtain ⟨same | delivered, attempts⟩ := applyDeliveredEvent_outbox applied
            · rw [same, attempts]
              exact ⟨none, accepted none⟩
            · refine ⟨some event.eventCreatedAt, ?_⟩
              rw [accepted, delivered, attempts]
              change Except.ok (Outbox.modifyRow _ message.id _) = _
              rw [← own]
              rfl

/-! ## Senders over time -/

/-- A claim that was handed out, with the instant of the claim. -/
structure Grant where
  claimed : Claimed
  at_ : Instant
  deriving DecidableEq

/-- The table and the clock, with everything senders ever got and every attempt for which
an outcome was recorded. -/
structure LeaseWorld where
  clock : Instant
  outbox : Outbox
  grants : List Grant
  recorded : List (Nat × Nat)

inductive SenderStep where
  | advance (micros : Nat)
  | enqueue (row : OutboxRecord)
  | claim (workerId : String) (leaseFor : Int) (token : Nat) (locked : List Nat)
  | recordAccepted (message : ClaimedNotification) (acceptance : ProviderAcceptance)
      (now : Instant) (noticed : Option Instant)
  | recordRetry (message : ClaimedNotification) (now retryAt : Instant) (code : String)
      (responseStatus : Option Nat)
  | recordTerminalFailure (message : ClaimedNotification) (now : Instant) (code : String)
      (responseStatus : Option Nat)
  | delivered (providerMessageId : String) (deliveredAt : Instant)
  | rejected (providerMessageId : String) (type : ResendEventType)

/-- A row as `enqueue` inserts it. -/
def enqueuedRow (m : OutboxRecord) : Bool :=
  m.state == .available && m.attemptCount == 0 && m.leaseOwner.isNone && m.leaseUntil.isNone &&
    m.leaseToken.isNone && m.providerMessageId.isNone && m.acceptedAt.isNone &&
    (!supported m || (m.proofVersion.isSome && m.confirmationCount.isSome &&
      m.confirmationObservationId.isSome))

def insertRow (m : OutboxRecord) (o : Outbox) : Outbox :=
  if enqueuedRow m && o.rows.all (fun other => other.id != m.id && other.messageKey != m.messageKey)
  then { o with rows := o.rows ++ [m] }
  else o

/-- What a webhook does to a message that the provider accepted. -/
def onAccepted (providerMessageId : String) (f : OutboxRecord → OutboxRecord) (o : Outbox) :
    Outbox :=
  { o with rows := o.rows.map fun m =>
      if m.providerMessageId = some providerMessageId ∧ m.acceptedAt.isSome then f m else m }

def record (w : LeaseWorld) (message : ClaimedNotification) :
    Except AdapterError Outbox → LeaseWorld
  | .ok o => { w with outbox := o, recorded := w.recorded ++ [(message.id, message.attempt)] }
  | .error _ => w

def claimStep (sha256 : Bytes → Sha256) (w : LeaseWorld) (workerId : String) (leaseFor : Int)
    (token : Nat) (locked : List Nat) : LeaseWorld :=
  match claim sha256 workerId w.clock leaseFor token locked w.outbox with
  | .ok (some c, o) => { w with outbox := o, grants := w.grants ++ [⟨c, w.clock⟩] }
  | .ok (none, o) => { w with outbox := o }
  | .error _ => w

def step (sha256 : Bytes → Sha256) (w : LeaseWorld) : SenderStep → LeaseWorld
  | .advance micros => { w with clock := w.clock + (micros : Int) }
  | .enqueue row => { w with outbox := insertRow row w.outbox }
  | .claim workerId leaseFor token locked => claimStep sha256 w workerId leaseFor token locked
  | .recordAccepted message acceptance now noticed =>
    record w message (recordAccepted message acceptance now noticed w.outbox)
  | .recordRetry message now retryAt code status =>
    record w message (recordRetry message now retryAt code status w.outbox)
  | .recordTerminalFailure message now code status =>
    record w message (recordTerminalFailure message now code status w.outbox)
  | .delivered providerMessageId deliveredAt =>
    { w with outbox := onAccepted providerMessageId (deliverRow deliveredAt) w.outbox }
  | .rejected providerMessageId type =>
    { w with outbox := onAccepted providerMessageId (markFailed type) w.outbox }

def run (sha256 : Bytes → Sha256) (steps : List SenderStep) (w : LeaseWorld) : LeaseWorld :=
  steps.foldl (step sha256) w

/-- Nothing enqueued yet. -/
def emptyOutbox (now : Instant) : LeaseWorld := ⟨now, ⟨[], []⟩, [], []⟩

/-! ## The invariant of one row -/

def openAttempts (o : Outbox) (id : Nat) : List NotificationAttempt :=
  o.attempts.filter (unfinished id)

def grantsOf (w : LeaseWorld) (id : Nat) : List Grant :=
  w.grants.filter fun g => g.claimed.id == id

def recordedOf (w : LeaseWorld) (id : Nat) : List Nat :=
  (w.recorded.filter fun entry => entry.1 == id).map Prod.snd

/-- Neither terminal nor accepted. -/
def pending (m : OutboxRecord) : Bool := waiting m || m.state == .leased

def unaccepted (m : OutboxRecord) : Bool := pending m || m.state == .deadLetter

/-- The lease of the row is the one that was granted. -/
structure Holds (g : Grant) (m : OutboxRecord) : Prop where
  id : g.claimed.id = m.id
  attempt : g.claimed.attempt = m.attemptCount
  owner : m.leaseOwner = some g.claimed.leaseOwner
  token : m.leaseToken = some g.claimed.leaseToken
  until_ : m.leaseUntil = some g.claimed.leaseUntil

/-- The lease has not run out and its sender has not recorded an outcome. -/
def Running (clock : Instant) (recorded : List Nat) (g : Grant) : Prop :=
  clock ≤ g.claimed.leaseUntil ∧ g.claimed.attempt ∉ recorded

/-- What holds of a row, its unfinished attempts, the claims of it that were handed out and
the attempts recorded for it. -/
structure RowKept (sha256 : Bytes → Sha256) (clock : Instant) (m : OutboxRecord)
    (unfinished : List NotificationAttempt) (grants : List Grant) (recorded : List Nat) : Prop where
  count : m.attemptCount ≤ m.maxAttempts
  milestone : supported m = true → m.proofVersion.isSome = true ∧
    m.confirmationCount.isSome = true ∧ m.confirmationObservationId.isSome = true
  unsent : unaccepted m = true → m.providerMessageId = none
  leased : m.state = .leased → m.availableAt ≤ clock ∧ ∃ g ∈ grants, Holds g m ∧
    ∃ a, unfinished = [a] ∧ a.attemptNumber = m.attemptCount ∧
      a.leaseToken = g.claimed.leaseToken
  idle : m.state ≠ .leased → unfinished = []
  granted : ∀ g ∈ grants, g.claimed.id = m.id ∧ g.claimed.attempt ≤ m.attemptCount ∧
    g.claimed.idempotencyKey = idempotencyKey sha256 m.messageKey ∧
    g.at_ < m.idempotencyExpiresAt
  distinct : (grants.map fun g => g.claimed.attempt).Nodup
  live : ∀ g ∈ grants, Running clock recorded g →
    m.state = .leased ∧ g.claimed.attempt = m.attemptCount

/-- The same row under its columns that never change. -/
structure SameMessage (m m' : OutboxRecord) : Prop where
  id : m'.id = m.id
  messageKey : m'.messageKey = m.messageKey
  kind : m'.kind = m.kind
  maxAttempts : m'.maxAttempts = m.maxAttempts
  expires : m'.idempotencyExpiresAt = m.idempotencyExpiresAt
  proofVersion : m'.proofVersion = m.proofVersion
  confirmationCount : m'.confirmationCount = m.confirmationCount
  observation : m'.confirmationObservationId = m.confirmationObservationId

lemma sameMessage_refl (m : OutboxRecord) : SameMessage m m :=
  ⟨rfl, rfl, rfl, rfl, rfl, rfl, rfl, rfl⟩

lemma SameMessage.trans {a b c : OutboxRecord} (first : SameMessage a b)
    (second : SameMessage b c) : SameMessage a c :=
  ⟨second.id.trans first.id, second.messageKey.trans first.messageKey,
    second.kind.trans first.kind, second.maxAttempts.trans first.maxAttempts,
    second.expires.trans first.expires, second.proofVersion.trans first.proofVersion,
    second.confirmationCount.trans first.confirmationCount,
    second.observation.trans first.observation⟩

lemma SameMessage.supported {m m' : OutboxRecord} (same : SameMessage m m') :
    supported m' = supported m := by
  rw [OutboxLeases.supported, OutboxLeases.supported, same.kind]

section
variable {sha256 : Bytes → Sha256} {clock : Instant} {m m' : OutboxRecord}
  {opens : List NotificationAttempt} {grants : List Grant} {recorded : List Nat}

lemma RowKept.later (kept : RowKept sha256 clock m opens grants recorded) {clock' : Instant}
    (after : clock ≤ clock') : RowKept sha256 clock' m opens grants recorded := by
  refine ⟨kept.count, kept.milestone, kept.unsent, fun leased => ?_, kept.idle, kept.granted,
    kept.distinct, fun g member running => ?_⟩
  · obtain ⟨due, held⟩ := kept.leased leased
    exact ⟨Int.le_trans due after, held⟩
  · exact kept.live g member ⟨Int.le_trans after running.1, running.2⟩

/-- The lease of a claimable or expirable row is over. -/
lemma RowKept.not_running (kept : RowKept sha256 clock m opens grants recorded)
    (free : waiting m = true ∨ leaseExpired clock m = true) :
    ∀ g ∈ grants, ¬Running clock recorded g := by
  intro g member running
  obtain ⟨leased, latest⟩ := kept.live g member running
  rcases free with waits | expired
  · simp [waiting, leased] at waits
  · obtain ⟨-, holder, among, holds, -⟩ := kept.leased leased
    have same : holder = g := by
      have injective := List.inj_on_of_nodup_map kept.distinct
      exact injective among member (holds.attempt.trans latest.symm)
    rw [same] at holds
    have ended : g.claimed.leaseUntil < clock := by
      simpa [leaseExpired, leased, holds.until_] using expired
    exact absurd running.1 (not_le.2 ended)

/-- A row that leaves its lease, or never was in one, keeps its history. -/
lemma RowKept.settle (kept : RowKept sha256 clock m opens grants recorded)
    (same : SameMessage m m') (count : m'.attemptCount = m.attemptCount)
    (state : m'.state ≠ .leased) (quietly : unaccepted m' = true → m'.providerMessageId = none)
    {recorded' : List Nat} (quiet : ∀ g ∈ grants, ¬Running clock recorded' g) :
    RowKept sha256 clock m' [] grants recorded' := by
  refine ⟨?_, ?_, quietly, fun leased => absurd leased state, fun _ => rfl, ?_, kept.distinct,
    fun g member running => absurd running (quiet g member)⟩
  · rw [count, same.maxAttempts]
    exact kept.count
  · rw [same.supported, same.proofVersion, same.confirmationCount, same.observation]
    exact kept.milestone
  · intro g member
    rw [same.id, count, same.messageKey, same.expires]
    exact kept.granted g member

lemma RowKept.deadLetter (kept : RowKept sha256 clock m opens grants recorded)
    (able : expirable clock m = true) :
    RowKept sha256 clock (deadLetterRow m) [] grants recorded := by
  have free : waiting m = true ∨ leaseExpired clock m = true := by
    simp only [expirable, Bool.and_eq_true, Bool.or_eq_true] at able
    exact able.1.2.imp And.left And.left
  have none_ : m.providerMessageId = none := by
    simp only [expirable, Bool.and_eq_true] at able
    exact Option.isNone_iff_eq_none.1 able.2
  have same : SameMessage m (deadLetterRow m) := ⟨rfl, rfl, rfl, rfl, rfl, rfl, rfl, rfl⟩
  have state : (deadLetterRow m).state ≠ .leased := OutboxState.noConfusion
  exact kept.settle same rfl state (fun _ => none_) (kept.not_running free)

/-- A claim of a claimable row: the new lease is the only one that runs. -/
lemma RowKept.lease (kept : RowKept sha256 clock m opens grants recorded)
    (able : claimable clock m = true) {workerId : String} {token : Nat} {leaseUntil : Instant}
    {c : Claimed} (result : claimed sha256 m workerId token leaseUntil = .ok c) :
    RowKept sha256 clock (leaseRow workerId leaseUntil token m)
      [newAttempt m workerId token clock] (grants ++ [⟨c, clock⟩]) recorded := by
  simp only [claimable, Bool.and_eq_true, Bool.or_eq_true, decide_eq_true_iff] at able
  obtain ⟨⟨⟨⟨⟨⟨free, due⟩, unsent⟩, isSupported⟩, observed⟩, unexpired⟩, left⟩ := able
  have quiet := kept.not_running free
  obtain ⟨version, count, known, counted, rfl⟩ : ∃ version count, m.proofVersion = some version ∧
      m.confirmationCount = some count ∧
      (⟨⟨m.id, m.attemptCount + 1, workerId, token⟩, m.messageKey, m.kind, m.recipient,
        m.payload.orderReference, version, count, leaseUntil,
        idempotencyKey sha256 m.messageKey⟩ : Claimed) = c := by
    unfold claimed at result
    split at result
    · next version count known counted =>
      cases result
      exact ⟨version, count, known, counted, rfl⟩
    · cases result
  refine ⟨left, kept.milestone, fun _ => Option.isNone_iff_eq_none.1 unsent, fun _ => ⟨due, _,
    List.mem_append_right _ (List.mem_singleton_self _), ⟨rfl, rfl, rfl, rfl, rfl⟩, _, rfl, rfl,
    rfl⟩, fun state => absurd rfl state, ?_, ?_, ?_⟩
  · intro g member
    rcases List.mem_append.1 member with old | new
    · obtain ⟨id, attempt, key, before⟩ := kept.granted g old
      exact ⟨id, Nat.le_succ_of_le attempt, key, before⟩
    · rw [List.mem_singleton.1 new]
      exact ⟨rfl, Nat.le_refl _, rfl, unexpired⟩
  · rw [List.map_append]
    refine List.nodup_append.2 ⟨kept.distinct, List.nodup_singleton _, ?_⟩
    intro used isUsed new isNew
    obtain ⟨g, member, rfl⟩ := List.mem_map.1 isUsed
    rw [List.map_cons, List.map_nil, List.mem_singleton] at isNew
    rw [isNew]
    have earlier : g.claimed.attempt ≤ m.attemptCount := (kept.granted g member).2.1
    exact Nat.ne_of_lt (Nat.lt_succ_of_le earlier)
  · intro g member running
    rcases List.mem_append.1 member with old | new
    · exact absurd running (quiet g old)
    · rw [List.mem_singleton.1 new]
      exact ⟨rfl, rfl⟩

/-- An outcome recorded by the holder ends the lease. -/
lemma RowKept.record (kept : RowKept sha256 clock m opens grants recorded)
    (same : SameMessage m m') (count : m'.attemptCount = m.attemptCount)
    (state : m'.state ≠ .leased) (quietly : unaccepted m' = true → m'.providerMessageId = none) :
    RowKept sha256 clock m' [] grants (recorded ++ [m.attemptCount]) := by
  refine kept.settle same count state quietly fun g member running => ?_
  have before : Running clock recorded g :=
    ⟨running.1, fun known => running.2 (List.mem_append_left _ known)⟩
  obtain ⟨-, latest⟩ := kept.live g member before
  exact running.2 (List.mem_append_right _ (List.mem_singleton.2 latest))

end

/-! ## Unfinished attempts -/

/-- Finishing some attempts leaves the other unfinished ones. -/
lemma openAttempts_finish (rows : List OutboxRecord) (attempts : List NotificationAttempt)
    (closes : NotificationAttempt → Bool) (finish : NotificationAttempt → NotificationAttempt)
    (finished : ∀ a, (finish a).finishedAt.isSome = true) (id : Nat) :
    openAttempts ⟨rows, attempts.map fun a => if closes a then finish a else a⟩ id =
      (attempts.filter (unfinished id)).filter fun a => !closes a := by
  have done : ∀ a, unfinished id (finish a) = false := by
    intro a
    have some_ := finished a
    cases ends : (finish a).finishedAt with
    | none => rw [ends] at some_; cases some_
    | some t => simp [unfinished, ends]
  unfold openAttempts
  induction attempts with
  | nil => rfl
  | cons a rest ih =>
    simp only [List.map_cons, List.filter_cons]
    cases closed : closes a with
    | true =>
      cases unfinished id a with
      | true => simpa [done, closed] using ih
      | false => simpa [done, closed] using ih
    | false =>
      cases open_ : unfinished id a with
      | true => simpa [open_, closed] using ih
      | false => simpa [open_, closed] using ih

lemma openAttempts_untouched {rows : List OutboxRecord} {attempts : List NotificationAttempt}
    {closes : NotificationAttempt → Bool} {finish : NotificationAttempt → NotificationAttempt}
    (finished : ∀ a, (finish a).finishedAt.isSome = true) {id : Nat}
    (other : ∀ a ∈ attempts, unfinished id a = true → closes a = false) :
    openAttempts ⟨rows, attempts.map fun a => if closes a then finish a else a⟩ id =
      attempts.filter (unfinished id) := by
  rw [openAttempts_finish rows attempts closes finish finished]
  refine List.filter_eq_self.2 fun a member => ?_
  obtain ⟨among, open_⟩ := List.mem_filter.1 member
  rw [other a among open_]
  rfl

lemma openAttempts_closed {rows : List OutboxRecord} {attempts : List NotificationAttempt}
    {closes : NotificationAttempt → Bool} {finish : NotificationAttempt → NotificationAttempt}
    (finished : ∀ a, (finish a).finishedAt.isSome = true) {id : Nat}
    (all : ∀ a ∈ attempts, unfinished id a = true → closes a = true) :
    openAttempts ⟨rows, attempts.map fun a => if closes a then finish a else a⟩ id = [] := by
  rw [openAttempts_finish rows attempts closes finish finished]
  refine List.filter_eq_nil_iff.2 fun a member => ?_
  obtain ⟨among, open_⟩ := List.mem_filter.1 member
  rw [all a among open_]
  exact Bool.false_ne_true

/-! ## The invariant of the table -/

structure OutboxKept (sha256 : Bytes → Sha256) (w : LeaseWorld) : Prop where
  ids : (w.outbox.rows.map OutboxRecord.id).Nodup
  attempts : ∀ a ∈ w.outbox.attempts, ∃ m ∈ w.outbox.rows, m.id = a.outboxId
  grants : ∀ g ∈ w.grants, ∃ m ∈ w.outbox.rows, m.id = g.claimed.id
  rows : ∀ m ∈ w.outbox.rows, RowKept sha256 w.clock m (openAttempts w.outbox m.id)
    (grantsOf w m.id) (recordedOf w m.id)

section
variable {sha256 : Bytes → Sha256} {w w' : LeaseWorld}

lemma OutboxKept.same (kept : OutboxKept sha256 w) {m other : OutboxRecord}
    (left : m ∈ w.outbox.rows) (right : other ∈ w.outbox.rows) (id : m.id = other.id) :
    m = other :=
  List.inj_on_of_nodup_map kept.ids left right id

/-- A change row by row, checked row by row. -/
lemma OutboxKept.update (kept : OutboxKept sha256 w) (f : OutboxRecord → OutboxRecord)
    (id : ∀ m, (f m).id = m.id) (rows : w'.outbox.rows = w.outbox.rows.map f)
    (attempts : ∀ a ∈ w'.outbox.attempts, ∃ m ∈ w.outbox.rows, m.id = a.outboxId)
    (grants : ∀ g ∈ w'.grants, ∃ m ∈ w.outbox.rows, m.id = g.claimed.id)
    (row : ∀ m ∈ w.outbox.rows, RowKept sha256 w'.clock (f m) (openAttempts w'.outbox m.id)
      (grantsOf w' m.id) (recordedOf w' m.id)) : OutboxKept sha256 w' := by
  have present : ∀ m ∈ w.outbox.rows, f m ∈ w'.outbox.rows := by
    intro m member
    rw [rows]
    exact List.mem_map_of_mem member
  refine ⟨?_, fun a member => ?_, fun g member => ?_, fun m' member => ?_⟩
  · rw [rows, List.map_map]
    have ids : OutboxRecord.id ∘ f = OutboxRecord.id := funext id
    rw [ids]
    exact kept.ids
  · obtain ⟨m, known, own⟩ := attempts a member
    exact ⟨f m, present m known, (id m).trans own⟩
  · obtain ⟨m, known, own⟩ := grants g member
    exact ⟨f m, present m known, (id m).trans own⟩
  · rw [rows] at member
    obtain ⟨m, known, rfl⟩ := List.mem_map.1 member
    rw [id m]
    exact row m known

lemma mapped_attempts {attempts : List NotificationAttempt} {rows : List OutboxRecord}
    (known : ∀ a ∈ attempts, ∃ m ∈ rows, m.id = a.outboxId)
    {closes : NotificationAttempt → Bool} {finish : NotificationAttempt → NotificationAttempt}
    (own : ∀ a, (finish a).outboxId = a.outboxId) :
    ∀ a ∈ attempts.map (fun a => if closes a then finish a else a),
      ∃ m ∈ rows, m.id = a.outboxId := by
  intro a member
  obtain ⟨before, among, rfl⟩ := List.mem_map.1 member
  obtain ⟨m, row, id⟩ := known before among
  refine ⟨m, row, ?_⟩
  split
  · rw [own]
    exact id
  · exact id

/-! ### The claim -/

lemma expiring_mem {locked : List Nat} {now : Instant} {o : Outbox} {m : OutboxRecord}
    (h : m ∈ expiring locked now o) : m ∈ o.rows ∧ expirable now m = true ∧ m.id ∉ locked := by
  obtain ⟨row, able⟩ := List.mem_filter.1 (List.mem_of_mem_take h)
  simpa [row] using able

lemma OutboxKept.expiring_iff (kept : OutboxKept sha256 w) {locked : List Nat} {now : Instant}
    {m : OutboxRecord} (row : m ∈ w.outbox.rows) :
    (expiring locked now w.outbox).any (fun e => e.id == m.id) = true ↔
      m ∈ expiring locked now w.outbox := by
  rw [List.any_eq_true]
  constructor
  · rintro ⟨e, taken, same⟩
    have equal : e = m := kept.same (expiring_mem taken).1 row (by simpa using same)
    rw [← equal]
    exact taken
  · intro taken
    exact ⟨m, taken, by simp⟩

/-- The rows of the table after expiry. -/
def afterExpiry (locked : List Nat) (w : LeaseWorld) : LeaseWorld :=
  { w with outbox := expireUnclaimable locked w.clock w.outbox }

lemma OutboxKept.expire (kept : OutboxKept sha256 w) (locked : List Nat) :
    OutboxKept sha256 (afterExpiry locked w) := by
  refine kept.update
    (fun m => if (expiring locked w.clock w.outbox).any (fun e => e.id == m.id) then
      deadLetterRow m else m) (fun m => ?_) rfl
    (mapped_attempts kept.attempts fun _ => rfl) kept.grants fun m row => ?_
  · split
    · rfl
    · rfl
  · have before := kept.rows m row
    by_cases taken : m ∈ expiring locked w.clock w.outbox
    · rw [if_pos ((kept.expiring_iff row).2 taken)]
      have none_ : openAttempts (afterExpiry locked w).outbox m.id = [] := by
        by_cases leased : m.state = .leased
        · refine openAttempts_closed (fun _ => rfl) fun a _ open_ => ?_
          exact List.any_eq_true.2 ⟨m, taken, by simp [leased, open_]⟩
        · refine openAttempts_closed (fun _ => rfl) fun a among open_ => ?_
          have listed : a ∈ openAttempts w.outbox m.id := List.mem_filter.2 ⟨among, open_⟩
          rw [before.idle leased] at listed
          cases listed
      rw [none_]
      exact before.deadLetter (expiring_mem taken).2.1
    · rw [if_neg fun found => taken ((kept.expiring_iff row).1 found)]
      have same : openAttempts (afterExpiry locked w).outbox m.id =
          openAttempts w.outbox m.id := by
        refine openAttempts_untouched (fun _ => rfl) fun a _ open_ => ?_
        by_contra closed
        obtain ⟨e, among, able⟩ := List.any_eq_true.1 (Bool.eq_true_of_not_eq_false closed)
        rw [Bool.and_eq_true] at able
        have id : e.id = m.id := by
          have left : a.outboxId = e.id := by
            have h := able.2
            simp only [unfinished, Bool.and_eq_true, beq_iff_eq] at h
            exact h.1
          have right : a.outboxId = m.id := by
            simp only [unfinished, Bool.and_eq_true, beq_iff_eq] at open_
            exact open_.1
          exact left.symm.trans right
        have equal := kept.same (expiring_mem among).1 row id
        exact taken (equal ▸ among)
      rw [same]
      exact before

lemma selectClaimable_some {locked : List Nat} {now : Instant} {o : Outbox} {m : OutboxRecord}
    (h : selectClaimable locked now o = some m) : m ∈ o.rows ∧ claimable now m = true := by
  obtain ⟨row, able⟩ := List.mem_filter.1 (List.argmin_mem h)
  rw [Bool.and_eq_true] at able
  exact ⟨row, able.1⟩

lemma claimed_fields {m : OutboxRecord} {workerId : String} {token : Nat} {leaseUntil : Instant}
    {c : Claimed} (h : claimed sha256 m workerId token leaseUntil = .ok c) :
    c.id = m.id ∧ c.attempt = m.attemptCount + 1 ∧ c.leaseOwner = workerId ∧
      c.leaseToken = token ∧ c.leaseUntil = leaseUntil := by
  unfold claimed at h
  split at h
  · cases h
    exact ⟨rfl, rfl, rfl, rfl, rfl⟩
  · cases h

lemma OutboxKept.takeLease (kept : OutboxKept sha256 w) {m : OutboxRecord}
    (row : m ∈ w.outbox.rows) (able : claimable w.clock m = true) {workerId : String}
    {token : Nat} {leaseUntil : Instant} {c : Claimed}
    (result : claimed sha256 m workerId token leaseUntil = .ok c) :
    OutboxKept sha256 { w with
      outbox := takeLease m workerId w.clock leaseUntil token w.outbox
      grants := w.grants ++ [⟨c, w.clock⟩] } := by
  have cid : c.id = m.id := (claimed_fields result).1
  refine kept.update
    (fun other => if other.id = m.id then leaseRow workerId leaseUntil token other else other)
    (fun other => ?_) rfl (fun a member => ?_) (fun g member => ?_) fun other member => ?_
  · split
    · rfl
    · rfl
  · rcases List.mem_append.1 member with old | new
    · have own : ∀ a, (leaseExpiredAttempt w.clock a).outboxId = a.outboxId := fun _ => rfl
      exact mapped_attempts kept.attempts own a old
    · rw [List.mem_singleton.1 new]
      exact ⟨m, row, rfl⟩
  · rcases List.mem_append.1 member with old | new
    · exact kept.grants g old
    · rw [List.mem_singleton.1 new]
      exact ⟨m, row, cid.symm⟩
  · have before := kept.rows other member
    have split_ : openAttempts (OutboxLeases.takeLease m workerId w.clock leaseUntil token
          w.outbox) other.id =
        openAttempts ⟨[], w.outbox.attempts.map fun a =>
          if unfinished m.id a then leaseExpiredAttempt w.clock a else a⟩ other.id ++
        [newAttempt m workerId token w.clock].filter (unfinished other.id) := List.filter_append ..
    have grown : grantsOf { w with
          outbox := OutboxLeases.takeLease m workerId w.clock leaseUntil token w.outbox
          grants := w.grants ++ [⟨c, w.clock⟩] } other.id =
        grantsOf w other.id ++ [(⟨c, w.clock⟩ : Grant)].filter (fun g => g.claimed.id == other.id) :=
      List.filter_append ..
    change RowKept sha256 w.clock _ _ _ (recordedOf w other.id)
    rw [split_, grown]
    by_cases own : other.id = m.id
    · have equal := kept.same member row own
      subst equal
      rw [if_pos rfl, openAttempts_closed (fun _ => rfl) fun _ _ open_ => open_]
      have fresh : unfinished other.id (newAttempt other workerId token w.clock) = true := by
        simp [unfinished, newAttempt]
      rw [List.filter_cons_of_pos fresh, List.filter_nil, List.nil_append,
        List.filter_cons_of_pos (by simpa using cid), List.filter_nil]
      exact before.lease able result
    · have apart : [newAttempt m workerId token w.clock].filter (unfinished other.id) = [] := by
        simpa [unfinished, newAttempt] using fun h => own h.symm
      have elsewhere : [(⟨c, w.clock⟩ : Grant)].filter (fun g => g.claimed.id == other.id) = [] := by
        simpa [cid] using fun h => own h.symm
      rw [if_neg own, apart, elsewhere, List.append_nil, List.append_nil,
        openAttempts_untouched (fun _ => rfl) fun a _ open_ => ?_]
      · exact before
      · by_contra closed
        have both := Bool.eq_true_of_not_eq_false closed
        simp only [unfinished, Bool.and_eq_true, beq_iff_eq] at both open_
        exact own (open_.1.symm.trans both.1)

lemma claimed_of_milestone {m : OutboxRecord} (version : m.proofVersion.isSome = true)
    (count : m.confirmationCount.isSome = true) (workerId : String) (token : Nat)
    (leaseUntil : Instant) : ∃ c, claimed sha256 m workerId token leaseUntil = .ok c := by
  obtain ⟨v, known⟩ := Option.isSome_iff_exists.1 version
  obtain ⟨n, counted⟩ := Option.isSome_iff_exists.1 count
  unfold claimed
  rw [known, counted]
  exact ⟨_, rfl⟩

def claimValid (workerId : String) (leaseFor : Int) : Prop :=
  (1 ≤ workerId.length ∧ workerId.length ≤ 128) ∧ second ≤ leaseFor ∧ leaseFor ≤ 3600 * second

lemma claimStep_cases (sha256 : Bytes → Sha256) (w : LeaseWorld) (workerId : String)
    (leaseFor : Int) (token : Nat) (locked : List Nat) :
    ((¬claimValid workerId leaseFor ∨ ∃ m e,
        selectClaimable locked w.clock (afterExpiry locked w).outbox = some m ∧
          claimed sha256 m workerId token (w.clock + leaseFor) = .error e) ∧
      claimStep sha256 w workerId leaseFor token locked = w) ∨
    (selectClaimable locked w.clock (afterExpiry locked w).outbox = none ∧
      claimStep sha256 w workerId leaseFor token locked = afterExpiry locked w) ∨
    ∃ m c, selectClaimable locked w.clock (afterExpiry locked w).outbox = some m ∧
      claimed sha256 m workerId token (w.clock + leaseFor) = .ok c ∧
      claimStep sha256 w workerId leaseFor token locked = { afterExpiry locked w with
        outbox := OutboxLeases.takeLease m workerId w.clock (w.clock + leaseFor) token
          (afterExpiry locked w).outbox
        grants := w.grants ++ [⟨c, w.clock⟩] } := by
  unfold claimStep claim
  by_cases worker : 1 ≤ workerId.length ∧ workerId.length ≤ 128
  · rw [if_neg (not_not.2 worker)]
    by_cases duration : second ≤ leaseFor ∧ leaseFor ≤ 3600 * second
    · rw [if_neg (not_not.2 duration)]
      cases found : selectClaimable locked w.clock (expireUnclaimable locked w.clock w.outbox) with
      | none => exact Or.inr (Or.inl ⟨found, rfl⟩)
      | some m =>
        cases result : claimed sha256 m workerId token (w.clock + leaseFor) with
        | error e =>
          exact Or.inl ⟨Or.inr ⟨m, e, found, result⟩, by simp only [result]⟩
        | ok c =>
          refine Or.inr (Or.inr ⟨m, c, found, result, ?_⟩)
          simp only [result]
          rfl
    · rw [if_pos duration]
      exact Or.inl ⟨Or.inl fun valid => duration valid.2, rfl⟩
  · rw [if_pos worker]
    exact Or.inl ⟨Or.inl fun valid => worker valid.1, rfl⟩

lemma OutboxKept.claimStep (kept : OutboxKept sha256 w) (workerId : String) (leaseFor : Int)
    (token : Nat) (locked : List Nat) :
    OutboxKept sha256 (OutboxLeases.claimStep sha256 w workerId leaseFor token locked) := by
  rcases claimStep_cases sha256 w workerId leaseFor token locked with
    ⟨-, same⟩ | ⟨-, expired⟩ | ⟨m, c, found, result, taken⟩
  · rw [same]
    exact kept
  · rw [expired]
    exact kept.expire locked
  · rw [taken]
    obtain ⟨row, able⟩ := selectClaimable_some found
    exact (kept.expire locked).takeLease row able result

/-! ### Outcomes -/

/-- What every outcome that a sender records does to the row and to the attempt. -/
structure Settles (onRow : OutboxRecord → OutboxRecord)
    (onAttempt : NotificationAttempt → NotificationAttempt) : Prop where
  same : ∀ m, SameMessage m (onRow m)
  count : ∀ m, (onRow m).attemptCount = m.attemptCount
  released : ∀ m, (onRow m).state ≠ .leased
  unsent : ∀ m, m.providerMessageId = none → unaccepted (onRow m) = true →
    (onRow m).providerMessageId = none
  finished : ∀ a, (onAttempt a).finishedAt.isSome = true
  own : ∀ a, (onAttempt a).outboxId = a.outboxId

lemma settles_finish (onRow : OutboxRecord → OutboxRecord) (same : ∀ m, SameMessage m (onRow m))
    (count : ∀ m, (onRow m).attemptCount = m.attemptCount)
    (released : ∀ m, (onRow m).state ≠ .leased)
    (unsent : ∀ m, m.providerMessageId = none → unaccepted (onRow m) = true →
      (onRow m).providerMessageId = none)
    (now : Instant) (outcome : AttemptOutcome) (status : Option Nat)
    (providerMessageId code : Option String) :
    Settles onRow (finishAttempt now outcome status providerMessageId code) :=
  ⟨same, count, released, unsent, fun _ => rfl, fun _ => rfl⟩

/-- The outcome of a lease that was still the current one. -/
def Recorded (message : ClaimedNotification) (o o' : Outbox) : Prop :=
  ∃ now m onRow onAttempt, activeLease message now o = .ok m ∧ Settles onRow onAttempt ∧
    o' = finishLease message onRow onAttempt o

lemma recordRetry_ok {message : ClaimedNotification} {now retryAt : Instant} {code : String}
    {status : Option Nat} {o o' : Outbox}
    (h : recordRetry message now retryAt code status o = .ok o') : Recorded message o o' := by
  unfold recordRetry at h
  iterate 3 (split at h; · cases h)
  split at h
  · cases h
  · next m active =>
    cases h
    refine ⟨now, m, _, _, active, settles_finish (retryRow (exhausted retryAt m) retryAt code)
      (fun _ => ⟨rfl, rfl, rfl, rfl, rfl, rfl, rfl, rfl⟩) (fun _ => rfl) (fun _ => ?_)
      (fun _ none_ _ => none_) .., rfl⟩
    unfold retryRow
    cases exhausted retryAt m with
    | true => exact OutboxState.noConfusion
    | false => exact OutboxState.noConfusion

lemma recordTerminalFailure_ok {message : ClaimedNotification} {now : Instant} {code : String}
    {status : Option Nat} {o o' : Outbox}
    (h : recordTerminalFailure message now code status o = .ok o') : Recorded message o o' := by
  unfold recordTerminalFailure at h
  iterate 2 (split at h; · cases h)
  split at h
  · cases h
  · next m active =>
    cases h
    exact ⟨now, m, _, _, active, settles_finish (failRow code)
      (fun _ => ⟨rfl, rfl, rfl, rfl, rfl, rfl, rfl, rfl⟩) (fun _ => rfl)
      (fun _ => OutboxState.noConfusion) (fun _ none_ _ => none_) .., rfl⟩

lemma finishLease_then (message : ClaimedNotification) (onRow after : OutboxRecord → OutboxRecord)
    (onAttempt : NotificationAttempt → NotificationAttempt) (o : Outbox)
    (id : ∀ m, (onRow m).id = m.id) :
    (finishLease message onRow onAttempt o).modifyRow message.id after =
      finishLease message (after ∘ onRow) onAttempt o := by
  unfold finishLease Outbox.modifyRow
  simp only [List.map_map, Outbox.mk.injEq, and_true]
  refine List.map_congr_left fun m _ => ?_
  by_cases own : m.id = message.id
  · simp [own, id]
  · simp [own]

lemma recordAccepted_ok {message : ClaimedNotification} {acceptance : ProviderAcceptance}
    {now : Instant} {noticed : Option Instant} {o o' : Outbox}
    (h : recordAccepted message acceptance now noticed o = .ok o') : Recorded message o o' := by
  unfold recordAccepted at h
  split at h
  · cases h
  · split at h
    · cases h
    · next m active =>
      split at h
      · cases h
      · cases noticed with
        | none =>
          cases h
          exact ⟨now, m, _, _, active, settles_finish (markAccepted acceptance.messageId now)
            (fun _ => ⟨rfl, rfl, rfl, rfl, rfl, rfl, rfl, rfl⟩) (fun _ => rfl)
            (fun _ => OutboxState.noConfusion) (fun _ _ sent => Bool.noConfusion sent) .., rfl⟩
        | some deliveredAt =>
          cases h
          exact ⟨now, m, _, _, active,
            settles_finish (deliverRow deliveredAt ∘ markAccepted acceptance.messageId now)
              (fun _ => ⟨rfl, rfl, rfl, rfl, rfl, rfl, rfl, rfl⟩) (fun _ => rfl)
              (fun _ => OutboxState.noConfusion) (fun _ _ sent => Bool.noConfusion sent) ..,
            finishLease_then message _ (deliverRow deliveredAt) _ o fun _ => rfl⟩

lemma recordedOf_append (w : LeaseWorld) (o : Outbox) (entry : Nat × Nat) (id : Nat) :
    recordedOf { w with outbox := o, recorded := w.recorded ++ [entry] } id =
      recordedOf w id ++ if entry.1 = id then [entry.2] else [] := by
  unfold recordedOf
  rw [List.filter_append, List.map_append]
  by_cases own : entry.1 = id
  · simp [own]
  · simp [own]

lemma OutboxKept.recorded (kept : OutboxKept sha256 w) {message : ClaimedNotification}
    {o' : Outbox} (h : Recorded message w.outbox o') :
    OutboxKept sha256 { w with
      outbox := o', recorded := w.recorded ++ [(message.id, message.attempt)] } := by
  obtain ⟨now, m, onRow, onAttempt, active, settles, rfl⟩ := h
  obtain ⟨row, id, leased, -, token, count, unsent⟩ := activeLease_ok active
  refine kept.update (fun other => if other.id = message.id then onRow other else other)
    (fun other => ?_) rfl (mapped_attempts kept.attempts settles.own) kept.grants
    fun other member => ?_
  · split
    · exact (settles.same other).id
    · rfl
  · have before := kept.rows other member
    rw [recordedOf_append]
    change RowKept sha256 w.clock _ _ (grantsOf w other.id) _
    by_cases own : other.id = message.id
    · have equal : other = m := kept.same member row (own.trans id.symm)
      subst equal
      rw [if_pos own, if_pos own.symm]
      have closed : openAttempts (finishLease message onRow onAttempt w.outbox) other.id = [] := by
        refine openAttempts_closed settles.finished fun a among open_ => ?_
        obtain ⟨-, g, -, holds, b, alone, number, secret⟩ := before.leased leased
        have listed : a ∈ openAttempts w.outbox other.id := List.mem_filter.2 ⟨among, open_⟩
        rw [alone, List.mem_singleton] at listed
        subst listed
        have known : g.claimed.leaseToken = message.leaseToken :=
          Option.some.inj (holds.token.symm.trans token)
        simp only [unfinished, Bool.and_eq_true, beq_iff_eq] at open_
        simp [openAttempt, open_.1, open_.2, id, number, count, secret, known]
      rw [closed, ← count]
      exact before.record (settles.same other) (settles.count other) (settles.released other)
        (settles.unsent other unsent)
    · rw [if_neg own, if_neg (fun h => own h.symm), List.append_nil]
      have same : openAttempts (finishLease message onRow onAttempt w.outbox) other.id =
          openAttempts w.outbox other.id := by
        refine openAttempts_untouched settles.finished fun a _ open_ => ?_
        by_contra closed
        have both := Bool.eq_true_of_not_eq_false closed
        simp only [openAttempt, unfinished, Bool.and_eq_true, beq_iff_eq] at both open_
        exact own (open_.1.symm.trans both.1.1.1)
      rw [same]
      exact before

lemma record_cases {message : ClaimedNotification} {result : Except AdapterError Outbox}
    (ok : ∀ o', result = .ok o' → Recorded message w.outbox o') :
    record w message result = w ∨ ∃ o', Recorded message w.outbox o' ∧
      record w message result =
        { w with outbox := o', recorded := w.recorded ++ [(message.id, message.attempt)] } := by
  cases result with
  | error e => exact Or.inl rfl
  | ok o' => exact Or.inr ⟨o', ok o' rfl, rfl⟩

/-! ### Webhooks and new messages -/

/-- What an event about an accepted message leaves alone. -/
structure Notices (f : OutboxRecord → OutboxRecord) : Prop where
  same : ∀ m, SameMessage m (f m)
  count : ∀ m, (f m).attemptCount = m.attemptCount
  sent : ∀ m, (f m).providerMessageId = m.providerMessageId
  over_ : ∀ m, (f m).state = .delivered ∨ (f m).state = .failed

lemma deliverRow_notices (deliveredAt : Instant) : Notices (deliverRow deliveredAt) :=
  ⟨fun _ => ⟨rfl, rfl, rfl, rfl, rfl, rfl, rfl, rfl⟩, fun _ => rfl, fun _ => rfl,
    fun _ => Or.inl rfl⟩

lemma markFailed_notices (type : ResendEventType) : Notices (markFailed type) := by
  have cases_ : ∀ m, (m.state = .delivered ∧ markFailed type m = m) ∨ markFailed type m =
      { m with state := .failed, safeErrorCode := some (ResendEventType.safeErrorCode type) } := by
    intro m
    unfold markFailed
    split
    · next done => exact Or.inl ⟨done, rfl⟩
    · exact Or.inr rfl
  refine ⟨fun m => ?_, fun m => ?_, fun m => ?_, fun m => ?_⟩
  all_goals
    rcases cases_ m with ⟨done, same⟩ | failed
  · rw [same]
    exact sameMessage_refl m
  · rw [failed]
    exact ⟨rfl, rfl, rfl, rfl, rfl, rfl, rfl, rfl⟩
  · rw [same]
  · rw [failed]
  · rw [same]
  · rw [failed]
  · rw [same]
    exact Or.inl done
  · rw [failed]
    exact Or.inr rfl

lemma Notices.unaccepted {f : OutboxRecord → OutboxRecord} (notices : Notices f)
    (m : OutboxRecord) : unaccepted (f m) = false := by
  rcases notices.over_ m with over_ | over_
  · simp [OutboxLeases.unaccepted, pending, waiting, over_]
  · simp [OutboxLeases.unaccepted, pending, waiting, over_]

lemma OutboxKept.onAccepted (kept : OutboxKept sha256 w) {f : OutboxRecord → OutboxRecord}
    (notices : Notices f) (providerMessageId : String) :
    OutboxKept sha256 { w with outbox := onAccepted providerMessageId f w.outbox } := by
  refine kept.update
    (fun m => if m.providerMessageId = some providerMessageId ∧ m.acceptedAt.isSome then f m
      else m) (fun m => ?_) rfl kept.attempts kept.grants fun m row => ?_
  · split
    · exact (notices.same m).id
    · rfl
  · have before := kept.rows m row
    change RowKept sha256 w.clock _ (openAttempts w.outbox m.id) (grantsOf w m.id)
      (recordedOf w m.id)
    by_cases own : m.providerMessageId = some providerMessageId ∧ m.acceptedAt.isSome
    · rw [if_pos own]
      have idle : m.state ≠ .leased := by
        intro leased
        have unsent := before.unsent (by simp [OutboxLeases.unaccepted, pending, leased])
        rw [own.1] at unsent
        cases unsent
      rw [before.idle idle]
      refine before.settle (notices.same m) (notices.count m) (fun leased => ?_)
        (fun still => ?_) fun g member running => idle (before.live g member running).1
      · rcases notices.over_ m with over_ | over_
        · exact OutboxState.noConfusion (leased.symm.trans over_)
        · exact OutboxState.noConfusion (leased.symm.trans over_)
      · rw [notices.unaccepted] at still
        cases still
    · rw [if_neg own]
      exact before

lemma OutboxKept.insertRow (kept : OutboxKept sha256 w) (m : OutboxRecord) :
    OutboxKept sha256 { w with outbox := insertRow m w.outbox } := by
  unfold OutboxLeases.insertRow
  split
  · next able =>
    rw [Bool.and_eq_true] at able
    obtain ⟨fresh, apart⟩ := able
    have other : ∀ row ∈ w.outbox.rows, row.id ≠ m.id := by
      intro row member
      have h := List.all_eq_true.1 apart row member
      simp only [Bool.and_eq_true, bne_iff_ne] at h
      exact h.1
    refine ⟨?_, fun a member => ?_, fun g member => ?_, fun row member => ?_⟩
    · change ((w.outbox.rows ++ [m]).map OutboxRecord.id).Nodup
      rw [List.map_append]
      refine List.nodup_append.2 ⟨kept.ids, List.nodup_singleton _, fun id used new isNew => ?_⟩
      obtain ⟨row, known, rfl⟩ := List.mem_map.1 used
      rw [List.map_cons, List.map_nil, List.mem_singleton] at isNew
      rw [isNew]
      exact other row known
    · obtain ⟨row, known, own⟩ := kept.attempts a member
      exact ⟨row, List.mem_append_left _ known, own⟩
    · obtain ⟨row, known, own⟩ := kept.grants g member
      exact ⟨row, List.mem_append_left _ known, own⟩
    · rcases List.mem_append.1 member with old | new
      · exact kept.rows row old
      · rw [List.mem_singleton.1 new]
        have noAttempts : openAttempts w.outbox m.id = [] := by
          refine List.filter_eq_nil_iff.2 fun a among open_ => ?_
          obtain ⟨row, known, own⟩ := kept.attempts a among
          simp only [unfinished, Bool.and_eq_true, beq_iff_eq] at open_
          exact other row known (own.trans open_.1)
        have noGrants : grantsOf w m.id = [] := by
          refine List.filter_eq_nil_iff.2 fun g among own => ?_
          obtain ⟨row, known, id⟩ := kept.grants g among
          exact other row known (id.trans (by simpa using own))
        simp only [enqueuedRow, Bool.and_eq_true, beq_iff_eq, Option.isNone_iff_eq_none,
          Bool.or_eq_true, Bool.not_eq_true'] at fresh
        obtain ⟨⟨⟨⟨⟨⟨⟨state, count⟩, -⟩, -⟩, -⟩, unsent⟩, -⟩, milestone⟩ := fresh
        change RowKept sha256 w.clock m (openAttempts w.outbox m.id) (grantsOf w m.id)
          (recordedOf w m.id)
        rw [noAttempts, noGrants]
        refine ⟨?_, fun able => ?_, fun _ => unsent, fun leased => ?_, fun _ => rfl, nofun,
          List.nodup_nil, nofun⟩
        · rw [count]
          exact Nat.zero_le _
        · obtain h | ⟨⟨h₁, h₂⟩, h₃⟩ := milestone
          · rw [able] at h
            cases h
          · exact ⟨h₁, h₂, h₃⟩
        · rw [state] at leased
          cases leased
  · exact kept

/-! ### Steps and runs -/

lemma OutboxKept.later (kept : OutboxKept sha256 w) (micros : Nat) :
    OutboxKept sha256 { w with clock := w.clock + (micros : Int) } := by
  refine ⟨kept.ids, kept.attempts, kept.grants, fun m row => ?_⟩
  have after : w.clock ≤ w.clock + (micros : Int) := Int.le_add_of_nonneg_right (Int.natCast_nonneg _)
  exact (kept.rows m row).later after

lemma OutboxKept.record (kept : OutboxKept sha256 w) {message : ClaimedNotification}
    {result : Except AdapterError Outbox}
    (ok : ∀ o', result = .ok o' → Recorded message w.outbox o') :
    OutboxKept sha256 (record w message result) := by
  rcases record_cases ok with same | ⟨o', recorded, done⟩
  · rw [same]
    exact kept
  · rw [done]
    exact kept.recorded recorded

theorem OutboxKept.step (kept : OutboxKept sha256 w) (s : SenderStep) :
    OutboxKept sha256 (step sha256 w s) := by
  cases s with
  | advance micros => exact kept.later micros
  | enqueue row => exact kept.insertRow row
  | claim workerId leaseFor token locked => exact kept.claimStep workerId leaseFor token locked
  | recordAccepted message acceptance now noticed =>
    exact kept.record fun _ ok => recordAccepted_ok ok
  | recordRetry message now retryAt code status => exact kept.record fun _ ok => recordRetry_ok ok
  | recordTerminalFailure message now code status =>
    exact kept.record fun _ ok => recordTerminalFailure_ok ok
  | delivered providerMessageId deliveredAt =>
    exact kept.onAccepted (deliverRow_notices deliveredAt) providerMessageId
  | rejected providerMessageId type =>
    exact kept.onAccepted (markFailed_notices type) providerMessageId

theorem OutboxKept.run (kept : OutboxKept sha256 w) (steps : List SenderStep) :
    OutboxKept sha256 (run sha256 steps w) := by
  induction steps generalizing w with
  | nil => exact kept
  | cons s rest ih => exact ih (kept.step s)

lemma emptyOutbox_kept (sha256 : Bytes → Sha256) (now : Instant) :
    OutboxKept sha256 (emptyOutbox now) :=
  ⟨List.nodup_nil, fun _ member => absurd member List.not_mem_nil,
    fun _ member => absurd member List.not_mem_nil, fun _ member => absurd member List.not_mem_nil⟩

end

end OutboxLeases
