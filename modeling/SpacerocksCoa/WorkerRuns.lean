import SpacerocksCoa.FulfillmentHandlers

/-!
# Job handlers, the runner and the world they share

The four job handlers that chain the stages, the runner that holds a lease around them,
the operator's commands, and the service that answers their requests on the record of
one order. An arrival is everything that starts from outside: a claim, an operator
command, stale recovery, the heartbeat task of a run, or a provider's event. A run that
is cancelled or whose process dies simply makes no further request.
-/
namespace WorkerRuns
open OrderStates ProofRecords OrderRows JobClaims FulfillmentAdapters NotificationAdapters
open FulfillmentHandlers TransactionalPrograms TransactionalPrograms.Prog

def second : Int := 1000000
def pendingPollInterval : Int := 6 * 3600 * second
def confirmationPollInterval : Int := 15 * 60 * second
def leaseFor : Int := 120 * second

/-! ## Enqueueing with a cloud task -/

/-- `TaskDispatchCoordinator.dispatch`: a failed creation is recorded and raised. -/
def dispatch (jobId generation : Nat) : Handler Bool := do
  if ← call (.dispatchDue jobId generation) then
    if ← call (.createTask jobId generation) then
      call (.recordDispatched jobId generation)
    else
      call (.recordDispatchFailure jobId generation)
      fail .dispatchUnavailable
  else pure false

def dispatchIf (s : Services) (target : Option (Nat × Nat)) : Handler Unit :=
  match s.taskDispatch, target with
  | true, some (jobId, generation) => do
    let _ ← dispatch jobId generation
    pure ()
  | _, _ => pure ()

def enqueueJob (s : Services) (spec : JobSpec) (availableAt : Instant) : Handler Unit := do
  let enqueued ← call (.enqueueOnce spec availableAt)
  dispatchIf s enqueued.dispatch

/-! ## Job handlers -/

def stampJobHandler (s : Services) (orderId : Nat) : Handler Unit := do
  stampHandler s
  let now ← call .now
  enqueueJob s { jobKey := .upgrade orderId, kind := .upgradeTimestamp, orderId := orderId } now

/-- Polling later when the handler says that confirmation is pending. -/
def orPoll (handler : Handler Unit) (poll : Handler Unit) (after : Handler Unit) :
    Handler Unit := do
  match ← handler.attempt with
  | .ok () => after
  | .error .confirmationPending => poll
  | .error e => fail e

def upgradePoll (s : Services) (orderId : Nat) : Handler Unit := do
  let now ← call .now
  enqueueJob s
    { jobKey := .upgradePoll orderId ((now + pendingPollInterval) / second)
      kind := .upgradeTimestamp
      orderId := orderId } (now + pendingPollInterval)

def afterUpgrade (s : Services) (orderId : Nat) : Handler Unit := do
  match ← getForFulfillment with
  | none => pure ()
  | some order =>
    if order.state.fulfillment = .bitcoinVerified then
      let now ← call .now
      enqueueJob s { jobKey := .delivery orderId, kind := .deliverTimestamp, orderId := orderId }
        now
    else pure ()

def upgradeJobHandler (s : Services) (orderId : Nat) : Handler Unit :=
  orPoll (upgradeHandler s) (upgradePoll s orderId) (afterUpgrade s orderId)

def confirmationPoll (s : Services) (orderId : Nat) : Handler Unit := do
  let now ← call .now
  enqueueJob s
    { jobKey := .confirmationPoll orderId ((now + confirmationPollInterval) / second)
      kind := .monitorBitcoinConfirmations
      orderId := orderId } (now + confirmationPollInterval)

def deliveryJobHandler (s : Services) (orderId : Nat) : Handler Unit := do
  deliveryHandler s
  confirmationPoll s orderId

def confirmationJobHandler (s : Services) (orderId : Nat) : Handler Unit :=
  orPoll (confirmationHandler s) (confirmationPoll s orderId) (pure ())

def jobHandler (s : Services) (orderId : Nat) : JobKind → Option (Handler Unit)
  | .stampManifestDigest => some (stampJobHandler s orderId)
  | .upgradeTimestamp => some (upgradeJobHandler s orderId)
  | .deliverTimestamp => some (deliveryJobHandler s orderId)
  | .monitorBitcoinConfirmations => some (confirmationJobHandler s orderId)
  | .unknown _ => none

/-! ## The runner -/

inductive RunEnd where
  | leaseLost
  | complete
  | manualReview (safeCode : String)
  | retried (safeCode : String)
  | exhausted (safeCode : String)
  | commandDone
  deriving DecidableEq

def terminalFailure (safeCode : String) : Handler Unit := do
  let _ ← transition .manualReview (.workerTerminal safeCode) none
  pure ()

def finishJob (s : Services) (job : ClaimedJob) (outcome : JobOutcome) (now : Instant)
    (retryAt : Option Instant) (safeErrorCode : Option String) : Handler Unit := do
  let target ← adapter (← call (.finish job outcome now retryAt safeErrorCode))
  dispatchIf s target

def finishNow (s : Services) (job : ClaimedJob) (outcome : JobOutcome)
    (safeErrorCode : Option String) : Handler Unit := do
  let now ← call .now
  finishJob s job outcome now none safeErrorCode

def retryOrExhaust (s : Services) (job : ClaimedJob) (safeCode : String) : Handler RunEnd := do
  if job.spec.maxAttempts ≤ job.attempt then
    terminalFailure safeCode
    finishNow s job .deadLetter (some safeCode)
    pure (.exhausted safeCode)
  else
    let retryAt ← call (.retryAt job.attempt)
    let now ← call .now
    finishJob s job .retry now (some retryAt) (some safeCode)
    pure (.retried safeCode)

def manualReviewEnd (s : Services) (job : ClaimedJob) (safeCode : String) : Handler RunEnd := do
  terminalFailure safeCode
  finishNow s job .manualReview (some safeCode)
  pure (.manualReview safeCode)

/-- What the runner does once the handler ended, if its lease is still held. -/
def settle (s : Services) (job : ClaimedJob) : Except Failure Unit → Handler RunEnd
  | .ok () => do
    finishNow s job .complete none
    pure .complete
  | .error (.manualReview safeCode) => manualReviewEnd s job safeCode
  | .error (.retryable safeCode) => retryOrExhaust s job safeCode
  | .error _ => retryOrExhaust s job "job_unexpected_failure"

def settleIfHeld (s : Services) (job : ClaimedJob) (result : Except Failure Unit) :
    Handler RunEnd := do
  let now ← call .now
  let held ← call (.heartbeat job (now + leaseFor))
  if held = true then settle s job result else pure .leaseLost

def runClaimed (s : Services) (job : ClaimedJob) : Handler RunEnd := do
  match jobHandler s job.spec.orderId job.spec.kind with
  | none => manualReviewEnd s job "job_kind_unknown"
  | some handler =>
    let result ← handler.attempt
    settleIfHeld s job result

/-! ## Operator commands -/

/-- `_enqueue_proof_job`; the key names the version the operator saw. -/
def enqueueProofJob (s : Services) (orderId : Nat) (allowed : List FulfillmentState)
    (jobKey : Nat → JobKey) : Handler RunEnd := do
  match ← getForFulfillment with
  | none => fail (.adapter (.value "order_not_found"))
  | some order =>
    if order.state.fulfillment ∉ allowed then fail (.adapter (.value "order_not_eligible"))
    else
      match ← latestProof with
      | none => fail (.adapter (.value "proof_not_found"))
      | some proof =>
        let now ← call .now
        enqueueJob s
          { jobKey := jobKey proof.version, kind := .upgradeTimestamp, orderId := orderId } now
        pure .commandDone

def operatorReverify (s : Services) (orderId : Nat) (requestId : String) : Handler RunEnd :=
  enqueueProofJob s orderId [.bitcoinVerified, .delivered] fun version =>
    .reverify orderId version requestId

def operatorUpgrade (s : Services) (orderId : Nat) : Handler RunEnd :=
  enqueueProofJob s orderId [.calendarPending] fun version =>
    .upgradeManual orderId version "default"

def dispatchCommand (s : Services) (target : Option (Nat × Nat)) : Handler RunEnd := do
  dispatchIf s target
  pure .commandDone

/-! ## The world -/

/-- The record of the order, and what the environment has shown so far: the latest instant
and the height of the chain. -/
structure World where
  record : OrderRecord
  clock : Instant
  tip : Nat

/-- The choices of the environment at one step. -/
structure Env where
  now : Instant
  tip : Nat
  freshId : Nat
  stamp : Except CalendarError (PendingProof Instant)
  upgrade : Except CalendarError Bytes
  verify : Except VerifierError (BitcoinVerification Instant)
  created : Bool
  retryAt : Instant

/-- A transaction commits its record, or leaves the record alone when it fails. -/
def commit {α : Type} (record : OrderRecord) :
    Except AdapterError (α × OrderRecord) → Except AdapterError α × OrderRecord
  | .ok (a, r) => (.ok a, r)
  | .error e => (.error e, record)

def commitUnit (record : OrderRecord) :
    Except AdapterError OrderRecord → Except AdapterError Unit × OrderRecord
  | .ok r => (.ok (), r)
  | .error e => (.error e, record)

/-- What holds before a transaction and after each way it can succeed holds afterwards. -/
lemma commit_rule {α : Type} {record : OrderRecord} {t : Except AdapterError (α × OrderRecord)}
    (P : OrderRecord → Prop) (before : P record)
    (after : ∀ a r, t = .ok (a, r) → P r) : P (commit record t).2 := by
  cases t with
  | error e => exact before
  | ok result => exact after result.1 result.2 rfl

lemma commitUnit_rule {record : OrderRecord} {t : Except AdapterError OrderRecord}
    (P : OrderRecord → Prop) (before : P record) (after : ∀ r, t = .ok r → P r) :
    P (commitUnit record t).2 := by
  cases t with
  | error e => exact before
  | ok r => exact after r rfl

/-- The effect of a request on the record. -/
def answer (s : Services) (env : Env) : (q : Request) → OrderRecord → Reply q × OrderRecord
  | .getForFulfillment, r => (some (FulfillmentAdapters.getForFulfillment r), r)
  | .latest, r => (latest r, r)
  | .transitionFulfillmentOnce target key time, r =>
    commit r (transitionFulfillmentOnce s.platform target key time env.now r)
  | .stampExactDigest _, r => (env.stamp, r)
  | .upgradeExactDigest _ _, r => (env.upgrade, r)
  | .verifyExactDigest _ _, r => (env.verify, r)
  | .append proof, r => commitUnit r (FulfillmentAdapters.append proof r)
  | .putVerifiedOnce version result, r => commitUnit r (putVerifiedOnce version result r)
  | .getVerified version, r => (getVerified version r, r)
  | .recordOnce version key result, r =>
    commit r (recordOnce version key result env.now env.freshId r)
  | .latestObservation version, r => (r.latestObservation version, r)
  | .putOnce version bundle, r => commitUnit r (putOnce s.platform version bundle r)
  | .enqueue message, r => commitUnit r (enqueue message env.now env.freshId r)
  | .now, r => (env.now, r)
  | .enqueueOnce spec availableAt, r =>
    ((enqueueOnce spec availableAt env.now env.freshId r.tables).1,
      { r with tables := (enqueueOnce spec availableAt env.now env.freshId r.tables).2 })
  | .dispatchDue jobId generation, r => (JobClaims.dispatchDue jobId generation r.tables, r)
  | .createTask _ _, r => (env.created, r)
  | .recordDispatched jobId generation, r =>
    ((recordDispatched jobId generation env.now r.tables).1,
      { r with tables := (recordDispatched jobId generation env.now r.tables).2 })
  | .recordDispatchFailure jobId generation, r =>
    ((), { r with tables := recordDispatchFailure jobId generation r.tables })
  | .heartbeat job leaseUntil, r =>
    ((heartbeat job.id job.leaseOwner job.attempt leaseUntil r.tables).1,
      { r with tables := (heartbeat job.id job.leaseOwner job.attempt leaseUntil r.tables).2 })
  | .retryAt _, r => (env.retryAt, r)
  | .finish job outcome now retryAt code, r =>
    match finish job outcome now retryAt code r.tables with
    | .ok (target, tables) => (.ok target, { r with tables := tables })
    | .error message => (.error (.value message), r)

def perform (s : Services) (env : Env) (q : Request) (w : World) : Reply q × World :=
  ((answer s env q w.record).1, ⟨(answer s env q w.record).2, env.now, env.tip⟩)

/-! ## Arrivals -/

inductive Arrival where
  | claim (workerId : String)
  | claimSpecific (jobId generation : Nat) (workerId : String)
  | heartbeat (job : ClaimedJob) (leaseUntil : Instant)
  | operatorReverify (requestId : String)
  | operatorUpgrade
  | operatorReplay (jobId : Nat)
  | recoverStale (staleGrace : Int) (limit : Nat)
  | reconcile (jobId generation : Nat)
  | resendEvent (event : VerifiedResendEvent) (payloadSha256 : Sha256)
  | senderAccepted (message : ClaimedNotification) (acceptance : ProviderAcceptance)

abbrev HandlerRun := Run Request Reply Failure RunEnd (Option ClaimedJob)

/-- A claimed job with the tables its claim left. -/
def startJob (s : Services) (record : OrderRecord) :
    Option (ClaimedJob × JobTables) → OrderRecord × List HandlerRun
  | none => (record, [])
  | some (job, tables) =>
    ({ record with tables := tables }, [⟨some job, runClaimed s job⟩])

def arriveRecord (s : Services) (now : Instant) (r : OrderRecord) :
    Arrival → OrderRecord × List HandlerRun
  | .claim workerId => startJob s r (claim workerId now leaseFor r.tables)
  | .claimSpecific jobId generation workerId =>
    match claimSpecific jobId generation workerId now leaseFor r.tables with
    | .ok claimed => startJob s r claimed
    | .error _ => (r, [])
  | .heartbeat job leaseUntil =>
    ({ r with
      tables := (heartbeat job.id job.leaseOwner job.attempt leaseUntil r.tables).2 }, [])
  | .operatorReverify requestId => (r, [⟨none, operatorReverify s r.order.id requestId⟩])
  | .operatorUpgrade => (r, [⟨none, operatorUpgrade s r.order.id⟩])
  | .operatorReplay jobId =>
    match replay jobId now r.tables with
    | .ok (target, tables) => ({ r with tables := tables }, [⟨none, dispatchCommand s target⟩])
    | .error _ => (r, [])
  | .recoverStale staleGrace limit =>
    match recoverStaleDispatched staleGrace limit now r.tables with
    | .ok (targets, tables) =>
      ({ r with tables := tables },
        targets.map fun target => ⟨none, dispatchCommand s (some target)⟩)
    | .error _ => (r, [])
  | .reconcile jobId generation => (r, [⟨none, dispatchCommand s (some (jobId, generation))⟩])
  | .resendEvent event payloadSha256 =>
    ((commit r (processEvent s.platform event payloadSha256 now r)).2, [])
  | .senderAccepted message acceptance =>
    ((commitUnit r (recordAccepted s.platform message acceptance now r)).2, [])

structure Arriving where
  now : Instant
  tip : Nat
  arrival : Arrival

def workerService (s : Services) :
    Service Request Reply Failure RunEnd (Option ClaimedJob) World Env Arriving where
  perform := perform s
  arrive a w :=
    (⟨(arriveRecord s a.now w.record a.arrival).1, a.now, a.tip⟩,
      (arriveRecord s a.now w.record a.arrival).2)

end WorkerRuns
