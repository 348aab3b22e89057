import Mathlib.Data.List.MinMax
import Mathlib.Data.Prod.Lex
import SpacerocksCoa.OrderStates
import SpacerocksCoa.UniqueColumns

/-!
# Durable jobs, their leases and their dispatches

The job tables and every operation on them, one transaction each: enqueueing, the two
claims, heartbeat, finish, the operator's replay, stale recovery and the bookkeeping of
created tasks. Row identifiers are fresh numbers supplied by the caller; a reused one
is refused as the primary key would refuse it.

Cloud task creation itself happens outside the database and appears only through the
transactions around it.
-/
namespace JobClaims
open OrderStates

inductive JobState where
  | available | leased | retry | complete | manualReview | deadLetter
  deriving DecidableEq, Repr

inductive JobOutcome where
  | complete | retry | manualReview | deadLetter
  deriving DecidableEq, Repr

def JobOutcome.state : JobOutcome → JobState
  | complete => .complete
  | retry => .retry
  | manualReview => .manualReview
  | deadLetter => .deadLetter

inductive JobKind where
  | stampManifestDigest | upgradeTimestamp | deliverTimestamp | monitorBitcoinConfirmations
  | unknown (kind : String)
  deriving DecidableEq

/-- The texts that name a job once; poll keys carry whole seconds. -/
inductive JobKey where
  | stamp (order : Nat)
  | upgrade (order : Nat)
  | upgradePoll (order : Nat) (seconds : Int)
  | upgradeManual (order version : Nat) (request : String)
  | reverify (order version : Nat) (request : String)
  | delivery (order : Nat)
  | confirmationPoll (order : Nat) (seconds : Int)
  deriving DecidableEq

lemma one_le_ten : 1 ≤ 10 := by decide

structure JobSpec where
  jobKey : JobKey
  kind : JobKind
  orderId : Nat
  maxAttempts : Nat := 10
  attempts : 1 ≤ maxAttempts := by exact one_le_ten
  deriving DecidableEq

structure DurableJob where
  id : Nat
  jobKey : JobKey
  orderId : Nat
  kind : JobKind
  state : JobState
  generation : Nat
  attemptCount : Nat
  maxAttempts : Nat
  permitted : 1 ≤ maxAttempts
  availableAt : Instant
  leaseOwner : Option String
  leaseUntil : Option Instant
  safeErrorCode : Option String
  createdAt : Instant
  deriving DecidableEq

structure JobAttempt where
  jobId : Nat
  attemptNumber : Nat
  workerId : String
  startedAt : Instant
  finishedAt : Option Instant
  outcome : Option JobOutcome
  safeErrorCode : Option String
  deriving DecidableEq

/-- A dispatch is pending, or dispatched at a known time. -/
inductive DispatchState where
  | pending
  | dispatched (time : Instant)
  deriving DecidableEq

structure TaskDispatch where
  jobId : Nat
  generation : Nat
  scheduleAt : Instant
  state : DispatchState
  attemptCount : Nat
  safeErrorCode : Option String
  createdAt : Instant
  deriving DecidableEq

structure JobTables where
  jobs : List DurableJob
  attempts : List JobAttempt
  dispatches : List TaskDispatch
  deriving DecidableEq

structure ClaimedJob where
  id : Nat
  spec : JobSpec
  attempt : Nat
  leaseOwner : String
  leaseUntil : Instant
  deriving DecidableEq

inductive ClaimFailure where
  | specificJobRetryable (code : String)
  | value (code : String)
  deriving DecidableEq

def JobTables.job (t : JobTables) (id : Nat) : Option DurableJob :=
  t.jobs.find? (fun job => job.id == id)

def JobTables.dispatch (t : JobTables) (id generation : Nat) : Option TaskDispatch :=
  t.dispatches.find? (fun d => d.jobId == id && d.generation == generation)

def JobTables.modifyJob (t : JobTables) (id : Nat) (f : DurableJob → DurableJob) : JobTables :=
  { t with jobs := t.jobs.map (fun job => if job.id = id then f job else job) }

def JobTables.modifyDispatch (t : JobTables) (id generation : Nat)
    (f : TaskDispatch → TaskDispatch) : JobTables :=
  { t with dispatches := t.dispatches.map (fun d =>
      if d.jobId = id ∧ d.generation = generation then f d else d) }

def JobTables.modifyAttempt (t : JobTables) (id number : Nat) (f : JobAttempt → JobAttempt) :
    JobTables :=
  { t with attempts := t.attempts.map (fun a =>
      if a.jobId = id ∧ a.attemptNumber = number then f a else a) }

def JobTables.addTaskDispatch (t : JobTables) (id generation : Nat) (scheduleAt now : Instant) :
    JobTables :=
  { t with dispatches := t.dispatches ++
      [⟨id, generation, scheduleAt, .pending, 0, none, now⟩] }

/-! ## Enqueueing -/

def newJob (spec : JobSpec) (id : Nat) (availableAt now : Instant) : DurableJob where
  id := id
  jobKey := spec.jobKey
  orderId := spec.orderId
  kind := spec.kind
  state := .available
  generation := 1
  attemptCount := 0
  maxAttempts := spec.maxAttempts
  permitted := spec.attempts
  availableAt := availableAt
  leaseOwner := none
  leaseUntil := none
  safeErrorCode := none
  createdAt := now

structure Enqueued where
  created : Bool
  dispatch : Option (Nat × Nat)
  deriving DecidableEq

/-- A new job and the dispatch of its first generation. -/
def insertJob (spec : JobSpec) (availableAt now : Instant) (id : Nat) (t : JobTables) : JobTables :=
  { t with jobs := t.jobs ++ [newJob spec id availableAt now] }.addTaskDispatch id 1 availableAt now

def enqueueOnce (spec : JobSpec) (availableAt now : Instant) (freshId : Nat) (t : JobTables) :
    Enqueued × JobTables :=
  if t.jobs.any (fun job => job.jobKey == spec.jobKey || job.id == freshId) then
    (⟨false, (t.jobs.find? (fun job => job.jobKey == spec.jobKey)).map
      (fun job => (job.id, job.generation))⟩, t)
  else (⟨true, some (freshId, 1)⟩, insertJob spec availableAt now freshId t)

/-! ## Claims -/

def JobState.claimable : JobState → Bool
  | available => true
  | retry => true
  | leased => true
  | _ => false

def claimQuery (now : Instant) (job : DurableJob) : Bool :=
  job.state.claimable && decide (job.availableAt ≤ now) &&
    job.leaseUntil.all (fun until_ => decide (until_ < now)) &&
    decide (job.attemptCount < job.maxAttempts)

def lease (job : DurableJob) (workerId : String) (now leaseFor : Int) (t : JobTables) :
    ClaimedJob × JobTables :=
  (⟨job.id, ⟨job.jobKey, job.kind, job.orderId, job.maxAttempts, job.permitted⟩,
      job.attemptCount + 1, workerId, now + leaseFor⟩,
    { (t.modifyJob job.id fun job =>
        { job with
          attemptCount := job.attemptCount + 1
          state := .leased
          leaseOwner := some workerId
          leaseUntil := some (now + leaseFor) }) with
      attempts := t.attempts ++
        [⟨job.id, job.attemptCount + 1, workerId, now, none, none, none⟩] })

def claimOrder (job : DurableJob) : Int ×ₗ Int := toLex (job.availableAt, job.createdAt)

def claim (workerId : String) (now leaseFor : Int) (t : JobTables) :
    Option (ClaimedJob × JobTables) :=
  (List.argmin claimOrder (t.jobs.filter (claimQuery now))).map
    fun job => lease job workerId now leaseFor t

def claimSpecific (jobId generation : Nat) (workerId : String) (now leaseFor : Int)
    (t : JobTables) : Except ClaimFailure (Option (ClaimedJob × JobTables)) :=
  if generation < 1 then .error (.value "task_generation_invalid")
  else
    match t.job jobId with
    | none => .error (.specificJobRetryable "specific_job_not_committed")
    | some job =>
      match t.dispatch jobId generation with
      | none => .error (.specificJobRetryable "specific_dispatch_not_committed")
      | some _ =>
        if job.generation ≠ generation then .ok none
        else if job.state.claimable = false then .ok none
        else if now < job.availableAt then
          .error (.specificJobRetryable "specific_job_not_due")
        else if job.leaseUntil.any (fun until_ => decide (now ≤ until_)) then
          .error (.specificJobRetryable "specific_job_lease_active")
        else if job.maxAttempts ≤ job.attemptCount then .ok none
        else .ok (some (lease job workerId now leaseFor t))

/-! ## The holder of a lease -/

def heartbeat (jobId : Nat) (workerId : String) (attempt : Nat) (leaseUntil : Instant)
    (t : JobTables) : Bool × JobTables :=
  match t.job jobId with
  | none => (false, t)
  | some job =>
    if job.leaseOwner ≠ some workerId ∨ job.attemptCount ≠ attempt ∨ job.state ≠ .leased then
      (false, t)
    else (true, t.modifyJob jobId fun job => { job with leaseUntil := some leaseUntil })

/-- A retry on the last permitted attempt is filed as a dead letter. -/
def finalOutcome (job : DurableJob) (outcome : JobOutcome) : JobOutcome :=
  if outcome = .retry ∧ job.maxAttempts ≤ job.attemptCount then .deadLetter else outcome

/-- The row of the job and of its attempt once the outcome is filed. -/
def fileOutcome (id attempt : Nat) (final : JobOutcome) (now : Instant) (retryAt : Option Instant)
    (safeErrorCode : Option String) (t : JobTables) : JobTables :=
  (t.modifyJob id fun stored =>
    { stored with
      state := final.state
      availableAt := retryAt.getD stored.availableAt
      leaseOwner := none
      leaseUntil := none
      safeErrorCode := safeErrorCode }).modifyAttempt id attempt fun a =>
    { a with finishedAt := some now, outcome := some final, safeErrorCode := safeErrorCode }

def nextGeneration (id : Nat) (t : JobTables) : JobTables :=
  t.modifyJob id fun stored => { stored with generation := stored.generation + 1 }

def finish (job : ClaimedJob) (outcome : JobOutcome) (now : Instant) (retryAt : Option Instant)
    (safeErrorCode : Option String) (t : JobTables) :
    Except String (Option (Nat × Nat) × JobTables) :=
  match t.job job.id with
  | none => .error "job lease is no longer owned by this attempt"
  | some stored =>
    if stored.leaseOwner ≠ some job.leaseOwner ∨ stored.attemptCount ≠ job.attempt then
      .error "job lease is no longer owned by this attempt"
    else if (t.attempts.any fun a => a.jobId == job.id && a.attemptNumber == stored.attemptCount) =
        false then
      .error "job attempt history is missing"
    else
      let final := finalOutcome stored outcome
      let filed := fileOutcome job.id stored.attemptCount final now retryAt safeErrorCode t
      match final, retryAt with
      | .retry, none => .error "retry outcome requires retry_at"
      | .retry, some retryAt =>
        .ok (some (job.id, stored.generation + 1),
          (nextGeneration job.id filed).addTaskDispatch job.id (stored.generation + 1) retryAt now)
      | _, _ => .ok (none, filed)

/-! ## The operator and the reconciler -/

/-- Only a job in retry is replayed; a terminal job changes nothing and is reported. -/
def replay (jobId : Nat) (now : Instant) (t : JobTables) :
    Except String (Option (Nat × Nat) × JobTables) :=
  match t.job jobId with
  | none => .error "job_not_found"
  | some job =>
    if job.state = .manualReview ∨ job.state = .deadLetter then .ok (none, t)
    else if job.state ≠ .retry then .error "job_not_replayable"
    else
      .ok (some (jobId, job.generation + 1),
        (t.modifyJob jobId fun job =>
          { job with
            state := .available
            availableAt := now
            leaseOwner := none
            leaseUntil := none
            safeErrorCode := none
            maxAttempts := max job.maxAttempts (job.attemptCount + 10)
            permitted := Nat.le_trans job.permitted (Nat.le_max_left _ _)
            generation := job.generation + 1 }).addTaskDispatch jobId (job.generation + 1) now now)

def staleCandidate (staleBefore now : Instant) (t : JobTables) (job : DurableJob) : Bool :=
  (match t.dispatch job.id job.generation with
    | some ⟨_, _, scheduleAt, .dispatched dispatchedAt, _, _, _⟩ =>
      decide (scheduleAt ≤ staleBefore) && decide (dispatchedAt ≤ staleBefore)
    | _ => false) &&
    job.state.claimable && decide (job.availableAt ≤ staleBefore) &&
    decide (job.attemptCount < job.maxAttempts) &&
    job.leaseUntil.all (fun until_ => decide (until_ < now))

def supersedeDispatch (id generation : Nat) (t : JobTables) : JobTables :=
  t.modifyDispatch id generation fun d => { d with safeErrorCode := some "superseded_stale_dispatch" }

/-- An expired lease is given up; its attempt ends as a retry unless it already ended. -/
def releaseLease (id attempt : Nat) (now : Instant) (t : JobTables) : JobTables :=
  (t.modifyAttempt id attempt fun a =>
    if a.finishedAt.isSome then a
    else
      { a with
        finishedAt := some now
        outcome := some .retry
        safeErrorCode := some "lease_expired_recovered" }).modifyJob id fun job =>
    { job with state := .available, leaseOwner := none, leaseUntil := none }

/-- The job gets a new generation with its own dispatch. -/
def recoverJob (now : Instant) (t : JobTables) (job : DurableJob) : JobTables :=
  let superseded := supersedeDispatch job.id job.generation t
  let released := if job.leaseOwner.isSome then
      releaseLease job.id job.attemptCount now superseded
    else superseded
  (nextGeneration job.id released).addTaskDispatch job.id (job.generation + 1) now now

def dispatchedOrder (t : JobTables) (job : DurableJob) : Int ×ₗ Int :=
  toLex (job.availableAt,
    match t.dispatch job.id job.generation with
    | some ⟨_, _, _, .dispatched dispatchedAt, _, _, _⟩ => dispatchedAt
    | _ => 0)

def minStaleDispatchGrace : Int := 7200000000
def maxStaleDispatchGrace : Int := 2592000000000

def recoverStaleDispatched (staleGrace : Int) (limit : Nat) (now : Instant) (t : JobTables) :
    Except String (List (Nat × Nat) × JobTables) :=
  if ¬(1 ≤ limit ∧ limit ≤ 1000) then .error "task_reconcile_limit_invalid"
  else if ¬(minStaleDispatchGrace ≤ staleGrace ∧ staleGrace ≤ maxStaleDispatchGrace) then
    .error "task_stale_grace_invalid"
  else
    let stale := ((t.jobs.filter (staleCandidate (now - staleGrace) now t)).mergeSort
      (fun a b => decide (dispatchedOrder t a ≤ dispatchedOrder t b))).take limit
    .ok (stale.map (fun job => (job.id, job.generation + 1)), stale.foldl (recoverJob now) t)

/-! ## Bookkeeping of created tasks -/

/-- The first transaction of a dispatch: whether a task has to be created. -/
def dispatchDue (jobId generation : Nat) (t : JobTables) : Bool :=
  match t.dispatch jobId generation with
  | some ⟨_, _, _, .pending, _, _, _⟩ => true
  | _ => false

def recordDispatched (jobId generation : Nat) (now : Instant) (t : JobTables) :
    Bool × JobTables :=
  if dispatchDue jobId generation t then
    (true, t.modifyDispatch jobId generation fun d =>
      { d with
        state := .dispatched now
        attemptCount := d.attemptCount + 1
        safeErrorCode := none })
  else (false, t)

def recordDispatchFailure (jobId generation : Nat) (t : JobTables) : JobTables :=
  if dispatchDue jobId generation t then
    t.modifyDispatch jobId generation fun d =>
      { d with
        attemptCount := d.attemptCount + 1
        safeErrorCode := some "cloud_tasks_create_failed" }
  else t

/-! ## Rows under updates -/

lemma job_modifyJob (t : JobTables) (id : Nat) {f : DurableJob → DurableJob}
    (keeps : ∀ job, (f job).id = job.id) (x : Nat) :
    (t.modifyJob id f).job x = (t.job x).map fun job => if x = id then f job else job := by
  have same : ((fun job : DurableJob => job.id == x) ∘
      fun job => if job.id = id then f job else job) = fun job => job.id == x := by
    funext job
    simp only [Function.comp_apply]
    split <;> simp [keeps]
  simp only [JobTables.job, JobTables.modifyJob, List.find?_map, same]
  cases found : t.jobs.find? (fun job => job.id == x) with
  | none => rfl
  | some job =>
    have named : job.id = x := by simpa using List.find?_some found
    simp [named]

lemma job_modifyJob_same {t : JobTables} {id : Nat} {f : DurableJob → DurableJob}
    {stored : DurableJob} (found : t.job id = some stored)
    (keeps : ∀ job, (f job).id = job.id) :
    (t.modifyJob id f).job id = some (f stored) := by
  rw [job_modifyJob t id keeps, found]
  simp

lemma ids_modifyJob (t : JobTables) (id : Nat) {f : DurableJob → DurableJob}
    (keeps : ∀ job, (f job).id = job.id) :
    (t.modifyJob id f).jobs.map DurableJob.id = t.jobs.map DurableJob.id := by
  simp only [JobTables.modifyJob, List.map_map]
  refine List.map_congr_left fun job _ => ?_
  simp only [Function.comp_apply]
  split
  · exact keeps job
  · rfl

lemma job_of_mem {t : JobTables} (unique : (t.jobs.map DurableJob.id).Nodup) {job : DurableJob}
    (member : job ∈ t.jobs) : t.job job.id = some job :=
  UniqueColumns.find_of_mem unique member

lemma id_of_job {t : JobTables} {id : Nat} {job : DurableJob} (found : t.job id = some job) :
    job.id = id := by
  simpa using List.find?_some found

/-- A dispatch row of the generation exists. -/
def JobTables.HasDispatch (t : JobTables) (id generation : Nat) : Prop :=
  (t.dispatch id generation).isSome

/-- The attempt is in the history of the job. -/
def JobTables.HasAttempt (t : JobTables) (id number : Nat) : Prop :=
  t.attempts.any fun a => a.jobId == id && a.attemptNumber == number

/-- Rows of dispatches and attempts are never lost. -/
structure HistoryKept (t t' : JobTables) : Prop where
  dispatch : ∀ id generation, t.HasDispatch id generation → t'.HasDispatch id generation
  attempt : ∀ id number, t.HasAttempt id number → t'.HasAttempt id number

lemma historyKept_refl (t : JobTables) : HistoryKept t t := ⟨fun _ _ h => h, fun _ _ h => h⟩

lemma HistoryKept.trans {t t' t'' : JobTables} (first : HistoryKept t t')
    (second : HistoryKept t' t'') : HistoryKept t t'' :=
  ⟨fun id generation h => second.dispatch id generation (first.dispatch id generation h),
    fun id number h => second.attempt id number (first.attempt id number h)⟩

lemma hasDispatch_iff (t : JobTables) (id generation : Nat) :
    t.HasDispatch id generation ↔ ∃ d ∈ t.dispatches, d.jobId = id ∧ d.generation = generation := by
  simp [JobTables.HasDispatch, JobTables.dispatch, List.find?_isSome]

lemma hasAttempt_iff (t : JobTables) (id number : Nat) :
    t.HasAttempt id number ↔ ∃ a ∈ t.attempts, a.jobId = id ∧ a.attemptNumber = number := by
  simp [JobTables.HasAttempt]

lemma historyKept_modifyJob (t : JobTables) (id : Nat) (f : DurableJob → DurableJob) :
    HistoryKept t (t.modifyJob id f) := ⟨fun _ _ h => h, fun _ _ h => h⟩

lemma historyKept_addTaskDispatch (t : JobTables) (id generation : Nat) (scheduleAt now : Instant) :
    HistoryKept t (t.addTaskDispatch id generation scheduleAt now) := by
  refine ⟨fun x g h => ?_, fun _ _ h => h⟩
  rw [hasDispatch_iff] at h ⊢
  obtain ⟨d, member, named⟩ := h
  exact ⟨d, List.mem_append_left _ member, named⟩

lemma hasDispatch_addTaskDispatch (t : JobTables) (id generation : Nat)
    (scheduleAt now : Instant) :
    (t.addTaskDispatch id generation scheduleAt now).HasDispatch id generation := by
  rw [hasDispatch_iff]
  exact ⟨_, List.mem_append_right _ (List.mem_singleton_self _), rfl, rfl⟩

lemma historyKept_modifyDispatch (t : JobTables) (id generation : Nat)
    {f : TaskDispatch → TaskDispatch}
    (keeps : ∀ d, (f d).jobId = d.jobId ∧ (f d).generation = d.generation) :
    HistoryKept t (t.modifyDispatch id generation f) := by
  refine ⟨fun x g h => ?_, fun _ _ h => h⟩
  rw [hasDispatch_iff] at h ⊢
  obtain ⟨d, member, named⟩ := h
  refine ⟨_, List.mem_map_of_mem member, ?_⟩
  split
  · rw [(keeps d).1, (keeps d).2]
    exact named
  · exact named

lemma historyKept_modifyAttempt (t : JobTables) (id number : Nat) {f : JobAttempt → JobAttempt}
    (keeps : ∀ a, (f a).jobId = a.jobId ∧ (f a).attemptNumber = a.attemptNumber) :
    HistoryKept t (t.modifyAttempt id number f) := by
  refine ⟨fun _ _ h => h, fun x n h => ?_⟩
  rw [hasAttempt_iff] at h ⊢
  obtain ⟨a, member, named⟩ := h
  refine ⟨_, List.mem_map_of_mem member, ?_⟩
  split
  · rw [(keeps a).1, (keeps a).2]
    exact named
  · exact named

lemma historyKept_fileOutcome (id attempt : Nat) (final : JobOutcome) (now : Instant)
    (retryAt : Option Instant) (safeErrorCode : Option String) (t : JobTables) :
    HistoryKept t (fileOutcome id attempt final now retryAt safeErrorCode t) := by
  unfold fileOutcome
  exact (historyKept_modifyJob t id _).trans (historyKept_modifyAttempt _ id attempt
    fun _ => ⟨rfl, rfl⟩)

/-! ## What the holder of a lease can do -/

/-- The row is leased to this attempt of this worker. -/
structure Leases (job : ClaimedJob) (stored : DurableJob) : Prop where
  owner : stored.leaseOwner = some job.leaseOwner
  attempt : stored.attemptCount = job.attempt

lemma heartbeat_cases (jobId : Nat) (workerId : String) (attempt : Nat) (leaseUntil : Instant)
    (t : JobTables) :
    (heartbeat jobId workerId attempt leaseUntil t = (false, t) ∧
        ∀ stored, t.job jobId = some stored →
          stored.leaseOwner = some workerId → stored.attemptCount = attempt →
            stored.state ≠ .leased) ∨
      ∃ stored, t.job jobId = some stored ∧ stored.leaseOwner = some workerId ∧
        stored.attemptCount = attempt ∧ stored.state = .leased ∧
        heartbeat jobId workerId attempt leaseUntil t =
          (true, t.modifyJob jobId fun job => { job with leaseUntil := some leaseUntil }) := by
  unfold heartbeat
  cases found : t.job jobId with
  | none => exact Or.inl ⟨rfl, fun _ missing => nomatch missing⟩
  | some stored =>
    simp only
    split
    · next lost =>
      refine Or.inl ⟨rfl, fun other same owner attempts => ?_⟩
      cases same
      rcases lost with lost | lost | lost
      · exact absurd owner lost
      · exact absurd attempts lost
      · exact lost
    · next held =>
      simp only [not_or, not_not] at held
      exact Or.inr ⟨stored, rfl, held.1, held.2.1, held.2.2, rfl⟩

lemma finish_ok {job : ClaimedJob} {outcome : JobOutcome} {now : Instant}
    {retryAt : Option Instant} {safeErrorCode : Option String} {t t' : JobTables}
    {target : Option (Nat × Nat)}
    (h : finish job outcome now retryAt safeErrorCode t = .ok (target, t')) :
    ∃ stored, t.job job.id = some stored ∧ Leases job stored ∧
      ((finalOutcome stored outcome ≠ .retry ∧ t' = fileOutcome job.id stored.attemptCount
          (finalOutcome stored outcome) now retryAt safeErrorCode t) ∨
        (finalOutcome stored outcome = .retry ∧ ∃ time, retryAt = some time ∧
          t' = (nextGeneration job.id (fileOutcome job.id stored.attemptCount .retry now retryAt
            safeErrorCode t)).addTaskDispatch job.id (stored.generation + 1) time now)) := by
  unfold finish at h
  cases found : t.job job.id with
  | none => simp only [found] at h; cases h
  | some stored =>
    simp only [found] at h
    split at h
    · cases h
    · next held =>
      rw [not_or, not_not, not_not] at held
      split at h
      · cases h
      · refine ⟨stored, rfl, ⟨held.1, held.2⟩, ?_⟩
        split at h
        · cases h
        · next time final =>
          cases h
          exact Or.inr ⟨final, time, rfl, by rw [final]⟩
        · rename_i supplied _ _ untimed timed
          cases h
          refine Or.inl ⟨fun retry => ?_, rfl⟩
          cases supplied with
          | none => exact untimed retry rfl
          | some time => exact timed time retry rfl

end JobClaims
