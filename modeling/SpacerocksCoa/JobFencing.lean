import SpacerocksCoa.JobRecovery
import SpacerocksCoa.LeaseHolders

/-!
# Attempts, leases and generations fence each other

Any number of workers, the operator and stale recovery on the job tables, in every order
and with a clock that advances by any amount. Heartbeats and finishes may come from
anyone, with any attempt number, late or twice; the tables decide. Beside the tables the
world keeps what was given out: the leases that claims and heartbeats granted and that
were not given back, and the attempts that were ended.

Attempt numbers and generations count without gaps, and this carries everything else.
-/
namespace JobFencing
open OrderStates JobClaims JobRecovery LeaseHolders

structure Lease where
  jobId : Nat
  attempt : Nat
  expires : Instant

structure FencedWorld where
  tables : JobTables
  now : Instant
  leases : List Lease
  /-- The attempts whose rows were closed, by a finish or by recovery. -/
  ended : List (Nat × Nat)

inductive FencedOperation where
  | enqueueOnce (spec : JobSpec) (availableAt : Instant) (freshId : Nat)
  | claim (workerId : String) (leaseFor : Int)
  | claimSpecific (jobId generation : Nat) (workerId : String) (leaseFor : Int)
  | heartbeat (jobId : Nat) (workerId : String) (attempt : Nat) (leaseUntil : Instant)
  | finish (job : ClaimedJob) (outcome : JobOutcome) (retryAt : Option Instant)
      (safeErrorCode : Option String)
  | replay (jobId : Nat)
  | recoverStale (staleGrace : Int) (limit : Nat)
  | recordDispatched (jobId generation : Nat)
  | recordDispatchFailure (jobId generation : Nat)
  | advance (duration : Nat)

def grant (w : FencedWorld) : Option (ClaimedJob × JobTables) → FencedWorld
  | none => w
  | some (claimed, tables) =>
    { w with
      tables := tables
      leases := w.leases ++ [⟨claimed.id, claimed.attempt, claimed.leaseUntil⟩] }

/-- The attempts that a recovery closes. -/
def expiredAttempts (t : JobTables) (recovered : List Nat) : List (Nat × Nat) :=
  recovered.filterMap fun id => (t.job id).bind fun job =>
    if job.leaseOwner.isSome then some (id, job.attemptCount) else none

def giveBack (w : FencedWorld) (tables : JobTables) (attempts : List (Nat × Nat)) : FencedWorld :=
  { w with
    tables := tables
    leases := w.leases.filter fun l => (l.jobId, l.attempt) ∉ attempts
    ended := w.ended ++ attempts }

def fencedStep (w : FencedWorld) : FencedOperation → FencedWorld
  | .enqueueOnce spec availableAt freshId =>
    { w with tables := (enqueueOnce spec availableAt w.now freshId w.tables).2 }
  | .claim workerId leaseFor => grant w (claim workerId w.now leaseFor w.tables)
  | .claimSpecific jobId generation workerId leaseFor =>
    match claimSpecific jobId generation workerId w.now leaseFor w.tables with
    | .ok claimed => grant w claimed
    | .error _ => w
  | .heartbeat jobId workerId attempt leaseUntil =>
    if (heartbeat jobId workerId attempt leaseUntil w.tables).1 then
      { w with
        tables := (heartbeat jobId workerId attempt leaseUntil w.tables).2
        leases := w.leases.map fun l =>
          if l.jobId = jobId ∧ l.attempt = attempt then { l with expires := leaseUntil } else l }
    else w
  | .finish job outcome retryAt safeErrorCode =>
    match finish job outcome w.now retryAt safeErrorCode w.tables with
    | .ok (_, tables) => giveBack w tables [(job.id, job.attempt)]
    | .error _ => w
  | .replay jobId =>
    match replay jobId w.now w.tables with
    | .ok (_, tables) => { w with tables := tables }
    | .error _ => w
  | .recoverStale staleGrace limit =>
    match recoverStaleDispatched staleGrace limit w.now w.tables with
    | .ok (targets, tables) =>
      giveBack w tables (expiredAttempts w.tables (targets.map Prod.fst))
    | .error _ => w
  | .recordDispatched jobId generation =>
    { w with tables := (recordDispatched jobId generation w.now w.tables).2 }
  | .recordDispatchFailure jobId generation =>
    { w with tables := recordDispatchFailure jobId generation w.tables }
  | .advance duration => { w with now := w.now + duration }

def fencedRun : List FencedOperation → FencedWorld → FencedWorld
  | [], w => w
  | op :: rest, w => fencedRun rest (fencedStep w op)

def unfenced (now : Instant) : FencedWorld := ⟨⟨[], [], []⟩, now, [], []⟩

/-! ## The rows of one job -/

def attemptsOf (t : JobTables) (id : Nat) : List JobAttempt :=
  t.attempts.filter fun a => a.jobId == id

def generationsOf (t : JobTables) (id : Nat) : List Nat :=
  (t.dispatches.filter fun d => d.jobId == id).map TaskDispatch.generation

/-- The attempt is in progress, in the hands of the worker. -/
def InProgress (attempts : List JobAttempt) (number : Nat) (workerId : String) : Prop :=
  ∃ a ∈ attempts, a.attemptNumber = number ∧ a.workerId = workerId ∧ a.finishedAt = none

/-- What a job row agrees on with its attempts and its dispatches. -/
structure RowKept (job : DurableJob) (attempts : List JobAttempt) (generations : List Nat) :
    Prop where
  dispatched : generations = List.range' 1 job.generation
  numbered : attempts.map JobAttempt.attemptNumber = List.range' 1 job.attemptCount
  permitted : job.attemptCount ≤ job.maxAttempts
  idle : job.state ≠ .leased → job.leaseOwner = none ∧ job.leaseUntil = none
  leased : job.state = .leased → ∃ workerId expires, job.leaseOwner = some workerId ∧
    job.leaseUntil = some expires ∧ InProgress attempts job.attemptCount workerId

def JobKept (t : JobTables) (id : Nat) : Prop :=
  match t.job id with
  | none => attemptsOf t id = [] ∧ generationsOf t id = []
  | some job => RowKept job (attemptsOf t id) (generationsOf t id)

structure TablesKept (t : JobTables) : Prop where
  unique : (t.jobs.map DurableJob.id).Nodup
  kept : ∀ id, JobKept t id

/-- Only the rows of one job change. -/
structure Touches (t t' : JobTables) (id : Nat) : Prop where
  ids : t'.jobs.map DurableJob.id = t.jobs.map DurableJob.id
  row : ∀ x, x ≠ id → t'.job x = t.job x
  attempts : ∀ x, x ≠ id → attemptsOf t' x = attemptsOf t x
  generations : ∀ x, x ≠ id → generationsOf t' x = generationsOf t x

lemma Touches.trans {t t' t'' : JobTables} {id : Nat} (first : Touches t t' id)
    (second : Touches t' t'' id) : Touches t t'' id :=
  ⟨second.ids.trans first.ids, fun x other => (second.row x other).trans (first.row x other),
    fun x other => (second.attempts x other).trans (first.attempts x other),
    fun x other => (second.generations x other).trans (first.generations x other)⟩

lemma jobKept_some {t : JobTables} {id : Nat} {job : DurableJob} (kept : TablesKept t)
    (found : t.job id = some job) : RowKept job (attemptsOf t id) (generationsOf t id) := by
  have here := kept.kept id
  simpa only [JobKept, found] using here

lemma tablesKept_of_touches {t t' : JobTables} {id : Nat} (kept : TablesKept t)
    (touches : Touches t t' id) (here : JobKept t' id) : TablesKept t' := by
  refine ⟨touches.ids ▸ kept.unique, fun x => ?_⟩
  by_cases same : x = id
  · rw [same]
    exact here
  · have before := kept.kept x
    rw [JobKept, touches.row x same, touches.attempts x same, touches.generations x same]
    exact before

lemma touches_modifyJob (t : JobTables) (id : Nat) {f : DurableJob → DurableJob}
    (keeps : ∀ job, (f job).id = job.id) :
    Touches t (t.modifyJob id f) id := by
  refine ⟨ids_modifyJob t id keeps, fun x other => ?_, fun _ _ => rfl, fun _ _ => rfl⟩
  rw [job_modifyJob t id keeps]
  cases t.job x with
  | none => rfl
  | some job => rw [Option.map_some, if_neg other]

/-- Changing one attempt of a job. -/
def changeAttempt (number : Nat) (f : JobAttempt → JobAttempt) (a : JobAttempt) : JobAttempt :=
  if a.attemptNumber = number then f a else a

lemma attemptsOf_modifyAttempt (t : JobTables) (id number : Nat) {f : JobAttempt → JobAttempt}
    (keeps : ∀ a, (f a).jobId = a.jobId) (x : Nat) :
    attemptsOf (t.modifyAttempt id number f) x =
      if x = id then (attemptsOf t x).map (changeAttempt number f) else attemptsOf t x := by
  have selects : ((fun a : JobAttempt => a.jobId == x) ∘
      fun a => if a.jobId = id ∧ a.attemptNumber = number then f a else a) =
        fun a => a.jobId == x := by
    funext a
    simp only [Function.comp_apply]
    split
    · rw [keeps]
    · rfl
  rw [attemptsOf, JobTables.modifyAttempt, List.filter_map, selects]
  by_cases same : x = id
  · rw [if_pos same]
    refine List.map_congr_left fun a member => ?_
    have named : a.jobId = id := by
      simpa [same] using (List.mem_filter.1 member).2
    simp [changeAttempt, named]
  · rw [if_neg same]
    refine (List.map_congr_left fun a member => ?_).trans (List.map_id _)
    have named : a.jobId = x := by simpa using (List.mem_filter.1 member).2
    simp [named, same]

lemma touches_modifyAttempt (t : JobTables) (id number : Nat) {f : JobAttempt → JobAttempt}
    (keeps : ∀ a, (f a).jobId = a.jobId) : Touches t (t.modifyAttempt id number f) id := by
  refine ⟨rfl, fun _ _ => rfl, fun x other => ?_, fun _ _ => rfl⟩
  rw [attemptsOf_modifyAttempt t id number keeps, if_neg other]

lemma generationsOf_modifyDispatch (t : JobTables) (id generation : Nat)
    {f : TaskDispatch → TaskDispatch}
    (keeps : ∀ d, (f d).jobId = d.jobId ∧ (f d).generation = d.generation) (x : Nat) :
    generationsOf (t.modifyDispatch id generation f) x = generationsOf t x := by
  have selects : ((fun d : TaskDispatch => d.jobId == x) ∘
      fun d => if d.jobId = id ∧ d.generation = generation then f d else d) =
        fun d => d.jobId == x := by
    funext d
    simp only [Function.comp_apply]
    split
    · rw [(keeps d).1]
    · rfl
  rw [generationsOf, JobTables.modifyDispatch, List.filter_map, selects, List.map_map]
  refine List.map_congr_left fun d _ => ?_
  simp only [Function.comp_apply]
  split
  · exact (keeps d).2
  · rfl

lemma generationsOf_addTaskDispatch (t : JobTables) (id generation : Nat)
    (scheduleAt now : Instant) (x : Nat) :
    generationsOf (t.addTaskDispatch id generation scheduleAt now) x =
      if x = id then generationsOf t x ++ [generation] else generationsOf t x := by
  rw [generationsOf, JobTables.addTaskDispatch, List.filter_append, List.map_append]
  by_cases same : x = id
  · simp [same, generationsOf]
  · simp [same, Ne.symm same, generationsOf]

lemma touches_addTaskDispatch (t : JobTables) (id generation : Nat) (scheduleAt now : Instant) :
    Touches t (t.addTaskDispatch id generation scheduleAt now) id := by
  refine ⟨rfl, fun _ _ => rfl, fun _ _ => rfl, fun x other => ?_⟩
  rw [generationsOf_addTaskDispatch, if_neg other]

lemma attemptNumbers_change (attempts : List JobAttempt) (number : Nat)
    {f : JobAttempt → JobAttempt} (keeps : ∀ a, (f a).attemptNumber = a.attemptNumber) :
    (attempts.map (changeAttempt number f)).map JobAttempt.attemptNumber =
      attempts.map JobAttempt.attemptNumber := by
  rw [List.map_map]
  refine List.map_congr_left fun a _ => ?_
  simp only [Function.comp_apply, changeAttempt]
  split
  · exact keeps a
  · rfl

lemma jobKept_of_row {t : JobTables} {id : Nat} {job : DurableJob} (found : t.job id = some job)
    (kept : RowKept job (attemptsOf t id) (generationsOf t id)) : JobKept t id := by
  simpa only [JobKept, found] using kept

lemma RowKept.owned {job : DurableJob} {attempts : List JobAttempt} {generations : List Nat}
    (kept : RowKept job attempts generations) {workerId : String}
    (owner : job.leaseOwner = some workerId) : job.state = .leased := by
  by_contra other
  rw [(kept.idle other).1] at owner
  cases owner

lemma next_number {numbers : List Nat} {n : Nat} (counted : numbers = List.range' 1 n) :
    numbers ++ [n + 1] = List.range' 1 (n + 1) := by
  rw [counted, List.range'_1_concat, Nat.add_comm 1 n]

/-! ## Each operation -/

lemma enqueueOnce_tables {spec : JobSpec} {availableAt now : Instant} {freshId : Nat}
    {t : JobTables} (kept : TablesKept t) :
    TablesKept (enqueueOnce spec availableAt now freshId t).2 ∧
      ∀ id job, t.job id = some job →
        (enqueueOnce spec availableAt now freshId t).2.job id = some job := by
  unfold enqueueOnce
  split
  · exact ⟨kept, fun _ _ found => found⟩
  · next unused =>
    have fresh : ∀ job ∈ t.jobs, job.id ≠ freshId := by
      intro job member used
      exact unused (List.any_eq_true.2 ⟨job, member, by simp [used]⟩)
    have missing : t.job freshId = none :=
      List.find?_eq_none.2 fun job member => by simpa using fresh job member
    have row : ∀ x, (insertJob spec availableAt now freshId t).job x =
        if x = freshId then some (newJob spec freshId availableAt now) else t.job x :=
      insertJob_job missing
    refine ⟨⟨?_, fun x => ?_⟩, fun id job found => ?_⟩
    · simp only [insertJob, JobTables.addTaskDispatch, List.map_append, List.nodup_append]
      refine ⟨kept.unique, List.nodup_singleton _, fun a member b last => ?_⟩
      obtain ⟨job, present, rfl⟩ := List.mem_map.1 member
      rw [List.mem_singleton.1 last]
      exact fresh job present
    · have generations : generationsOf (insertJob spec availableAt now freshId t) x =
          if x = freshId then generationsOf t x ++ [1] else generationsOf t x :=
        generationsOf_addTaskDispatch _ _ _ _ _ _
      have before := kept.kept x
      by_cases same : x = freshId
      · subst same
        rw [JobKept, missing] at before
        refine jobKept_of_row ((row x).trans (if_pos rfl)) ?_
        rw [if_pos rfl, before.2] at generations
        rw [generations]
        refine ⟨rfl, ?_, Nat.zero_le _, fun _ => ⟨rfl, rfl⟩, fun leased => JobState.noConfusion leased⟩
        change (attemptsOf t x).map _ = _
        rw [before.1]
        rfl
      · rw [if_neg same] at generations
        rw [JobKept, row x, if_neg same, generations]
        exact before
    · rw [row id, if_neg ?_]
      · exact found
      · intro same
        rw [same, missing] at found
        cases found

lemma lease_tables {t : JobTables} {job : DurableJob} (kept : TablesKept t)
    (found : t.job job.id = some job) (left : job.attemptCount < job.maxAttempts)
    (workerId : String) (now leaseFor : Int) :
    TablesKept (lease job workerId now leaseFor t).2 := by
  have before := jobKept_some kept found
  have row := (lease_job found workerId now leaseFor).2.1
  have attempts : ∀ x, attemptsOf (lease job workerId now leaseFor t).2 x =
      if x = job.id then attemptsOf t x ++
        [⟨job.id, job.attemptCount + 1, workerId, now, none, none, none⟩] else attemptsOf t x := by
    intro x
    rw [attemptsOf, lease, List.filter_append]
    by_cases same : x = job.id
    · simp [same, attemptsOf]
    · simp [same, Ne.symm same, attemptsOf]
  have touches : Touches t (lease job workerId now leaseFor t).2 job.id := by
    refine ⟨(touches_modifyJob t job.id fun _ => by rfl).ids,
      (touches_modifyJob t job.id fun _ => by rfl).row,
      fun x other => ?_, fun _ _ => rfl⟩
    rw [attempts, if_neg other]
  refine tablesKept_of_touches kept touches (jobKept_of_row row ?_)
  rw [attempts, if_pos rfl]
  refine ⟨before.dispatched, ?_, left, fun other => absurd rfl other, fun _ => ?_⟩
  · rw [List.map_append]
    exact next_number before.numbered
  · exact ⟨workerId, now + leaseFor, rfl, rfl, _, List.mem_append_right _ (List.mem_singleton_self _),
      rfl, rfl, rfl⟩

lemma heartbeat_tables {t : JobTables} {jobId attempt : Nat} {workerId : String}
    {leaseUntil : Instant} (kept : TablesKept t) :
    TablesKept (heartbeat jobId workerId attempt leaseUntil t).2 := by
  rcases heartbeat_cases jobId workerId attempt leaseUntil t with ⟨same, -⟩ |
    ⟨stored, found, -, -, leased, changed⟩
  · rw [same]
    exact kept
  · have before := jobKept_some kept found
    rw [changed]
    refine tablesKept_of_touches kept (touches_modifyJob t jobId fun _ => by rfl)
      (jobKept_of_row (job_modifyJob_same found fun _ => rfl) ?_)
    obtain ⟨owner, expires, owned, -, progress⟩ := before.leased leased
    exact ⟨before.dispatched, before.numbered, before.permitted, fun other => absurd leased other,
      fun _ => ⟨owner, leaseUntil, owned, rfl, progress⟩⟩

/-- The rows that a finish leaves before a new generation is made. -/
lemma fileOutcome_row {t : JobTables} {id : Nat} {stored : DurableJob} (kept : TablesKept t)
    (found : t.job id = some stored) (final : JobOutcome) (now : Instant)
    (retryAt : Option Instant) (safeErrorCode : Option String) :
    Touches t (fileOutcome id stored.attemptCount final now retryAt safeErrorCode t) id ∧
      (attemptsOf (fileOutcome id stored.attemptCount final now retryAt safeErrorCode t) id).map
        JobAttempt.attemptNumber = List.range' 1 stored.attemptCount := by
  have before := jobKept_some kept found
  refine ⟨?_, ?_⟩
  · unfold fileOutcome
    refine Touches.trans (touches_modifyJob t id fun _ => by rfl) (touches_modifyAttempt _ _ _ ?_)
    exact fun _ => rfl
  · unfold fileOutcome
    rw [attemptsOf_modifyAttempt _ _ _ ?_, if_pos rfl, attemptNumbers_change _ _ ?_]
    · exact before.numbered
    · exact fun _ => rfl
    · exact fun _ => rfl

lemma finish_tables {job : ClaimedJob} {outcome : JobOutcome} {now : Instant}
    {retryAt : Option Instant} {safeErrorCode : Option String} {t t' : JobTables}
    {target : Option (Nat × Nat)} (kept : TablesKept t)
    (filed : finish job outcome now retryAt safeErrorCode t = .ok (target, t')) :
    TablesKept t' ∧ ∃ stored stored', t.job job.id = some stored ∧ Leases job stored ∧
      t'.job job.id = some stored' ∧ stored'.attemptCount = stored.attemptCount ∧
        stored'.state ≠ .leased ∧ Touches t t' job.id := by
  obtain ⟨stored, found, leases, ⟨-, rfl⟩ | ⟨-, time, -, rfl⟩⟩ := finish_ok filed
  · obtain ⟨touches, numbers⟩ := fileOutcome_row kept found (finalOutcome stored outcome) now retryAt
      safeErrorCode
    have before := jobKept_some kept found
    refine ⟨tablesKept_of_touches kept touches (jobKept_of_row (fileOutcome_job found) ?_), stored,
      _, found, leases, fileOutcome_job found, rfl, not_leased _, touches⟩
    exact ⟨before.dispatched, numbers, before.permitted, fun _ => ⟨rfl, rfl⟩,
      fun leased => absurd leased (not_leased _)⟩
  · obtain ⟨touches, numbers⟩ := fileOutcome_row kept found .retry now retryAt safeErrorCode
    have before := jobKept_some kept found
    have touches' := (touches.trans (touches_modifyJob _ job.id fun _ => by rfl)).trans
      (touches_addTaskDispatch (nextGeneration job.id _) job.id (stored.generation + 1) time now)
    refine ⟨tablesKept_of_touches kept touches'
      (jobKept_of_row (nextGeneration_job (fileOutcome_job found)) ?_), stored, _, found, leases,
      nextGeneration_job (fileOutcome_job found), rfl, JobState.noConfusion, touches'⟩
    refine ⟨?_, numbers, before.permitted, fun _ => ⟨rfl, rfl⟩, JobState.noConfusion⟩
    rw [generationsOf_addTaskDispatch, if_pos rfl]
    exact next_number before.dispatched

lemma replay_tables {jobId : Nat} {now : Instant} {t t' : JobTables}
    {target : Option (Nat × Nat)} (kept : TablesKept t)
    (replayed : replay jobId now t = .ok (target, t')) :
    TablesKept t' ∧ (t' = t ∨ ∃ stored stored', t.job jobId = some stored ∧
      stored.state = .retry ∧ t'.job jobId = some stored' ∧
        stored'.attemptCount = stored.attemptCount ∧ stored'.state ≠ .leased ∧
          Touches t t' jobId) := by
  unfold replay at replayed
  cases found : t.job jobId with
  | none => simp only [found] at replayed; cases replayed
  | some stored =>
    simp only [found] at replayed
    split at replayed
    · cases replayed
      exact ⟨kept, Or.inl rfl⟩
    · split at replayed
      · cases replayed
      · next waiting =>
        cases replayed
        have before := jobKept_some kept found
        have row := job_modifyJob_same (f := fun job => { job with
            state := .available
            availableAt := now
            leaseOwner := none
            leaseUntil := none
            safeErrorCode := none
            maxAttempts := max job.maxAttempts (job.attemptCount + 10)
            permitted := Nat.le_trans job.permitted (Nat.le_max_left _ _)
            generation := job.generation + 1 }) found fun _ => rfl
        have touches := (touches_modifyJob t jobId (f := fun job => { job with
            state := .available
            availableAt := now
            leaseOwner := none
            leaseUntil := none
            safeErrorCode := none
            maxAttempts := max job.maxAttempts (job.attemptCount + 10)
            permitted := Nat.le_trans job.permitted (Nat.le_max_left _ _)
            generation := job.generation + 1 }) fun _ => rfl).trans
          (touches_addTaskDispatch _ jobId (stored.generation + 1) now now)
        refine ⟨tablesKept_of_touches kept touches (jobKept_of_row row ?_), Or.inr ⟨stored, _, rfl,
          not_not.1 waiting, row, rfl, JobState.noConfusion, touches⟩⟩
        refine ⟨?_, before.numbered, ?_, fun _ => ⟨rfl, rfl⟩, JobState.noConfusion⟩
        · rw [generationsOf_addTaskDispatch, if_pos rfl]
          exact next_number before.dispatched
        · change stored.attemptCount ≤ max stored.maxAttempts (stored.attemptCount + 10)
          omega

lemma supersede_generations (id generation : Nat) (t : JobTables) (x : Nat) :
    generationsOf (supersedeDispatch id generation t) x = generationsOf t x := by
  unfold supersedeDispatch
  refine generationsOf_modifyDispatch t id generation ?_ x
  exact fun _ => ⟨rfl, rfl⟩

lemma supersede_touches (id generation : Nat) (t : JobTables) :
    Touches t (supersedeDispatch id generation t) id :=
  ⟨rfl, fun _ _ => rfl, fun _ _ => rfl, fun x _ => supersede_generations id generation t x⟩

/-- Closing an expired attempt that is still open. -/
def closeExpired (now : Instant) (a : JobAttempt) : JobAttempt :=
  if a.finishedAt.isSome then a
  else
    { a with
      finishedAt := some now
      outcome := some .retry
      safeErrorCode := some "lease_expired_recovered" }

lemma closeExpired_same (now : Instant) (a : JobAttempt) :
    (closeExpired now a).jobId = a.jobId ∧
      (closeExpired now a).attemptNumber = a.attemptNumber := by
  unfold closeExpired
  split <;> exact ⟨rfl, rfl⟩

lemma release_touches (id attempt : Nat) (now : Instant) (t : JobTables) :
    Touches t (releaseLease id attempt now t) id :=
  (touches_modifyAttempt t id attempt (f := closeExpired now)
    fun a => (closeExpired_same now a).1).trans (touches_modifyJob _ id fun _ => by rfl)

lemma release_numbers (id attempt : Nat) (now : Instant) (t : JobTables) :
    (attemptsOf (releaseLease id attempt now t) id).map JobAttempt.attemptNumber =
      (attemptsOf t id).map JobAttempt.attemptNumber := by
  have changed : attemptsOf (releaseLease id attempt now t) id =
      (attemptsOf t id).map (changeAttempt attempt (closeExpired now)) :=
    (attemptsOf_modifyAttempt t id attempt (f := closeExpired now)
      (fun a => (closeExpired_same now a).1) id).trans (if_pos rfl)
  rw [changed, attemptNumbers_change]
  exact fun a => (closeExpired_same now a).2

lemma recoverJob_tables (now : Instant) {t : JobTables} {job : DurableJob} (kept : TablesKept t)
    (found : t.job job.id = some job) :
    TablesKept (recoverJob now t job) ∧ Touches t (recoverJob now t job) job.id ∧
      ∃ row, (recoverJob now t job).job job.id = some row ∧
        row.attemptCount = job.attemptCount ∧ row.state ≠ .leased := by
  have before := jobKept_some kept found
  have superseded := supersede_touches job.id job.generation t
  have generations := supersede_generations job.id job.generation t job.id
  have row : (supersedeDispatch job.id job.generation t).job job.id = some job := found
  unfold recoverJob
  split
  · have touches := ((superseded.trans (release_touches job.id job.attemptCount now _)).trans
      (touches_modifyJob _ job.id fun _ => by rfl)).trans
      (touches_addTaskDispatch (nextGeneration job.id _) job.id (job.generation + 1) now now)
    refine ⟨tablesKept_of_touches kept touches (jobKept_of_row
      (nextGeneration_job (releaseLease_job row)) ?_), touches, _,
        nextGeneration_job (releaseLease_job row), rfl, JobState.noConfusion⟩
    refine ⟨?_, ?_, before.permitted, fun _ => ⟨rfl, rfl⟩, JobState.noConfusion⟩
    · rw [generationsOf_addTaskDispatch, if_pos rfl]
      refine next_number (Eq.trans ?_ before.dispatched)
      exact generations
    · exact (release_numbers job.id job.attemptCount now _).trans before.numbered
  · next unowned =>
    have idle : job.state ≠ .leased := by
      intro leased
      obtain ⟨workerId, -, owner, -⟩ := before.leased leased
      rw [owner] at unowned
      exact unowned rfl
    have touches := (superseded.trans (touches_modifyJob _ job.id fun _ => by rfl)).trans
      (touches_addTaskDispatch (nextGeneration job.id _) job.id (job.generation + 1) now now)
    refine ⟨tablesKept_of_touches kept touches (jobKept_of_row (nextGeneration_job row) ?_),
      touches, _, nextGeneration_job row, rfl, idle⟩
    refine ⟨?_, before.numbered, before.permitted, before.idle, fun leased => absurd leased idle⟩
    rw [generationsOf_addTaskDispatch, if_pos rfl]
    refine next_number (Eq.trans ?_ before.dispatched)
    exact generations

/-- Recovered jobs keep their attempts and are leased by nobody; the others stay as they are. -/
lemma recoverJobs_tables (now : Instant) {stale : List DurableJob} {t : JobTables}
    (kept : TablesKept t) (distinct : (stale.map DurableJob.id).Nodup)
    (selected : ∀ job ∈ stale, t.job job.id = some job) :
    TablesKept (stale.foldl (recoverJob now) t) ∧
      (∀ x, x ∉ stale.map DurableJob.id → (stale.foldl (recoverJob now) t).job x = t.job x) ∧
      ∀ job ∈ stale, ∃ row, (stale.foldl (recoverJob now) t).job job.id = some row ∧
        row.attemptCount = job.attemptCount ∧ row.state ≠ .leased := by
  induction stale generalizing t with
  | nil => exact ⟨kept, fun _ _ => rfl, fun _ none => absurd none List.not_mem_nil⟩
  | cons job rest ih =>
    rw [List.map_cons, List.nodup_cons] at distinct
    obtain ⟨keptJob, touches, row, here, count, idle⟩ :=
      recoverJob_tables now kept (selected job List.mem_cons_self)
    have others : ∀ other ∈ rest, (recoverJob now t job).job other.id = some other := by
      intro other member
      rw [touches.row other.id]
      · exact selected other (List.mem_cons_of_mem _ member)
      · intro same
        exact distinct.1 (same ▸ List.mem_map_of_mem member)
    obtain ⟨keptRest, untouched, recovered⟩ := ih keptJob distinct.2 others
    refine ⟨keptRest, fun x outside => ?_, fun other member => ?_⟩
    · rw [List.map_cons, List.mem_cons, not_or] at outside
      exact (untouched x outside.2).trans (touches.row x outside.1)
    · rcases List.mem_cons.1 member with rfl | later
      · exact ⟨row, (untouched other.id distinct.1).trans here, count, idle⟩
      · exact recovered other later

lemma recoverStale_tables {staleGrace : Int} {limit : Nat} {now : Instant} {t t' : JobTables}
    {targets : List (Nat × Nat)} (kept : TablesKept t)
    (recovered : recoverStaleDispatched staleGrace limit now t = .ok (targets, t')) :
    TablesKept t' ∧ (targets.map Prod.fst).Nodup ∧
      (∀ x, x ∉ targets.map Prod.fst → t'.job x = t.job x) ∧
      ∀ x ∈ targets.map Prod.fst, ∃ job row, t.job x = some job ∧ t'.job x = some row ∧
        row.attemptCount = job.attemptCount ∧ row.state ≠ .leased := by
  unfold recoverStaleDispatched at recovered
  split at recovered
  · cases recovered
  · split at recovered
    · cases recovered
    · cases recovered
      generalize chosen : ((t.jobs.filter (staleCandidate (now - staleGrace) now t)).mergeSort
        (fun a b => decide (dispatchedOrder t a ≤ dispatchedOrder t b))).take limit = stale
      have names : (stale.map fun job => (job.id, job.generation + 1)).map Prod.fst =
          stale.map DurableJob.id := by
        rw [List.map_map]
        rfl
      have members : ∀ job ∈ stale, job ∈ t.jobs := by
        intro job member
        rw [← chosen] at member
        exact (List.mem_filter.1 (List.mem_mergeSort.1 (List.mem_of_mem_take member))).1
      have distinct : (stale.map DurableJob.id).Nodup := by
        rw [← chosen]
        have sorted := List.mergeSort_perm
          (t.jobs.filter (staleCandidate (now - staleGrace) now t))
          (fun a b => decide (dispatchedOrder t a ≤ dispatchedOrder t b))
        refine List.Nodup.sublist ((List.take_sublist _ _).map _) ?_
        exact (sorted.map DurableJob.id).nodup_iff.2
          (kept.unique.sublist (List.filter_sublist.map _))
      have selected := fun job member => job_of_mem kept.unique (members job member)
      obtain ⟨keptAll, untouched, idle⟩ := recoverJobs_tables now kept distinct selected
      rw [names]
      refine ⟨keptAll, distinct, untouched, fun x member => ?_⟩
      obtain ⟨job, stale, rfl⟩ := List.mem_map.1 member
      obtain ⟨row, here, count, free⟩ := idle job stale
      exact ⟨job, row, selected job stale, here, count, free⟩

/-! ## What was given out -/

/-- A lease that was not given back belongs to the attempt in progress, or has run out. -/
def Current (t : JobTables) (now : Instant) (l : Lease) : Prop :=
  ∃ job, t.job l.jobId = some job ∧ l.attempt ≤ job.attemptCount ∧
    (l.attempt = job.attemptCount → job.state = .leased ∧ job.leaseUntil = some l.expires) ∧
    (l.attempt < job.attemptCount → l.expires < now)

/-- An attempt that was ended is not in progress. -/
def Over (t : JobTables) (e : Nat × Nat) : Prop :=
  ∃ job, t.job e.1 = some job ∧ e.2 ≤ job.attemptCount ∧
    (e.2 = job.attemptCount → job.state ≠ .leased)

structure GrantsKept (w : FencedWorld) : Prop where
  tables : TablesKept w.tables
  current : ∀ l ∈ w.leases, Current w.tables w.now l
  past : ∀ e ∈ w.ended, Over w.tables e
  once : w.ended.Nodup

section
variable {t t' : JobTables} {now : Instant} {id : Nat} {stored stored' : DurableJob}

lemma current_of_same {l : Lease} (same : t'.job l.jobId = t.job l.jobId)
    (current : Current t now l) : Current t' now l := by
  rw [Current, same]
  exact current

lemma over_of_same {e : Nat × Nat} (same : t'.job e.1 = t.job e.1) (past : Over t e) :
    Over t' e := by
  rw [Over, same]
  exact past

/-- A row that is leased to nobody afterwards and counts the same attempts. -/
lemma current_of_idle {l : Lease} (touches : ∀ x, x ≠ id → t'.job x = t.job x)
    (before : t.job id = some stored) (after : t'.job id = some stored')
    (count : stored'.attemptCount = stored.attemptCount)
    (earlier : l.jobId = id → l.attempt ≠ stored.attemptCount) (current : Current t now l) :
    Current t' now l := by
  by_cases here : l.jobId = id
  · obtain ⟨job, found, below, -, gone⟩ := current
    rw [here, before] at found
    cases found
    have different := earlier here
    refine ⟨stored', here ▸ after, by omega, fun same => ?_, fun _ => gone (by omega)⟩
    exact absurd (same.trans count) different
  · exact current_of_same (touches _ here) current

lemma over_of_idle {e : Nat × Nat} (touches : ∀ x, x ≠ id → t'.job x = t.job x)
    (before : t.job id = some stored) (after : t'.job id = some stored')
    (count : stored'.attemptCount = stored.attemptCount) (idle : stored'.state ≠ .leased)
    (past : Over t e) : Over t' e := by
  by_cases here : e.1 = id
  · obtain ⟨job, found, below, -⟩ := past
    rw [here, before] at found
    cases found
    exact ⟨stored', here ▸ after, by omega, fun _ => idle⟩
  · exact over_of_same (touches _ here) past

/-- A claim takes a job whose earlier lease has run out. -/
structure Taken (t : JobTables) (now : Instant) (job : DurableJob) : Prop where
  found : t.job job.id = some job
  left : job.attemptCount < job.maxAttempts
  expired : ∀ expires, job.leaseUntil = some expires → expires < now

lemma claim_taken {workerId : String} {leaseFor : Int} {c : ClaimedJob × JobTables}
    (kept : TablesKept t) (taken : claim workerId now leaseFor t = some c) :
    ∃ job, Taken t now job ∧ c = lease job workerId now leaseFor t := by
  obtain ⟨job, best, rfl⟩ := Option.map_eq_some_iff.1 taken
  obtain ⟨member, selected⟩ := List.mem_filter.1 (List.argmin_mem best)
  simp only [claimQuery, Bool.and_eq_true, decide_eq_true_eq, Option.all_eq_true] at selected
  exact ⟨job, ⟨job_of_mem kept.unique member, selected.2, selected.1.2⟩, rfl⟩

lemma claimSpecific_taken {jobId generation : Nat} {workerId : String} {leaseFor : Int}
    {c : ClaimedJob × JobTables}
    (taken : claimSpecific jobId generation workerId now leaseFor t = .ok (some c)) :
    ∃ job, Taken t now job ∧ job.id = jobId ∧ job.generation = generation ∧
      c = lease job workerId now leaseFor t := by
  unfold claimSpecific at taken
  split at taken
  · cases taken
  · cases found : t.job jobId with
    | none => simp only [found] at taken; cases taken
    | some job =>
      simp only [found] at taken
      split at taken
      · cases taken
      · split at taken
        · cases taken
        · next generation' =>
          iterate 2 (split at taken; · cases taken)
          split at taken
          · cases taken
          · next expired =>
            split at taken
            · cases taken
            · next left =>
              cases taken
              have named := id_of_job found
              refine ⟨job, ⟨by rw [named]; exact found, Nat.lt_of_not_le left, ?_⟩, named,
                not_not.1 generation', rfl⟩
              intro expires until_
              rw [until_] at expired
              simpa using expired

end

lemma grant_kept {w : FencedWorld} (kept : GrantsKept w) {workerId : String} {leaseFor : Int}
    {job : DurableJob} (taken : Taken w.tables w.now job) :
    GrantsKept (grant w (some (lease job workerId w.now leaseFor w.tables))) := by
  have found := taken.found
  obtain ⟨changes, row, -⟩ := lease_job found workerId w.now leaseFor
  have counted : (leasedRow workerId w.now leaseFor job).attemptCount = job.attemptCount + 1 := rfl
  refine ⟨lease_tables kept.tables found taken.left workerId w.now leaseFor, ?_, ?_, kept.once⟩
  · intro l member
    rcases List.mem_append.1 member with old | new
    · have before := kept.current l old
      by_cases here : l.jobId = job.id
      · obtain ⟨stored, same, below, inProgress, gone⟩ := before
        rw [here, found] at same
        cases same
        have expired : l.expires < w.now := by
          rcases Nat.lt_or_eq_of_le below with earlier | last
          · exact gone earlier
          · exact taken.expired _ (inProgress last).2
        refine ⟨_, here ▸ row, by omega, fun same => ?_, fun _ => expired⟩
        omega
      · exact current_of_same (changes.others _ here) before
    · cases List.mem_singleton.1 new
      exact ⟨_, row, le_rfl, fun _ => ⟨rfl, rfl⟩, fun less => absurd less (Nat.lt_irrefl _)⟩
  · intro e member
    have before := kept.past e member
    by_cases here : e.1 = job.id
    · obtain ⟨stored, same, below, -⟩ := before
      rw [here, found] at same
      cases same
      exact ⟨_, here ▸ row, by omega, fun same => by omega⟩
    · exact over_of_same (changes.others _ here) before

lemma heartbeat_grants {w : FencedWorld} (kept : GrantsKept w) {jobId attempt : Nat}
    {workerId : String} {leaseUntil : Instant} :
    GrantsKept (fencedStep w (.heartbeat jobId workerId attempt leaseUntil)) := by
  have tables : TablesKept (heartbeat jobId workerId attempt leaseUntil w.tables).2 :=
    heartbeat_tables kept.tables
  rcases heartbeat_cases jobId workerId attempt leaseUntil w.tables with ⟨same, -⟩ |
    ⟨stored, found, -, count, leased, changed⟩
  · simp only [fencedStep, same, Bool.false_eq_true, if_false]
    exact kept
  · rw [changed] at tables
    simp only [fencedStep, changed, if_true]
    have row := job_modifyJob_same
      (f := fun job : DurableJob => { job with leaseUntil := some leaseUntil }) found fun _ => rfl
    have touches := touches_modifyJob w.tables jobId
      (f := fun job : DurableJob => { job with leaseUntil := some leaseUntil }) fun _ => rfl
    refine ⟨tables, ?_, ?_, kept.once⟩
    · intro l member
      obtain ⟨old, before, rfl⟩ := List.mem_map.1 member
      have current := kept.current old before
      by_cases here : old.jobId = jobId
      · obtain ⟨job, same, below, inProgress, gone⟩ := current
        rw [here, found] at same
        cases same
        by_cases this : old.attempt = attempt
        · rw [if_pos ⟨here, this⟩]
          refine ⟨{ stored with leaseUntil := some leaseUntil }, here ▸ row, below,
            fun _ => ⟨leased, rfl⟩, fun less => ?_⟩
          exact absurd (this.trans count.symm) (Nat.ne_of_lt less)
        · rw [if_neg fun both => this both.2]
          refine ⟨{ stored with leaseUntil := some leaseUntil }, here ▸ row, below, fun last => ?_,
            gone⟩
          exact absurd (last.trans count) this
      · rw [if_neg fun both => here both.1]
        exact current_of_same (touches.row _ here) current
    · intro e member
      have past := kept.past e member
      by_cases here : e.1 = jobId
      · obtain ⟨job, same, below, ended⟩ := past
        rw [here, found] at same
        cases same
        exact ⟨{ stored with leaseUntil := some leaseUntil }, here ▸ row, below,
          fun last => absurd leased (ended last)⟩
      · exact over_of_same (touches.row _ here) past

lemma mem_expiredAttempts {t : JobTables} {recovered : List Nat} {e : Nat × Nat} :
    e ∈ expiredAttempts t recovered ↔ e.1 ∈ recovered ∧ ∃ job, t.job e.1 = some job ∧
      job.leaseOwner.isSome = true ∧ e.2 = job.attemptCount := by
  rw [expiredAttempts, List.mem_filterMap]
  constructor
  · rintro ⟨id, member, selected⟩
    obtain ⟨job, found, named⟩ := Option.bind_eq_some_iff.1 selected
    split at named
    · next owned =>
      cases named
      exact ⟨member, job, found, owned, rfl⟩
    · cases named
  · rintro ⟨member, job, found, owned, count⟩
    refine ⟨e.1, member, ?_⟩
    rw [found, Option.bind_some, if_pos owned, ← count]

lemma nodup_expiredAttempts {t : JobTables} {recovered : List Nat} (distinct : recovered.Nodup) :
    (expiredAttempts t recovered).Nodup := by
  refine distinct.filterMap fun id id' e first second => ?_
  obtain ⟨job, -, named⟩ := Option.bind_eq_some_iff.1 first
  obtain ⟨job', -, named'⟩ := Option.bind_eq_some_iff.1 second
  split at named
  · split at named'
    · exact congrArg Prod.fst ((Option.some.inj named).trans (Option.some.inj named').symm)
    · cases named'
  · cases named

lemma finish_grants {w : FencedWorld} (kept : GrantsKept w) {job : ClaimedJob}
    {outcome : JobOutcome} {retryAt : Option Instant} {safeErrorCode : Option String}
    {target : Option (Nat × Nat)} {tables : JobTables}
    (filed : finish job outcome w.now retryAt safeErrorCode w.tables = .ok (target, tables)) :
    GrantsKept (giveBack w tables [(job.id, job.attempt)]) := by
  obtain ⟨keptTables, stored, stored', before, leases, after, count, idle, touches⟩ :=
    finish_tables kept.tables filed
  have inProgress := (jobKept_some kept.tables before).owned leases.owner
  refine ⟨keptTables, ?_, ?_, ?_⟩
  · intro l member
    obtain ⟨old, remains⟩ := List.mem_filter.1 member
    refine current_of_idle touches.row before after count (fun here last => ?_) (kept.current l old)
    rw [leases.attempt] at last
    simp [here, last] at remains
  · intro e member
    rcases List.mem_append.1 member with old | new
    · exact over_of_idle touches.row before after count idle (kept.past e old)
    · cases List.mem_singleton.1 new
      exact ⟨stored', after, by rw [count, leases.attempt], fun _ => idle⟩
  · refine List.nodup_append.2 ⟨kept.once, List.nodup_singleton _, ?_⟩
    intro e old e' new same
    cases List.mem_singleton.1 new
    rw [same] at old
    obtain ⟨job', found, -, ended⟩ := kept.past _ old
    rw [before] at found
    cases found
    exact ended leases.attempt.symm inProgress

lemma recoverStale_grants {w : FencedWorld} (kept : GrantsKept w) {staleGrace : Int} {limit : Nat}
    {targets : List (Nat × Nat)} {tables : JobTables}
    (recovered : recoverStaleDispatched staleGrace limit w.now w.tables = .ok (targets, tables)) :
    GrantsKept (giveBack w tables (expiredAttempts w.tables (targets.map Prod.fst))) := by
  obtain ⟨keptTables, distinct, untouched, freed⟩ := recoverStale_tables kept.tables recovered
  refine ⟨keptTables, ?_, ?_, ?_⟩
  · intro l member
    obtain ⟨old, remains⟩ := List.mem_filter.1 member
    have current := kept.current l old
    by_cases chosen : l.jobId ∈ targets.map Prod.fst
    · obtain ⟨job, row, before, after, count, -⟩ := freed l.jobId chosen
      obtain ⟨job', found, below, inProgress, gone⟩ := current
      rw [before] at found
      cases found
      have earlier : l.attempt ≠ job.attemptCount := by
        intro last
        obtain ⟨workerId, -, owner, -⟩ :=
          (jobKept_some kept.tables before).leased (inProgress last).1
        have closed : (l.jobId, l.attempt) ∈
            expiredAttempts w.tables (targets.map Prod.fst) :=
          mem_expiredAttempts.2 ⟨chosen, job, before, by rw [owner]; rfl, last⟩
        simp [closed] at remains
      exact ⟨row, after, by omega, fun same => absurd (same.trans count) earlier,
        fun _ => gone (by omega)⟩
    · exact current_of_same (untouched _ chosen) current
  · intro e member
    rcases List.mem_append.1 member with old | new
    · have past := kept.past e old
      by_cases chosen : e.1 ∈ targets.map Prod.fst
      · obtain ⟨job, row, before, after, count, idle⟩ := freed e.1 chosen
        obtain ⟨job', found, below, -⟩ := past
        rw [before] at found
        cases found
        exact ⟨row, after, by omega, fun _ => idle⟩
      · exact over_of_same (untouched _ chosen) past
    · obtain ⟨chosen, job, before, -, last⟩ := mem_expiredAttempts.1 new
      obtain ⟨job', row, found, after, count, idle⟩ := freed e.1 chosen
      rw [before] at found
      cases found
      exact ⟨row, after, by omega, fun _ => idle⟩
  · refine List.nodup_append.2 ⟨kept.once, nodup_expiredAttempts distinct, ?_⟩
    intro e old e' new same
    subst same
    obtain ⟨-, job, before, owned, last⟩ := mem_expiredAttempts.1 new
    obtain ⟨job', found, -, ended⟩ := kept.past e old
    rw [before] at found
    cases found
    obtain ⟨workerId, owner⟩ := Option.isSome_iff_exists.1 owned
    exact ended last ((jobKept_some kept.tables before).owned owner)

lemma recordDispatched_rows (jobId generation : Nat) (now : Instant) (t : JobTables) :
    (recordDispatched jobId generation now t).2.jobs = t.jobs ∧
      (recordDispatched jobId generation now t).2.attempts = t.attempts ∧
      ∀ x, generationsOf (recordDispatched jobId generation now t).2 x = generationsOf t x := by
  unfold recordDispatched
  split
  · refine ⟨rfl, rfl, fun x => generationsOf_modifyDispatch t jobId generation ?_ x⟩
    exact fun _ => ⟨rfl, rfl⟩
  · exact ⟨rfl, rfl, fun _ => rfl⟩

lemma recordDispatchFailure_rows (jobId generation : Nat) (t : JobTables) :
    (recordDispatchFailure jobId generation t).jobs = t.jobs ∧
      (recordDispatchFailure jobId generation t).attempts = t.attempts ∧
      ∀ x, generationsOf (recordDispatchFailure jobId generation t) x = generationsOf t x := by
  unfold recordDispatchFailure
  split
  · refine ⟨rfl, rfl, fun x => generationsOf_modifyDispatch t jobId generation ?_ x⟩
    exact fun _ => ⟨rfl, rfl⟩
  · exact ⟨rfl, rfl, fun _ => rfl⟩

/-- Bookkeeping of tasks leaves jobs, attempts and generations alone. -/
lemma grants_of_rows {w : FencedWorld} (kept : GrantsKept w) {tables : JobTables}
    (rows : tables.jobs = w.tables.jobs ∧ tables.attempts = w.tables.attempts ∧
      ∀ x, generationsOf tables x = generationsOf w.tables x) :
    GrantsKept { w with tables := tables } := by
  obtain ⟨jobs, attempts, generations⟩ := rows
  have row : ∀ x, tables.job x = w.tables.job x := by
    intro x
    rw [JobTables.job, JobTables.job, jobs]
  refine ⟨⟨jobs ▸ kept.tables.unique, fun x => ?_⟩, fun l member => ?_, fun e member => ?_, kept.once⟩
  · have before := kept.tables.kept x
    have same : attemptsOf tables x = attemptsOf w.tables x := by
      rw [attemptsOf, attemptsOf, attempts]
    rw [JobKept, row x, same, generations x]
    exact before
  · exact current_of_same (row _) (kept.current l member)
  · exact over_of_same (row _) (kept.past e member)

/-! ## Every run -/

lemma fencedStep_kept (op : FencedOperation) {w : FencedWorld} (kept : GrantsKept w) :
    GrantsKept (fencedStep w op) := by
  cases op with
  | enqueueOnce spec availableAt freshId =>
    obtain ⟨tables, rows⟩ : TablesKept (enqueueOnce spec availableAt w.now freshId w.tables).2 ∧
        ∀ id job, w.tables.job id = some job →
          (enqueueOnce spec availableAt w.now freshId w.tables).2.job id = some job :=
      enqueueOnce_tables kept.tables
    refine ⟨tables, fun l member => ?_, fun e member => ?_, kept.once⟩
    · obtain ⟨job, found, current⟩ := kept.current l member
      exact ⟨job, rows _ _ found, current⟩
    · obtain ⟨job, found, past⟩ := kept.past e member
      exact ⟨job, rows _ _ found, past⟩
  | claim workerId leaseFor =>
    simp only [fencedStep]
    cases taken : claim workerId w.now leaseFor w.tables with
    | none => exact kept
    | some c =>
      obtain ⟨job, takes, rfl⟩ := claim_taken kept.tables taken
      exact grant_kept kept takes
  | claimSpecific jobId generation workerId leaseFor =>
    simp only [fencedStep]
    cases taken : claimSpecific jobId generation workerId w.now leaseFor w.tables with
    | error e => exact kept
    | ok claimed =>
      cases claimed with
      | none => exact kept
      | some c =>
        obtain ⟨job, takes, -, -, rfl⟩ := claimSpecific_taken taken
        exact grant_kept kept takes
  | heartbeat jobId workerId attempt leaseUntil => exact heartbeat_grants kept
  | finish job outcome retryAt safeErrorCode =>
    simp only [fencedStep]
    split
    · next filed => exact finish_grants kept filed
    · exact kept
  | replay jobId =>
    simp only [fencedStep]
    split
    · next replayed =>
      obtain ⟨tables, rfl | ⟨stored, stored', before, waiting, after, count, idle, touches⟩⟩ :=
        replay_tables kept.tables replayed
      · exact kept
      · refine ⟨tables, fun l member => ?_, fun e member => ?_, kept.once⟩
        · have current := kept.current l member
          refine current_of_idle touches.row before after count (fun here last => ?_) current
          obtain ⟨job, found, -, inProgress, -⟩ := current
          rw [here, before] at found
          cases found
          rw [(inProgress last).1] at waiting
          cases waiting
        · exact over_of_idle touches.row before after count idle (kept.past e member)
    · exact kept
  | recoverStale staleGrace limit =>
    simp only [fencedStep]
    split
    · next recovered => exact recoverStale_grants kept recovered
    · exact kept
  | recordDispatched jobId generation => exact grants_of_rows kept (recordDispatched_rows _ _ _ _)
  | recordDispatchFailure jobId generation =>
    exact grants_of_rows kept (recordDispatchFailure_rows _ _ _)
  | advance duration =>
    refine ⟨kept.tables, fun l member => ?_, kept.past, kept.once⟩
    obtain ⟨job, found, below, inProgress, gone⟩ := kept.current l member
    refine ⟨job, found, below, inProgress, fun earlier => ?_⟩
    exact Int.lt_of_lt_of_le (gone earlier)
      (Int.le_add_of_nonneg_right (Int.natCast_nonneg duration))

lemma fencedRun_kept (ops : List FencedOperation) {w : FencedWorld} (kept : GrantsKept w) :
    GrantsKept (fencedRun ops w) := by
  induction ops generalizing w with
  | nil => exact kept
  | cons op rest ih => exact ih (fencedStep_kept op kept)

lemma unfenced_kept (now : Instant) : GrantsKept (unfenced now) :=
  ⟨⟨List.nodup_nil, fun _ => ⟨rfl, rfl⟩⟩, fun _ none => absurd none List.not_mem_nil,
    fun _ none => absurd none List.not_mem_nil, List.nodup_nil⟩

/-- The attempt is the latest one of its job, in progress and in the hands of the worker. -/
structure LatestHolder (t : JobTables) (jobId : Nat) (workerId : String) (attempt : Nat) : Prop where
  leased : ∃ job, t.job jobId = some job ∧ job.state = .leased ∧ job.attemptCount = attempt
  open_ : ∃ a ∈ t.attempts, a.jobId = jobId ∧ a.attemptNumber = attempt ∧ a.workerId = workerId ∧
    a.finishedAt = none
  latest : ∀ a ∈ t.attempts, a.jobId = jobId → a.attemptNumber ≤ attempt

/-- What the tables guarantee to everyone at any time. -/
structure Fenced (w : FencedWorld) : Prop where
  dispatches : ∀ job ∈ w.tables.jobs, ∀ generation,
    (w.tables.dispatches.filter fun d =>
      d.jobId == job.id && d.generation == generation).length =
        if 1 ≤ generation ∧ generation ≤ job.generation then 1 else 0
  attempts : ∀ job ∈ w.tables.jobs, job.attemptCount ≤ job.maxAttempts
  exclusive : ∀ l ∈ w.leases, ∀ l' ∈ w.leases, l.jobId = l'.jobId → w.now ≤ l.expires →
    w.now ≤ l'.expires → l.attempt = l'.attempt
  heartbeats : ∀ jobId workerId attempt leaseUntil,
    (heartbeat jobId workerId attempt leaseUntil w.tables).1 = true →
      LatestHolder w.tables jobId workerId attempt
  finishes : ∀ job outcome now retryAt safeErrorCode result,
    finish job outcome now retryAt safeErrorCode w.tables = .ok result →
      LatestHolder w.tables job.id job.leaseOwner job.attempt
  once : w.ended.Nodup
  stale : ∀ job ∈ w.tables.jobs, ∀ generation < job.generation, ∀ workerId now leaseFor claimed,
    claimSpecific job.id generation workerId now leaseFor w.tables ≠ .ok (some claimed)

lemma count_dispatches (t : JobTables) (id generation : Nat) :
    (t.dispatches.filter fun d => d.jobId == id && d.generation == generation).length =
      (generationsOf t id).count generation := by
  rw [generationsOf, List.count, List.countP_map, List.countP_eq_length_filter, List.filter_filter]
  congr 2
  funext d
  rw [Bool.and_comm]
  rfl

lemma latestHolder_of_owner {t : JobTables} (kept : TablesKept t) {id : Nat} {job : DurableJob}
    (found : t.job id = some job) {workerId : String} (owner : job.leaseOwner = some workerId) :
    LatestHolder t id workerId job.attemptCount := by
  have row := jobKept_some kept found
  have leased := row.owned owner
  obtain ⟨worker, -, owned, -, a, member, number, holder, unfinished⟩ := row.leased leased
  rw [owner] at owned
  cases owned
  obtain ⟨stored, named⟩ := List.mem_filter.1 member
  refine ⟨⟨job, found, leased, rfl⟩, ⟨a, stored, by simpa using named, number, holder, unfinished⟩,
    fun other present same => ?_⟩
  have listed : other.attemptNumber ∈ (attemptsOf t id).map JobAttempt.attemptNumber :=
    List.mem_map_of_mem (List.mem_filter.2 ⟨present, by simpa using same⟩)
  rw [row.numbered, List.mem_range'_1] at listed
  omega

lemma current_of_unexpired {t : JobTables} {now : Instant} {l : Lease} (current : Current t now l)
    (unexpired : now ≤ l.expires) :
    ∃ job, t.job l.jobId = some job ∧ l.attempt = job.attemptCount := by
  obtain ⟨job, found, below, -, gone⟩ := current
  refine ⟨job, found, ?_⟩
  rcases Nat.lt_or_eq_of_le below with earlier | last
  · exact absurd (gone earlier) (Int.not_lt.2 unexpired)
  · exact last

/-- Whatever is called by whomever and in whatever order, the attempts, leases and generations
of the jobs stay fenced. -/
theorem jobs_are_fenced (now : Instant) (ops : List FencedOperation) :
    Fenced (fencedRun ops (unfenced now)) := by
  have kept := fencedRun_kept ops (unfenced_kept now)
  have unique := kept.tables.unique
  constructor
  · intro job member generation
    have row := jobKept_some kept.tables (job_of_mem unique member)
    rw [count_dispatches, row.dispatched]
    have between : generation ∈ List.range' 1 job.generation ↔
        1 ≤ generation ∧ generation ≤ job.generation := by
      rw [List.mem_range'_1]
      omega
    by_cases given : 1 ≤ generation ∧ generation ≤ job.generation
    · rw [if_pos given]
      exact List.count_eq_one_of_mem List.nodup_range' (between.2 given)
    · rw [if_neg given]
      exact List.count_eq_zero.2 fun listed => given (between.1 listed)
  · intro job member
    exact (jobKept_some kept.tables (job_of_mem unique member)).permitted
  · intro l member l' member' same unexpired unexpired'
    obtain ⟨job, found, last⟩ := current_of_unexpired (kept.current l member) unexpired
    obtain ⟨job', found', last'⟩ := current_of_unexpired (kept.current l' member') unexpired'
    rw [same, found'] at found
    cases found
    rw [last, last']
  · intro jobId workerId attempt leaseUntil beats
    rcases heartbeat_cases jobId workerId attempt leaseUntil (fencedRun ops (unfenced now)).tables
      with ⟨failed, -⟩ | ⟨job, found, owner, count, -⟩
    · rw [failed] at beats
      cases beats
    · rw [← count]
      exact latestHolder_of_owner kept.tables found owner
  · intro job outcome time retryAt safeErrorCode result filed
    obtain ⟨stored, found, leases, -⟩ := finish_ok filed
    rw [← leases.attempt]
    exact latestHolder_of_owner kept.tables found leases.owner
  · exact kept.once
  · intro job member generation earlier workerId time leaseFor claimed taken
    obtain ⟨stored, takes, named, current, -⟩ := claimSpecific_taken taken
    have found := takes.found
    rw [named, job_of_mem unique member] at found
    cases found
    omega

end JobFencing
