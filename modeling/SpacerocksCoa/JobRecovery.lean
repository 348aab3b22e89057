import SpacerocksCoa.JobClaims

/-!
# Which jobs can still be taken

The job tables under every operation on them, with the clock and the claims whose worker
is still alive. A crash is the loss of a claim at any moment. The invariant says what the
tables record about each job; from it follows which operation can take an unfinished job
whose lease has expired, and that a job whose worker crashed in its last permitted attempt
is taken by none.

Nothing is claimed about an operator or a scheduler that never acts.
-/
namespace JobRecovery
open OrderStates JobClaims

structure JobWorld where
  tables : JobTables
  now : Instant
  live : List ClaimedJob

inductive JobOperation where
  | enqueue (spec : JobSpec) (availableAt : Instant) (freshId : Nat)
  | claim (workerId : String) (leaseFor : Int)
  | claimSpecific (jobId generation : Nat) (workerId : String) (leaseFor : Int)
  | heartbeat (holder : Nat) (leaseUntil : Instant)
  | finish (holder : Nat) (outcome : JobOutcome) (retryAt : Option Instant)
      (safeErrorCode : Option String)
  | replay (jobId : Nat)
  | recoverStale (staleGrace : Int) (limit : Nat)
  | recordDispatched (jobId generation : Nat)
  | recordDispatchFailure (jobId generation : Nat)
  | crash (holder : Nat)
  | advance (duration : Nat)

def takeClaim (w : JobWorld) : Option (ClaimedJob × JobTables) → JobWorld
  | none => w
  | some (claimed, tables) => { w with tables := tables, live := w.live ++ [claimed] }

/-- A finished worker holds its claim no longer, whether or not the tables accepted it. -/
def finishClaim (w : JobWorld) (holder : Nat) (claimed : ClaimedJob) (outcome : JobOutcome)
    (retryAt : Option Instant) (safeErrorCode : Option String) : JobWorld :=
  match finish claimed outcome w.now retryAt safeErrorCode w.tables with
  | .ok (_, tables) => { w with tables := tables, live := w.live.eraseIdx holder }
  | .error _ => { w with live := w.live.eraseIdx holder }

def step (w : JobWorld) : JobOperation → JobWorld
  | .enqueue spec availableAt freshId =>
    { w with tables := (enqueueOnce spec availableAt w.now freshId w.tables).2 }
  | .claim workerId leaseFor => takeClaim w (claim workerId w.now leaseFor w.tables)
  | .claimSpecific jobId generation workerId leaseFor =>
    match claimSpecific jobId generation workerId w.now leaseFor w.tables with
    | .ok claimed => takeClaim w claimed
    | .error _ => w
  | .heartbeat holder leaseUntil =>
    match w.live[holder]? with
    | none => w
    | some claimed => { w with tables :=
        (heartbeat claimed.id claimed.leaseOwner claimed.attempt leaseUntil w.tables).2 }
  | .finish holder outcome retryAt safeErrorCode =>
    match w.live[holder]? with
    | none => w
    | some claimed => finishClaim w holder claimed outcome retryAt safeErrorCode
  | .replay jobId =>
    match replay jobId w.now w.tables with
    | .ok (_, tables) => { w with tables := tables }
    | .error _ => w
  | .recoverStale staleGrace limit =>
    match recoverStaleDispatched staleGrace limit w.now w.tables with
    | .ok (_, tables) => { w with tables := tables }
    | .error _ => w
  | .recordDispatched jobId generation =>
    { w with tables := (recordDispatched jobId generation w.now w.tables).2 }
  | .recordDispatchFailure jobId generation =>
    { w with tables := recordDispatchFailure jobId generation w.tables }
  | .crash holder => { w with live := w.live.eraseIdx holder }
  | .advance duration => { w with now := w.now + duration }

def run : List JobOperation → JobWorld → JobWorld
  | [], w => w
  | op :: rest, w => run rest (step w op)

/-- The world before the first job. -/
def emptyWorld (now : Instant) : JobWorld := ⟨⟨[], [], []⟩, now, []⟩

/-! ## What the tables record about a job -/

structure Tracked (t : JobTables) (job : DurableJob) : Prop where
  generation : 1 ≤ job.generation
  dispatched : t.HasDispatch job.id job.generation
  attemptsLeft : job.state = .available ∨ job.state = .retry → job.attemptCount < job.maxAttempts
  attempted : job.state = .leased → t.HasAttempt job.id job.attemptCount

structure WellKept (t : JobTables) : Prop where
  unique : (t.jobs.map DurableJob.id).Nodup
  tracked : ∀ id job, t.job id = some job → Tracked t job

lemma Tracked.later {t t' : JobTables} {job : DurableJob} (tracked : Tracked t job)
    (history : HistoryKept t t') : Tracked t' job :=
  ⟨tracked.generation, history.dispatch _ _ tracked.dispatched, tracked.attemptsLeft,
    fun leased => history.attempt _ _ (tracked.attempted leased)⟩

/-- Only the row of one job changes. -/
structure Changes (t t' : JobTables) (id : Nat) : Prop where
  history : HistoryKept t t'
  ids : t'.jobs.map DurableJob.id = t.jobs.map DurableJob.id
  others : ∀ x, x ≠ id → t'.job x = t.job x

lemma Changes.trans {t t' t'' : JobTables} {id : Nat} (first : Changes t t' id)
    (second : Changes t' t'' id) : Changes t t'' id :=
  ⟨first.history.trans second.history, second.ids.trans first.ids,
    fun x other => (second.others x other).trans (first.others x other)⟩

lemma changes_of_jobs {t t' : JobTables} (id : Nat) (history : HistoryKept t t')
    (jobs : t'.jobs = t.jobs) : Changes t t' id :=
  ⟨history, by rw [jobs], fun x _ => by rw [JobTables.job, JobTables.job, jobs]⟩

lemma changes_modifyJob (t : JobTables) (id : Nat) {f : DurableJob → DurableJob}
    (keeps : ∀ job, (f job).id = job.id) : Changes t (t.modifyJob id f) id := by
  refine ⟨historyKept_modifyJob t id f, ids_modifyJob t id keeps, fun x other => ?_⟩
  rw [job_modifyJob t id keeps]
  cases t.job x <;> simp [other]

lemma wellKept_of_changes {t t' : JobTables} {id : Nat} (kept : WellKept t)
    (changes : Changes t t' id) (here : ∀ job, t'.job id = some job → Tracked t' job) :
    WellKept t' := by
  refine ⟨changes.ids ▸ kept.unique, fun x job found => ?_⟩
  by_cases same : x = id
  · exact here job (same ▸ found)
  · rw [changes.others x same] at found
    exact (kept.tracked x job found).later changes.history

lemma wellKept_of_jobs {t t' : JobTables} (kept : WellKept t) (history : HistoryKept t t')
    (jobs : t'.jobs = t.jobs) : WellKept t' := by
  have same : ∀ x, t'.job x = t.job x := fun x => by rw [JobTables.job, JobTables.job, jobs]
  exact ⟨jobs ▸ kept.unique, fun x job found => (kept.tracked x job (same x ▸ found)).later history⟩

/-! ## Each operation -/

lemma insertJob_job {spec : JobSpec} {availableAt now : Instant} {freshId : Nat} {t : JobTables}
    (fresh : t.job freshId = none) (x : Nat) :
    (insertJob spec availableAt now freshId t).job x =
      if x = freshId then some (newJob spec freshId availableAt now) else t.job x := by
  simp only [insertJob, JobTables.addTaskDispatch, JobTables.job, List.find?_append] at fresh ⊢
  by_cases same : x = freshId
  · subst same
    rw [fresh, if_pos rfl]
    simp [newJob]
  · rw [if_neg same, List.find?_cons_of_neg (by simp [newJob, Ne.symm same]), List.find?_nil,
      Option.or_none]

lemma enqueueOnce_kept {spec : JobSpec} {availableAt now : Instant} {freshId : Nat}
    {t : JobTables} (kept : WellKept t) :
    WellKept (enqueueOnce spec availableAt now freshId t).2 := by
  unfold enqueueOnce
  split
  · exact kept
  · next unused =>
    have fresh : ∀ job ∈ t.jobs, job.id ≠ freshId := by
      intro job member used
      exact unused (List.any_eq_true.2 ⟨job, member, by simp [used]⟩)
    have missing : t.job freshId = none :=
      List.find?_eq_none.2 fun job member => by simpa using fresh job member
    have history : HistoryKept t (insertJob spec availableAt now freshId t) :=
      ⟨(historyKept_addTaskDispatch t freshId 1 availableAt now).dispatch, fun _ _ h => h⟩
    constructor
    · simp only [insertJob, JobTables.addTaskDispatch, List.map_append, List.nodup_append]
      refine ⟨kept.unique, List.nodup_singleton _, fun a member b last => ?_⟩
      obtain ⟨job, present, rfl⟩ := List.mem_map.1 member
      rw [List.mem_singleton.1 last]
      exact fresh job present
    · intro x job found
      rw [insertJob_job missing] at found
      split at found
      · cases found
        refine ⟨Nat.le_refl 1, ?_, fun _ => spec.attempts, fun leased => nomatch leased⟩
        exact hasDispatch_addTaskDispatch _ _ _ _ _
      · exact (kept.tracked x job found).later history

/-- The row a lease leaves. -/
def leasedRow (workerId : String) (now leaseFor : Int) (job : DurableJob) : DurableJob :=
  { job with
    attemptCount := job.attemptCount + 1
    state := .leased
    leaseOwner := some workerId
    leaseUntil := some (now + leaseFor) }

lemma lease_job {t : JobTables} {job : DurableJob} (found : t.job job.id = some job)
    (workerId : String) (now leaseFor : Int) :
    Changes t (lease job workerId now leaseFor t).2 job.id ∧
      (lease job workerId now leaseFor t).2.job job.id =
        some (leasedRow workerId now leaseFor job) ∧
      (lease job workerId now leaseFor t).2.HasAttempt job.id (job.attemptCount + 1) := by
  refine ⟨?_, ?_, ?_⟩
  · have changed : Changes t (t.modifyJob job.id (leasedRow workerId now leaseFor)) job.id :=
      changes_modifyJob t job.id fun _ => rfl
    refine ⟨⟨changed.history.dispatch, fun id number attempted => ?_⟩, changed.ids, changed.others⟩
    rw [hasAttempt_iff] at attempted ⊢
    obtain ⟨a, member, named⟩ := attempted
    exact ⟨a, List.mem_append_left _ member, named⟩
  · exact job_modifyJob_same found fun _ => rfl
  · rw [hasAttempt_iff]
    exact ⟨_, List.mem_append_right _ (List.mem_singleton_self _), rfl, rfl⟩

lemma lease_kept {t : JobTables} {job : DurableJob} (kept : WellKept t)
    (found : t.job job.id = some job) (workerId : String) (now leaseFor : Int) :
    WellKept (lease job workerId now leaseFor t).2 := by
  obtain ⟨changes, row, attempt⟩ := lease_job found workerId now leaseFor
  have before := kept.tracked job.id job found
  refine wellKept_of_changes kept changes fun after here => ?_
  rw [row] at here
  cases here
  exact ⟨before.generation, changes.history.dispatch _ _ before.dispatched,
    fun idle => (idle.elim nofun nofun), fun _ => attempt⟩

/-- A claim takes a row whose attempts are not used up. -/
lemma claim_some {workerId : String} {now leaseFor : Int} {t t' : JobTables}
    {claimed : ClaimedJob} (kept : WellKept t)
    (h : claim workerId now leaseFor t = some (claimed, t')) :
    ∃ job, t.job job.id = some job ∧ job.attemptCount < job.maxAttempts ∧
      (claimed, t') = lease job workerId now leaseFor t := by
  obtain ⟨job, best, leased⟩ := Option.map_eq_some_iff.1 h
  have member := List.argmin_mem best
  rw [List.mem_filter, claimQuery, Bool.and_eq_true, decide_eq_true_iff] at member
  exact ⟨job, job_of_mem kept.unique member.1, member.2.2, leased.symm⟩

lemma claimSpecific_some {jobId generation : Nat} {workerId : String} {now leaseFor : Int}
    {t t' : JobTables} {claimed : ClaimedJob}
    (h : claimSpecific jobId generation workerId now leaseFor t = .ok (some (claimed, t'))) :
    ∃ job, t.job job.id = some job ∧ job.attemptCount < job.maxAttempts ∧
      (claimed, t') = lease job workerId now leaseFor t := by
  unfold claimSpecific at h
  split at h
  · cases h
  · cases found : t.job jobId with
    | none => simp only [found] at h; cases h
    | some job =>
      simp only [found] at h
      split at h
      · cases h
      · iterate 4 (split at h; · cases h)
        split at h
        · cases h
        · next spent =>
          have named := id_of_job found
          subst named
          injection h with h
          injection h with h
          exact ⟨job, found, Nat.lt_of_not_le spent, h.symm⟩

lemma heartbeat_changes (jobId : Nat) (workerId : String) (attempt : Nat) (leaseUntil : Instant)
    (t : JobTables) : Changes t (heartbeat jobId workerId attempt leaseUntil t).2 jobId := by
  rcases heartbeat_cases jobId workerId attempt leaseUntil t with ⟨same, -⟩ |
    ⟨_, -, -, -, -, changed⟩
  · rw [same]
    exact changes_of_jobs _ (historyKept_refl t) rfl
  · rw [changed]
    exact changes_modifyJob t jobId fun _ => rfl

lemma heartbeat_kept {jobId : Nat} {workerId : String} {attempt : Nat} {leaseUntil : Instant}
    {t : JobTables} (kept : WellKept t) :
    WellKept (heartbeat jobId workerId attempt leaseUntil t).2 := by
  rcases heartbeat_cases jobId workerId attempt leaseUntil t with ⟨same, -⟩ |
    ⟨stored, found, -, -, -, changed⟩
  · rw [same]
    exact kept
  · rw [changed]
    refine wellKept_of_changes kept (changes_modifyJob t jobId fun _ => rfl) fun job here => ?_
    have row : some job = some { stored with leaseUntil := some leaseUntil } :=
      here.symm.trans (job_modifyJob_same found fun _ => by rfl)
    cases row
    have tracked := kept.tracked jobId stored found
    exact ⟨tracked.generation, tracked.dispatched, tracked.attemptsLeft, tracked.attempted⟩

lemma fileOutcome_changes (id attempt : Nat) (final : JobOutcome) (now : Instant)
    (retryAt : Option Instant) (safeErrorCode : Option String) (t : JobTables) :
    Changes t (fileOutcome id attempt final now retryAt safeErrorCode t) id :=
  ⟨historyKept_fileOutcome _ _ _ _ _ _ _, (changes_modifyJob t id fun _ => by rfl).ids,
    (changes_modifyJob t id fun _ => by rfl).others⟩

lemma fileOutcome_job {id attempt : Nat} {final : JobOutcome} {now : Instant}
    {retryAt : Option Instant} {safeErrorCode : Option String} {t : JobTables}
    {stored : DurableJob} (found : t.job id = some stored) :
    (fileOutcome id attempt final now retryAt safeErrorCode t).job id = some { stored with
      state := final.state
      availableAt := retryAt.getD stored.availableAt
      leaseOwner := none
      leaseUntil := none
      safeErrorCode := safeErrorCode } :=
  job_modifyJob_same found fun _ => by rfl

lemma nextGeneration_job {id : Nat} {t : JobTables} {stored : DurableJob}
    (found : t.job id = some stored) :
    (nextGeneration id t).job id = some { stored with generation := stored.generation + 1 } :=
  job_modifyJob_same found fun _ => by rfl

lemma nextGeneration_changes (id : Nat) (t : JobTables) : Changes t (nextGeneration id t) id :=
  changes_modifyJob t id fun _ => by rfl

/-- A row that got a dispatch for its generation. -/
lemma addTaskDispatch_kept {t t' : JobTables} {id : Nat} {after : DurableJob} (kept : WellKept t)
    (changes : Changes t t' id) (row : t'.job id = some after) (generation : 1 ≤ after.generation)
    (attemptsLeft : after.attemptCount < after.maxAttempts)
    (attempted : after.state = .leased → t'.HasAttempt id after.attemptCount)
    (scheduleAt now : Instant) :
    WellKept (t'.addTaskDispatch id after.generation scheduleAt now) := by
  have history := historyKept_addTaskDispatch t' id after.generation scheduleAt now
  have dispatched := hasDispatch_addTaskDispatch t' id after.generation scheduleAt now
  refine wellKept_of_changes kept (changes.trans (changes_of_jobs id history rfl)) fun job here => ?_
  cases here.symm.trans row
  rw [← id_of_job row] at dispatched attempted history ⊢
  exact ⟨generation, dispatched, fun _ => attemptsLeft,
    fun leased => history.attempt _ _ (attempted leased)⟩

lemma outcome_terminal {outcome : JobOutcome} (final : outcome ≠ .retry) :
    outcome.state.claimable = false := by
  revert final
  cases outcome <;> decide

lemma tracked_of_terminal {t : JobTables} {job : DurableJob} (generation : 1 ≤ job.generation)
    (dispatched : t.HasDispatch job.id job.generation) (terminal : job.state.claimable = false) :
    Tracked t job := by
  refine ⟨generation, dispatched, fun idle => ?_, fun leased => ?_⟩
  · rcases idle with idle | idle <;> rw [idle] at terminal <;> cases terminal
  · rw [leased] at terminal
    cases terminal

lemma finish_kept {job : ClaimedJob} {outcome : JobOutcome} {now : Instant}
    {retryAt : Option Instant} {safeErrorCode : Option String} {t t' : JobTables}
    {target : Option (Nat × Nat)} (kept : WellKept t)
    (h : finish job outcome now retryAt safeErrorCode t = .ok (target, t')) : WellKept t' := by
  obtain ⟨stored, found, -, ⟨other, rfl⟩ | ⟨retry, time, -, rfl⟩⟩ := finish_ok h
  · have tracked := kept.tracked job.id stored found
    have terminal := outcome_terminal other
    refine wellKept_of_changes kept (fileOutcome_changes _ _ _ _ _ _ _) fun after here => ?_
    cases here.symm.trans (fileOutcome_job found)
    exact tracked_of_terminal tracked.generation
      ((historyKept_fileOutcome _ _ _ _ _ _ _).dispatch _ _ tracked.dispatched) terminal
  · refine addTaskDispatch_kept kept ((fileOutcome_changes _ _ _ _ _ _ _).trans
      (nextGeneration_changes _ _)) (nextGeneration_job (fileOutcome_job found))
      (Nat.le_add_left _ _) ?_ (by intro leased; cases leased) _ _
    unfold finalOutcome at retry
    split at retry
    · cases retry
    · next left => exact Nat.lt_of_not_le fun spent => left ⟨retry, spent⟩

/-- Only a job in retry changes, and it gets more attempts. -/
lemma replay_ok {jobId : Nat} {now : Instant} {t t' : JobTables} {target : Option (Nat × Nat)}
    (kept : WellKept t) (h : replay jobId now t = .ok (target, t')) :
    WellKept t' ∧ (t' = t ∨ ∃ stored, t.job jobId = some stored ∧ stored.state = .retry ∧
      ∀ x, x ≠ jobId → t'.job x = t.job x) := by
  unfold replay at h
  cases found : t.job jobId with
  | none => simp only [found] at h; cases h
  | some stored =>
    simp only [found] at h
    split at h
    · cases h
      exact ⟨kept, Or.inl rfl⟩
    · split at h
      · cases h
      · next waiting =>
        cases h
        have row := job_modifyJob_same (f := fun job => { job with
            state := .available
            availableAt := now
            leaseOwner := none
            leaseUntil := none
            safeErrorCode := none
            maxAttempts := max job.maxAttempts (job.attemptCount + 10)
            permitted := Nat.le_trans job.permitted (Nat.le_max_left _ _)
            generation := job.generation + 1 }) found fun _ => by rfl
        refine ⟨addTaskDispatch_kept kept (changes_modifyJob t jobId fun _ => by rfl) row (Nat.le_add_left _ _)
          ?_ (by intro leased; cases leased) now now, Or.inr ⟨stored, rfl, not_not.1 waiting, ?_⟩⟩
        · exact Nat.lt_of_lt_of_le (Nat.lt_add_of_pos_right (by decide)) (Nat.le_max_right _ _)
        · exact (changes_modifyJob t jobId fun _ => by rfl).others

/-! ## Stale recovery -/

lemma historyKept_supersedeDispatch (id generation : Nat) (t : JobTables) :
    HistoryKept t (supersedeDispatch id generation t) :=
  historyKept_modifyDispatch _ _ _ fun _ => ⟨rfl, rfl⟩

lemma releaseLease_changes (id attempt : Nat) (now : Instant) (t : JobTables) :
    Changes t (releaseLease id attempt now t) id := by
  unfold releaseLease
  refine (changes_of_jobs id (historyKept_modifyAttempt t id attempt fun a => ?_) rfl).trans
    (changes_modifyJob _ id fun _ => rfl)
  split <;> exact ⟨rfl, rfl⟩

lemma releaseLease_job {id attempt : Nat} {now : Instant} {t : JobTables} {stored : DurableJob}
    (found : t.job id = some stored) :
    (releaseLease id attempt now t).job id =
      some { stored with state := .available, leaseOwner := none, leaseUntil := none } :=
  job_modifyJob_same found fun _ => rfl

lemma supersedeDispatch_changes (id generation : Nat) (t : JobTables) :
    Changes t (supersedeDispatch id generation t) id :=
  changes_of_jobs id (historyKept_supersedeDispatch id generation t) rfl

lemma recoverJob_changes (now : Instant) (t : JobTables) (job : DurableJob) :
    Changes t (recoverJob now t job) job.id := by
  refine ((supersedeDispatch_changes job.id job.generation t).trans ?_).trans
    ((nextGeneration_changes _ _).trans
      (changes_of_jobs _ (historyKept_addTaskDispatch _ _ _ _ _) rfl))
  split
  · exact releaseLease_changes _ _ _ _
  · exact changes_of_jobs _ (historyKept_refl _) rfl

lemma recoverJob_kept {now : Instant} {t : JobTables} {job : DurableJob} (kept : WellKept t)
    (found : t.job job.id = some job) (left : job.attemptCount < job.maxAttempts) :
    WellKept (recoverJob now t job) := by
  have superseded := supersedeDispatch_changes job.id job.generation t
  have row : (supersedeDispatch job.id job.generation t).job job.id = some job := found
  unfold recoverJob
  split
  · exact addTaskDispatch_kept kept ((superseded.trans (releaseLease_changes _ _ _ _)).trans
      (nextGeneration_changes _ _)) (nextGeneration_job (releaseLease_job row))
      (Nat.le_add_left _ _) left (by intro leased; cases leased) _ _
  · refine addTaskDispatch_kept kept (superseded.trans (nextGeneration_changes _ _))
      (nextGeneration_job row) (Nat.le_add_left _ _) left (fun leased => ?_) _ _
    exact superseded.history.attempt _ _ ((kept.tracked job.id job found).attempted leased)

/-- Recovering distinct rows one after another: each is still as it was selected. -/
lemma foldl_recoverJob (now : Instant) {stale : List DurableJob} {t : JobTables}
    (kept : WellKept t) (distinct : (stale.map DurableJob.id).Nodup)
    (selected : ∀ job ∈ stale, t.job job.id = some job ∧ job.attemptCount < job.maxAttempts) :
    WellKept (stale.foldl (recoverJob now) t) ∧
      ∀ x, x ∉ stale.map DurableJob.id → (stale.foldl (recoverJob now) t).job x = t.job x := by
  induction stale generalizing t with
  | nil => exact ⟨kept, fun _ _ => rfl⟩
  | cons job rest ih =>
    obtain ⟨found, left⟩ := selected job List.mem_cons_self
    rw [List.map_cons, List.nodup_cons] at distinct
    have changes := recoverJob_changes now t job
    have others : ∀ other ∈ rest, (recoverJob now t job).job other.id = t.job other.id := by
      intro other member
      refine changes.others other.id fun same => distinct.1 ?_
      exact same ▸ List.mem_map_of_mem member
    obtain ⟨keptRest, untouched⟩ := ih (recoverJob_kept kept found left) distinct.2
      fun other member => by
        rw [others other member]
        exact selected other (List.mem_cons_of_mem _ member)
    refine ⟨keptRest, fun x outside => ?_⟩
    rw [List.map_cons, List.mem_cons, not_or] at outside
    exact (untouched x outside.2).trans (changes.others x outside.1)

lemma recoverStaleDispatched_ok {staleGrace : Int} {limit : Nat} {now : Instant}
    {t t' : JobTables} {targets : List (Nat × Nat)} (kept : WellKept t)
    (h : recoverStaleDispatched staleGrace limit now t = .ok (targets, t')) :
    WellKept t' ∧ ∀ id job, t.job id = some job → job.maxAttempts ≤ job.attemptCount →
      t'.job id = some job := by
  unfold recoverStaleDispatched at h
  split at h
  · cases h
  · split at h
    · cases h
    · simp only [Except.ok.injEq, Prod.mk.injEq] at h
      obtain ⟨-, rfl⟩ := h
      have distinct : ((((t.jobs.filter (staleCandidate (now - staleGrace) now t)).mergeSort
          (fun a b => decide (dispatchedOrder t a ≤ dispatchedOrder t b))).take limit).map
            DurableJob.id).Nodup := by
        have sorted := List.mergeSort_perm (t.jobs.filter (staleCandidate (now - staleGrace) now t))
          (fun a b => decide (dispatchedOrder t a ≤ dispatchedOrder t b))
        refine List.Nodup.sublist ((List.take_sublist _ _).map _) ?_
        exact (sorted.map DurableJob.id).nodup_iff.2
          (kept.unique.sublist (List.filter_sublist.map _))
      have selected : ∀ job ∈ ((t.jobs.filter (staleCandidate (now - staleGrace) now t)).mergeSort
          (fun a b => decide (dispatchedOrder t a ≤ dispatchedOrder t b))).take limit,
            t.job job.id = some job ∧ job.attemptCount < job.maxAttempts := by
        intro job member
        have candidate := List.mem_mergeSort.1 (List.mem_of_mem_take member)
        rw [List.mem_filter, staleCandidate] at candidate
        simp only [Bool.and_eq_true, decide_eq_true_iff] at candidate
        exact ⟨job_of_mem kept.unique candidate.1, candidate.2.1.2⟩
      obtain ⟨keptAll, untouched⟩ := foldl_recoverJob now kept distinct selected
      refine ⟨keptAll, fun id job found spent => (untouched id fun stale => ?_).trans found⟩
      obtain ⟨other, member, rfl⟩ := List.mem_map.1 stale
      obtain ⟨same, left⟩ := selected other member
      cases same.symm.trans found
      exact Nat.not_lt.2 spent left

/-! ## Every run -/

lemma takeClaim_kept {w : JobWorld} (kept : WellKept w.tables)
    {claimed : Option (ClaimedJob × JobTables)}
    (leased : ∀ c, claimed = some c → WellKept c.2) : WellKept (takeClaim w claimed).tables := by
  cases claimed with
  | none => exact kept
  | some c => exact leased c rfl

lemma recordDispatched_kept {t : JobTables} (kept : WellKept t) (jobId generation : Nat)
    (now : Instant) : WellKept (recordDispatched jobId generation now t).2 := by
  unfold recordDispatched
  split
  · exact wellKept_of_jobs kept (historyKept_modifyDispatch _ _ _ fun _ => ⟨rfl, rfl⟩) rfl
  · exact kept

lemma recordDispatchFailure_kept {t : JobTables} (kept : WellKept t) (jobId generation : Nat) :
    WellKept (recordDispatchFailure jobId generation t) := by
  unfold recordDispatchFailure
  split
  · exact wellKept_of_jobs kept (historyKept_modifyDispatch _ _ _ fun _ => ⟨rfl, rfl⟩) rfl
  · exact kept

lemma step_kept (op : JobOperation) {w : JobWorld} (kept : WellKept w.tables) :
    WellKept (step w op).tables := by
  cases op with
  | enqueue spec availableAt freshId => exact enqueueOnce_kept kept
  | claim workerId leaseFor =>
    refine takeClaim_kept kept fun c taken => ?_
    obtain ⟨claim, after⟩ := c
    obtain ⟨job, found, -, leased⟩ := claim_some kept taken
    cases leased
    exact lease_kept kept found workerId w.now leaseFor
  | claimSpecific jobId generation workerId leaseFor =>
    simp only [step]
    split
    · next claimed accepted =>
      refine takeClaim_kept kept fun c taken => ?_
      obtain ⟨claim, after⟩ := c
      rw [taken] at accepted
      obtain ⟨job, found, -, leased⟩ := claimSpecific_some accepted
      cases leased
      exact lease_kept kept found workerId w.now leaseFor
    · exact kept
  | heartbeat holder leaseUntil =>
    simp only [step]
    split
    · exact kept
    · exact heartbeat_kept kept
  | finish holder outcome retryAt safeErrorCode =>
    simp only [step]
    split
    · exact kept
    · unfold finishClaim
      split
      · next filed => exact finish_kept kept filed
      · exact kept
  | replay jobId =>
    simp only [step]
    split
    · next replayed => exact (replay_ok kept replayed).1
    · exact kept
  | recoverStale staleGrace limit =>
    simp only [step]
    split
    · next recovered => exact (recoverStaleDispatched_ok kept recovered).1
    · exact kept
  | recordDispatched jobId generation => exact recordDispatched_kept kept _ _ _
  | recordDispatchFailure jobId generation => exact recordDispatchFailure_kept kept _ _
  | crash holder => exact kept
  | advance duration => exact kept

lemma emptyWorld_kept (now : Instant) : WellKept (emptyWorld now).tables :=
  ⟨List.nodup_nil, fun _ _ found => nomatch found⟩

lemma run_kept (ops : List JobOperation) {w : JobWorld} (kept : WellKept w.tables) :
    WellKept (run ops w).tables := by
  induction ops generalizing w with
  | nil => exact kept
  | cons op rest ih => exact ih (step_kept op kept)

/-! ## Taking a job, and not being able to -/

def Expired (now : Instant) (job : DurableJob) : Prop :=
  ∀ until_, job.leaseUntil = some until_ → until_ < now

/-- Leased once more, or at its end. -/
def Accepted (before : DurableJob) (w : JobWorld) : Prop :=
  ∃ after, w.tables.job before.id = some after ∧
    ((after.state = .leased ∧ after.attemptCount = before.attemptCount + 1) ∨
      after.state.claimable = false)

/-- Some operation, now or after waiting, takes the job. -/
def Takeable (w : JobWorld) (job : DurableJob) : Prop :=
  ∃ wait op, Accepted job (step (step w (.advance wait)) op)

/-- The worker that holds the lease is alive. -/
def HolderAlive (w : JobWorld) (job : DurableJob) : Prop :=
  ∃ claimed ∈ w.live, claimed.id = job.id ∧ Leases claimed job

/-- The last permitted attempt crashed. -/
structure Abandoned (w : JobWorld) (job : DurableJob) : Prop where
  leased : job.state = .leased
  spent : job.maxAttempts ≤ job.attemptCount
  crashed : ¬HolderAlive w job

lemma le_after_wait (due now : Int) : due ≤ now + ((due - now).toNat : Int) := by omega

/-- With attempts left the job itself can be claimed once it is due. -/
lemma takeable_of_attempts {w : JobWorld} {job : DurableJob} (kept : WellKept w.tables)
    (found : w.tables.job job.id = some job) (active : job.state.claimable = true)
    (expired : Expired w.now job) (left : job.attemptCount < job.maxAttempts) :
    Takeable w job := by
  have tracked := kept.tracked job.id job found
  refine ⟨(job.availableAt - w.now).toNat, .claimSpecific job.id job.generation "worker" 0, ?_⟩
  have due : ¬w.now + ((job.availableAt - w.now).toNat : Int) < job.availableAt :=
    Int.not_lt.2 (le_after_wait job.availableAt w.now)
  have free : (job.leaseUntil.any fun until_ =>
      decide (w.now + ((job.availableAt - w.now).toNat : Int) ≤ until_)) = false := by
    cases held : job.leaseUntil with
    | none => rfl
    | some until_ =>
      exact decide_eq_false (Int.not_le.2 (Int.lt_of_lt_of_le (expired until_ held)
        (Int.le_add_of_nonneg_right (Int.natCast_nonneg _))))
  obtain ⟨d, dispatched⟩ := Option.isSome_iff_exists.1 tracked.dispatched
  have accepted : claimSpecific job.id job.generation "worker"
      (w.now + ((job.availableAt - w.now).toNat : Int)) 0 w.tables =
        .ok (some (lease job "worker" (w.now + ((job.availableAt - w.now).toNat : Int)) 0
          w.tables)) := by
    simp only [claimSpecific, if_neg (Nat.not_lt.2 tracked.generation), found, dispatched, ne_eq,
      not_true_eq_false, if_false, active, Bool.true_eq_false, if_neg due, free,
      Bool.false_eq_true, if_neg (Nat.not_le.2 left)]
  simp only [step, accepted, takeClaim]
  exact ⟨_, (lease_job found _ _ _).2.1, Or.inl ⟨rfl, rfl⟩⟩

/-- A live holder can file the end of its job. -/
lemma takeable_of_holder {w : JobWorld} {job : DurableJob} (kept : WellKept w.tables)
    (found : w.tables.job job.id = some job) (leased : job.state = .leased)
    (alive : HolderAlive w job) : Takeable w job := by
  obtain ⟨claimed, member, named, holds⟩ := alive
  obtain ⟨holder, at_holder⟩ := List.mem_iff_getElem?.1 member
  have attempted : w.tables.attempts.any
      (fun a => a.jobId == claimed.id && a.attemptNumber == job.attemptCount) = true := by
    rw [named]
    exact (kept.tracked job.id job found).attempted leased
  refine ⟨0, .finish holder .manualReview none none, ?_⟩
  have filed : finish claimed .manualReview (w.now + ((0 : Nat) : Int)) none none w.tables =
      .ok (none, fileOutcome claimed.id job.attemptCount .manualReview
        (w.now + ((0 : Nat) : Int)) none none w.tables) := by
    simp only [finish, named, found, holds.owner, holds.attempt, ne_eq, not_true_eq_false,
      or_self, if_false, finalOutcome, reduceCtorEq, false_and]
    rw [← named, ← holds.attempt, attempted]
    rfl
  simp only [step, at_holder, finishClaim, filed]
  exact ⟨_, (congrArg _ named.symm).trans (fileOutcome_job (named ▸ found)), Or.inr rfl⟩

/-- The same row, still without a live holder. -/
structure Stuck (w : JobWorld) (job : DurableJob) : Prop extends Abandoned w job where
  found : w.tables.job job.id = some job

lemma stuck_of_live {w w' : JobWorld} {job : DurableJob} (stuck : Stuck w job)
    (found : w'.tables.job job.id = some job)
    (live : ∀ claimed ∈ w'.live, claimed ∈ w.live ∨ claimed.id ≠ job.id) : Stuck w' job := by
  refine ⟨⟨stuck.leased, stuck.spent, ?_⟩, found⟩
  rintro ⟨claimed, member, named, holds⟩
  rcases live claimed member with old | other
  · exact stuck.crashed ⟨claimed, old, named, holds⟩
  · exact other named

lemma stuck_takeClaim {w : JobWorld} {job : DurableJob} (stuck : Stuck w job)
    {claimed : Option (ClaimedJob × JobTables)} (workerId : String) (now leaseFor : Int)
    (taken : ∀ c, claimed = some c → ∃ other, w.tables.job other.id = some other ∧
      other.attemptCount < other.maxAttempts ∧ c = lease other workerId now leaseFor w.tables) :
    Stuck (takeClaim w claimed) job := by
  cases claimed with
  | none => exact stuck
  | some c =>
    obtain ⟨other, found, left, leased⟩ := taken c rfl
    have differs : other.id ≠ job.id := by
      intro same
      rw [same, stuck.found] at found
      cases found
      exact Nat.not_lt.2 stuck.spent left
    subst leased
    refine stuck_of_live stuck ?_ fun claimed member => ?_
    · exact ((lease_job found workerId now leaseFor).1.others job.id differs.symm).trans stuck.found
    · rcases List.mem_append.1 member with old | new
      · exact Or.inl old
      · rw [List.mem_singleton.1 new]
        exact Or.inr differs

/-- A claim that no longer leases the row cannot file anything for it. -/
lemma finish_of_crashed {claimed : ClaimedJob} {job : DurableJob} {outcome : JobOutcome}
    {now : Instant} {retryAt : Option Instant} {safeErrorCode : Option String} {t t' : JobTables}
    {target : Option (Nat × Nat)} (found : t.job job.id = some job)
    (lost : ¬(claimed.id = job.id ∧ Leases claimed job))
    (h : finish claimed outcome now retryAt safeErrorCode t = .ok (target, t')) :
    t'.job job.id = some job := by
  obtain ⟨stored, present, holds, filed⟩ := finish_ok h
  have differs : job.id ≠ claimed.id := by
    intro same
    rw [← same, found] at present
    cases present
    exact lost ⟨same.symm, holds⟩
  have changes := fileOutcome_changes claimed.id stored.attemptCount
  rcases filed with ⟨-, rfl⟩ | ⟨-, time, -, rfl⟩
  · exact ((changes _ _ _ _ _).others job.id differs).trans found
  · exact ((((changes _ _ _ _ _).trans (nextGeneration_changes _ _)).trans
      (changes_of_jobs _ (historyKept_addTaskDispatch _ _ _ _ _) rfl)).others
        job.id differs).trans found

lemma heartbeat_of_crashed {claimed : ClaimedJob} {job : DurableJob} {leaseUntil : Instant}
    {t : JobTables} (found : t.job job.id = some job)
    (lost : ¬(claimed.id = job.id ∧ Leases claimed job)) :
    (heartbeat claimed.id claimed.leaseOwner claimed.attempt leaseUntil t).2.job job.id =
      some job := by
  by_cases same : claimed.id = job.id
  · rcases heartbeat_cases claimed.id claimed.leaseOwner claimed.attempt leaseUntil t with
      ⟨unchanged, -⟩ | ⟨stored, present, owner, attempts, -, -⟩
    · rw [unchanged]
      exact found
    · rw [same, found] at present
      cases present
      exact absurd ⟨same, ⟨owner, attempts⟩⟩ lost
  · exact ((heartbeat_changes _ _ _ _ _).others job.id (Ne.symm same)).trans found

/-- No operation takes an abandoned job, and none brings its holder back. -/
lemma stuck_step (op : JobOperation) {w : JobWorld} {job : DurableJob}
    (kept : WellKept w.tables) (stuck : Stuck w job) : Stuck (step w op) job := by
  have lost : ∀ claimed ∈ w.live, ¬(claimed.id = job.id ∧ Leases claimed job) :=
    fun claimed member holds => stuck.crashed ⟨claimed, member, holds⟩
  have fewer : ∀ holder, ∀ claimed ∈ w.live.eraseIdx holder,
      claimed ∈ w.live ∨ claimed.id ≠ job.id :=
    fun holder claimed member => Or.inl (List.mem_of_mem_eraseIdx member)
  cases op with
  | enqueue spec availableAt freshId =>
    refine stuck_of_live stuck ?_ fun _ member => Or.inl member
    simp only [step, enqueueOnce]
    split
    · exact stuck.found
    · simp only [insertJob, JobTables.addTaskDispatch, JobTables.job, List.find?_append]
      exact Option.or_eq_some_iff.2 (Or.inl stuck.found)
  | claim workerId leaseFor =>
    exact stuck_takeClaim stuck workerId w.now leaseFor
      fun _ taken => claim_some kept taken
  | claimSpecific jobId generation workerId leaseFor =>
    simp only [step]
    split
    · next claimed accepted =>
      refine stuck_takeClaim stuck workerId w.now leaseFor fun c taken => ?_
      exact claimSpecific_some (taken ▸ accepted)
    · exact stuck
  | heartbeat holder leaseUntil =>
    simp only [step]
    split
    · exact stuck
    · next claimed held =>
      refine stuck_of_live stuck ?_ fun _ member => Or.inl member
      exact heartbeat_of_crashed stuck.found (lost claimed (List.mem_of_getElem? held))
  | finish holder outcome retryAt safeErrorCode =>
    simp only [step]
    split
    · exact stuck
    · next claimed held =>
      unfold finishClaim
      split
      · next filed =>
        exact stuck_of_live stuck (finish_of_crashed stuck.found
          (lost claimed (List.mem_of_getElem? held)) filed) (fewer holder)
      · exact stuck_of_live stuck stuck.found (fewer holder)
  | replay jobId =>
    simp only [step]
    split
    · next replayed =>
      refine stuck_of_live stuck ?_ fun _ member => Or.inl member
      rcases (replay_ok kept replayed).2 with rfl | ⟨stored, present, waiting, others⟩
      · exact stuck.found
      · refine (others job.id ?_).trans stuck.found
        rintro rfl
        rw [stuck.found] at present
        cases present
        rw [stuck.leased] at waiting
        cases waiting
    · exact stuck
  | recoverStale staleGrace limit =>
    simp only [step]
    split
    · next recovered =>
      exact stuck_of_live stuck ((recoverStaleDispatched_ok kept recovered).2 job.id job
        stuck.found stuck.spent) fun _ member => Or.inl member
    · exact stuck
  | recordDispatched jobId generation =>
    refine stuck_of_live stuck ?_ fun _ member => Or.inl member
    simp only [step, recordDispatched]
    split <;> exact stuck.found
  | recordDispatchFailure jobId generation =>
    refine stuck_of_live stuck ?_ fun _ member => Or.inl member
    simp only [step, recordDispatchFailure]
    split <;> exact stuck.found
  | crash holder => exact stuck_of_live stuck stuck.found (fewer holder)
  | advance duration => exact stuck_of_live stuck stuck.found fun _ member => Or.inl member

lemma stuck_run (ops : List JobOperation) {w : JobWorld} {job : DurableJob}
    (kept : WellKept w.tables) (stuck : Stuck w job) : Stuck (run ops w) job := by
  induction ops generalizing w with
  | nil => exact stuck
  | cons op rest ih => exact ih (step_kept op kept) (stuck_step op kept stuck)

lemma not_accepted_of_stuck {w : JobWorld} {job : DurableJob} (stuck : Stuck w job) :
    ¬Accepted job w := by
  rintro ⟨after, found, ⟨-, more⟩ | terminal⟩
  · cases stuck.found.symm.trans found
    omega
  · cases stuck.found.symm.trans found
    rw [stuck.leased] at terminal
    cases terminal

lemma stuck_untakeable {w : JobWorld} {job : DurableJob} (kept : WellKept w.tables)
    (stuck : Stuck w job) : ¬Takeable w job ∧ ∀ more, ¬Accepted job (run more w) := by
  refine ⟨?_, fun more => not_accepted_of_stuck (stuck_run more kept stuck)⟩
  rintro ⟨wait, op, accepted⟩
  exact not_accepted_of_stuck (stuck_run [.advance wait, op] kept stuck) accepted

/-- In every reachable state an unfinished job with an expired lease can be taken, unless its
worker crashed in the last permitted attempt; then no sequence of operations takes it. -/
theorem takeable_iff (now : Instant) (ops : List JobOperation) (id : Nat) (job : DurableJob)
    (found : (run ops (emptyWorld now)).tables.job id = some job)
    (active : job.state.claimable = true)
    (expired : Expired (run ops (emptyWorld now)).now job) :
    let w := run ops (emptyWorld now)
    (Takeable w job ↔ ¬(job.state = .leased ∧ job.maxAttempts ≤ job.attemptCount ∧
      ¬HolderAlive w job)) ∧
      (job.state = .leased → job.maxAttempts ≤ job.attemptCount → ¬HolderAlive w job →
        ∀ more, ¬Accepted job (run more w)) := by
  intro w
  have kept : WellKept w.tables := run_kept ops (emptyWorld_kept now)
  have named := id_of_job found
  subst named
  refine ⟨⟨?_, fun held => ?_⟩, fun leased spent crashed more => ?_⟩
  · rintro takeable ⟨leased, spent, crashed⟩
    exact (stuck_untakeable kept ⟨⟨leased, spent, crashed⟩, found⟩).1 takeable
  · by_cases left : job.attemptCount < job.maxAttempts
    · exact takeable_of_attempts kept found active expired left
    · have spent := Nat.le_of_not_lt left
      have leased : job.state = .leased := by
        have attemptsLeft := (kept.tracked job.id job found).attemptsLeft
        cases state : job.state with
        | leased => rfl
        | available => exact absurd (attemptsLeft (Or.inl state)) left
        | retry => exact absurd (attemptsLeft (Or.inr state)) left
        | complete | manualReview | deadLetter => rw [state] at active; cases active
      refine takeable_of_holder kept found leased ?_
      by_contra crashed
      exact held ⟨leased, spent, crashed⟩
  · exact (stuck_untakeable kept ⟨⟨leased, spent, crashed⟩, found⟩).2 more

/-! ## Ten crashes -/

def deliverySpec : JobSpec where
  jobKey := .delivery 1
  kind := .deliverTimestamp
  orderId := 1

/-- A claim whose worker crashes, and the time after which its lease is over. -/
def crashedAttempt : List JobOperation :=
  [.claim "worker" 120000000, .crash 0, .advance 121000000]

def crashes (count : Nat) : List JobOperation :=
  .enqueue deliverySpec 0 1 :: (List.replicate count crashedAttempt).flatten

def jobAfter (count : Nat) : Option DurableJob := (run (crashes count) (emptyWorld 0)).tables.job 1

set_option maxRecDepth 4000 in
theorem takeable_after_nine_crashes :
    ∃ job, jobAfter 9 = some job ∧ job.state = .leased ∧
      Takeable (run (crashes 9) (emptyWorld 0)) job :=
  ⟨_, rfl, rfl, (takeable_iff 0 (crashes 9) 1 _ rfl rfl (by rintro _ ⟨⟩; decide)).1.2
    fun held => absurd held.2.1 (by decide)⟩

set_option maxRecDepth 4000 in
/-- The job is leased, its lease is over, and no sequence of operations takes it. -/
theorem stranded_after_ten_crashes :
    ∃ job, jobAfter 10 = some job ∧ job.state = .leased ∧ job.attemptCount = 10 ∧
      Expired (run (crashes 10) (emptyWorld 0)).now job ∧
      ¬Takeable (run (crashes 10) (emptyWorld 0)) job ∧
      ∀ more, ¬Accepted job (run more (run (crashes 10) (emptyWorld 0))) := by
  have kept : WellKept (run (crashes 10) (emptyWorld 0)).tables :=
    run_kept (crashes 10) (emptyWorld_kept 0)
  have crashed : (run (crashes 10) (emptyWorld 0)).live = [] := by decide
  refine ⟨_, rfl, rfl, rfl, by rintro _ ⟨⟩; decide, stuck_untakeable kept ⟨⟨rfl, by decide, ?_⟩, rfl⟩⟩
  rintro ⟨_, alive, _⟩
  rw [crashed] at alive
  cases alive

end JobRecovery
