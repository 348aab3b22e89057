import SpacerocksCoa.JobFencing

/-!
# The attempts of a job

Every claim of a job adds an attempt, and a finish or a recovery closes it. A claim that takes
over a lease that has run out closes nothing, unlike the claim of an outbox row, so that the
attempt of the crashed worker stays open for good. In runs without such a claim the attempts
of a job say what its row says.
-/
namespace AttemptHistory
open OrderStates JobClaims JobRecovery JobFencing

/-- The history of a job and its row agree. -/
structure HistoryMatches (t : JobTables) (job : DurableJob) : Prop where
  numbered : (attemptsOf t job.id).map JobAttempt.attemptNumber = List.range' 1 job.attemptCount
  single : ((attemptsOf t job.id).filter fun a => a.finishedAt.isNone).length ≤ 1
  unfinished : ∀ a ∈ attemptsOf t job.id, a.finishedAt = none →
    a.attemptNumber = job.attemptCount ∧ job.state = .leased

/-- The operation claims a job that is still leased, its lease having run out. -/
def takesOver (w : FencedWorld) : FencedOperation → Bool
  | .claim _ _ =>
    (List.argmin claimOrder (w.tables.jobs.filter (claimQuery w.now))).any
      fun job => job.state == .leased
  | .claimSpecific jobId generation _ _ =>
    (w.tables.job jobId).any fun job =>
      job.state == .leased && claimQuery w.now job && job.generation == generation
  | _ => false

/-- No step of the run takes over a job. -/
def neverTakesOver : List FencedOperation → FencedWorld → Bool
  | [], _ => true
  | op :: rest, w => !takesOver w op && neverTakesOver rest (fencedStep w op)

/-! ## Open attempts -/

/-- An open attempt of the job is the latest one, and the job is leased. -/
def OpenMatches (t : JobTables) (id : Nat) : Prop :=
  ∀ a ∈ attemptsOf t id, a.finishedAt = none →
    ∃ job, t.job id = some job ∧ a.attemptNumber = job.attemptCount ∧ job.state = .leased

theorem openMatches_of_same {t t' : JobTables} {id : Nat} (held : OpenMatches t id)
    (row : t'.job id = t.job id) (attempts : attemptsOf t' id = attemptsOf t id) :
    OpenMatches t' id := by
  intro a member opened
  rw [attempts] at member
  rw [row]
  exact held a member opened

theorem openMatches_of_touches {t t' : JobTables} {id : Nat} (held : ∀ x, OpenMatches t x)
    (touches : Touches t t' id) (here : OpenMatches t' id) (x : Nat) : OpenMatches t' x := by
  by_cases same : x = id
  · rw [same]
    exact here
  · exact openMatches_of_same (held x) (touches.row x same) (touches.attempts x same)

/-- A job that is not leased has no open attempt. -/
theorem closed_of_idle {t : JobTables} {id : Nat} {job : DurableJob} (held : OpenMatches t id)
    (found : t.job id = some job) (idle : job.state ≠ .leased) :
    ∀ a ∈ attemptsOf t id, a.finishedAt ≠ none := by
  intro a member opened
  obtain ⟨stored, same, _, leased⟩ := held a member opened
  rw [found] at same
  cases same
  exact idle leased

theorem attemptsOf_lease (t : JobTables) (job : DurableJob) (workerId : String)
    (now leaseFor : Int) (x : Nat) :
    attemptsOf (lease job workerId now leaseFor t).2 x =
      if x = job.id then attemptsOf t x ++
        [⟨job.id, job.attemptCount + 1, workerId, now, none, none, none⟩] else attemptsOf t x := by
  rw [attemptsOf, lease, List.filter_append]
  by_cases same : x = job.id
  · simp [same, attemptsOf]
  · simp [same, Ne.symm same, attemptsOf]

theorem lease_matches {t : JobTables} {job : DurableJob} (held : ∀ x, OpenMatches t x)
    (found : t.job job.id = some job) (idle : job.state ≠ .leased) (workerId : String)
    (now leaseFor : Int) (x : Nat) : OpenMatches (lease job workerId now leaseFor t).2 x := by
  obtain ⟨changes, row, _⟩ := lease_job found workerId now leaseFor
  by_cases same : x = job.id
  · subst same
    intro a member opened
    rw [attemptsOf_lease, if_pos rfl] at member
    rcases List.mem_append.1 member with old | new
    · exact absurd opened (closed_of_idle (held _) found idle a old)
    · rw [List.mem_singleton.1 new]
      exact ⟨_, row, rfl, rfl⟩
  · refine openMatches_of_same (held x) (changes.others x same) ?_
    rw [attemptsOf_lease, if_neg same]

/-- Closing the latest attempt closes every attempt. -/
theorem closed_by_change {attempts : List JobAttempt} {number : Nat}
    {f : JobAttempt → JobAttempt} (closes : ∀ a, (f a).finishedAt ≠ none)
    (latest : ∀ a ∈ attempts, a.finishedAt = none → a.attemptNumber = number) :
    ∀ a ∈ attempts.map (changeAttempt number f), a.finishedAt ≠ none := by
  intro a member
  obtain ⟨before, present, rfl⟩ := List.mem_map.1 member
  unfold changeAttempt
  split
  · exact closes before
  · next other => exact fun opened => other (latest before present opened)

theorem openMatches_of_closed {t : JobTables} {id : Nat}
    (closed : ∀ a ∈ attemptsOf t id, a.finishedAt ≠ none) : OpenMatches t id :=
  fun a member opened => absurd opened (closed a member)

theorem latest_of_held {t : JobTables} {id : Nat} {stored : DurableJob} (held : OpenMatches t id)
    (found : t.job id = some stored) :
    ∀ a ∈ attemptsOf t id, a.finishedAt = none → a.attemptNumber = stored.attemptCount := by
  intro a member opened
  obtain ⟨job, same, number, _⟩ := held a member opened
  rw [found] at same
  cases same
  exact number

/-! ## Each operation -/

theorem enqueue_matches {spec : JobSpec} {availableAt now : Instant} {freshId : Nat}
    {t : JobTables} (kept : TablesKept t) (held : ∀ x, OpenMatches t x) (x : Nat) :
    OpenMatches (enqueueOnce spec availableAt now freshId t).2 x := by
  obtain ⟨_, rows⟩ := @enqueueOnce_tables spec availableAt now freshId t kept
  have attempts : attemptsOf (enqueueOnce spec availableAt now freshId t).2 x = attemptsOf t x := by
    unfold enqueueOnce
    split
    · rfl
    · rfl
  intro a member opened
  rw [attempts] at member
  obtain ⟨job, found, rest⟩ := held x a member opened
  exact ⟨job, rows x job found, rest⟩

theorem attemptsOf_fileOutcome (id attempt : Nat) (final : JobOutcome) (now : Instant)
    (retryAt : Option Instant) (code : Option String) (t : JobTables) :
    attemptsOf (fileOutcome id attempt final now retryAt code t) id =
      (attemptsOf t id).map (changeAttempt attempt fun a =>
        { a with finishedAt := some now, outcome := some final, safeErrorCode := code }) := by
  unfold fileOutcome
  rw [attemptsOf_modifyAttempt, if_pos rfl]
  · rfl
  · intro a
    rfl

theorem finish_matches {job : ClaimedJob} {outcome : JobOutcome} {now : Instant}
    {retryAt : Option Instant} {code : Option String} {t t' : JobTables}
    {target : Option (Nat × Nat)} (kept : TablesKept t) (held : ∀ x, OpenMatches t x)
    (filed : finish job outcome now retryAt code t = .ok (target, t')) (x : Nat) :
    OpenMatches t' x := by
  obtain ⟨_, _, _, _, _, _, _, _, touches⟩ := finish_tables kept filed
  refine openMatches_of_touches held touches (openMatches_of_closed ?_) x
  obtain ⟨stored, found, _, ⟨_, same⟩ | ⟨_, time, _, same⟩⟩ := finish_ok filed
  · have latest := latest_of_held (held job.id) found
    rw [same, attemptsOf_fileOutcome]
    exact closed_by_change (fun _ => Option.some_ne_none _) latest
  · have latest := latest_of_held (held job.id) found
    have attempts : attemptsOf t' job.id = (attemptsOf t job.id).map
        (changeAttempt stored.attemptCount fun a =>
          { a with finishedAt := some now, outcome := some .retry, safeErrorCode := code }) := by
      rw [same]
      exact attemptsOf_fileOutcome job.id stored.attemptCount .retry now retryAt code t
    rw [attempts]
    exact closed_by_change (fun _ => Option.some_ne_none _) latest

theorem replay_matches {jobId : Nat} {now : Instant} {t t' : JobTables}
    {target : Option (Nat × Nat)} (kept : TablesKept t) (held : ∀ x, OpenMatches t x)
    (replayed : replay jobId now t = .ok (target, t')) (x : Nat) : OpenMatches t' x := by
  obtain ⟨_, same | ⟨stored, _, found, waiting, _, _, _, touches⟩⟩ := replay_tables kept replayed
  · rw [same]
    exact held x
  · have idle : stored.state ≠ .leased := by
      rw [waiting]
      decide
    have attempts : attemptsOf t' jobId = attemptsOf t jobId := by
      unfold replay at replayed
      simp only [found] at replayed
      split at replayed
      · cases replayed
        rfl
      · split at replayed
        · cases replayed
        · cases replayed
          rfl
    refine openMatches_of_touches held touches (openMatches_of_closed ?_) x
    rw [attempts]
    exact closed_of_idle (held jobId) found idle

theorem closeExpired_closes (now : Instant) (a : JobAttempt) :
    (closeExpired now a).finishedAt ≠ none := by
  unfold closeExpired
  split
  · next closed =>
    intro opened
    rw [opened] at closed
    cases closed
  · exact Option.some_ne_none _

theorem recoverJob_matches (now : Instant) {t : JobTables} {job : DurableJob}
    (kept : TablesKept t) (held : ∀ x, OpenMatches t x) (found : t.job job.id = some job)
    (x : Nat) : OpenMatches (recoverJob now t job) x := by
  obtain ⟨_, touches, _⟩ := recoverJob_tables now kept found
  refine openMatches_of_touches held touches (openMatches_of_closed ?_) x
  unfold recoverJob
  split
  · have released : attemptsOf (releaseLease job.id job.attemptCount now
        (supersedeDispatch job.id job.generation t)) job.id =
          (attemptsOf t job.id).map (changeAttempt job.attemptCount (closeExpired now)) :=
      (attemptsOf_modifyAttempt _ job.id job.attemptCount (f := closeExpired now)
        (fun a => (closeExpired_same now a).1) job.id).trans (if_pos rfl)
    intro a member
    refine closed_by_change (closeExpired_closes now) (latest_of_held (held job.id) found) a ?_
    rw [← released]
    exact member
  · next unowned =>
    have idle : job.state ≠ .leased := by
      intro leased
      obtain ⟨workerId, _, owner, _⟩ := (jobKept_some kept found).leased leased
      rw [owner] at unowned
      exact unowned rfl
    intro a member
    exact closed_of_idle (held job.id) found idle a member

theorem recoverJobs_matches (now : Instant) {stale : List DurableJob} {t : JobTables}
    (kept : TablesKept t) (held : ∀ x, OpenMatches t x) (distinct : (stale.map DurableJob.id).Nodup)
    (selected : ∀ job ∈ stale, t.job job.id = some job) (x : Nat) :
    OpenMatches (stale.foldl (recoverJob now) t) x := by
  induction stale generalizing t with
  | nil => exact held x
  | cons job rest ih =>
    rw [List.map_cons, List.nodup_cons] at distinct
    have here := selected job List.mem_cons_self
    obtain ⟨keptJob, touches, _⟩ := recoverJob_tables now kept here
    refine ih keptJob (recoverJob_matches now kept held here) distinct.2 ?_
    intro other member
    rw [touches.row other.id]
    · exact selected other (List.mem_cons_of_mem _ member)
    · intro same
      exact distinct.1 (same ▸ List.mem_map_of_mem member)

theorem recoverStale_matches {staleGrace : Int} {limit : Nat} {now : Instant} {t t' : JobTables}
    {targets : List (Nat × Nat)} (kept : TablesKept t) (held : ∀ x, OpenMatches t x)
    (recovered : recoverStaleDispatched staleGrace limit now t = .ok (targets, t')) (x : Nat) :
    OpenMatches t' x := by
  unfold recoverStaleDispatched at recovered
  split at recovered
  · cases recovered
  · split at recovered
    · cases recovered
    · cases recovered
      have sorted := List.mergeSort_perm
        (t.jobs.filter (staleCandidate (now - staleGrace) now t))
        (fun a b => decide (dispatchedOrder t a ≤ dispatchedOrder t b))
      refine recoverJobs_matches now kept held ?_ ?_ x
      · refine List.Nodup.sublist ((List.take_sublist _ _).map _) ?_
        exact (sorted.map DurableJob.id).nodup_iff.2
          (kept.unique.sublist (List.filter_sublist.map _))
      · intro job member
        have present := List.mem_mergeSort.1 (List.mem_of_mem_take member)
        exact job_of_mem kept.unique (List.mem_filter.1 present).1

/-! ## Every run -/

theorem idle_of_claim {w : FencedWorld} {workerId : String} {leaseFor : Int}
    (fresh : takesOver w (.claim workerId leaseFor) = false) {c : ClaimedJob × JobTables}
    (kept : TablesKept w.tables) (taken : claim workerId w.now leaseFor w.tables = some c) :
    ∃ job, w.tables.job job.id = some job ∧ job.state ≠ .leased ∧
      c = lease job workerId w.now leaseFor w.tables := by
  obtain ⟨job, best, rfl⟩ := Option.map_eq_some_iff.1 taken
  obtain ⟨member, _⟩ := List.mem_filter.1 (List.argmin_mem best)
  refine ⟨job, job_of_mem kept.unique member, ?_, rfl⟩
  intro leased
  have chosen : (some job).any (fun job => job.state == .leased) = false := by
    rw [← Option.mem_def.1 best]
    exact fresh
  simp [leased] at chosen

theorem idle_of_claimSpecific {w : FencedWorld} {jobId generation : Nat} {workerId : String}
    {leaseFor : Int}
    (fresh : takesOver w (.claimSpecific jobId generation workerId leaseFor) = false)
    {c : ClaimedJob × JobTables}
    (taken : claimSpecific jobId generation workerId w.now leaseFor w.tables = .ok (some c)) :
    ∃ job, w.tables.job job.id = some job ∧ job.state ≠ .leased ∧
      c = lease job workerId w.now leaseFor w.tables := by
  obtain ⟨job, takes, named, current, rfl⟩ := claimSpecific_taken taken
  refine ⟨job, takes.found, ?_, rfl⟩
  intro leased
  have found : w.tables.job jobId = some job := by
    rw [← named]
    exact takes.found
  have due : job.availableAt ≤ w.now := by
    unfold claimSpecific at taken
    split at taken
    · cases taken
    · simp only [found] at taken
      split at taken
      · cases taken
      · iterate 2 (split at taken; · cases taken)
        split at taken
        · cases taken
        · next late => exact Int.not_lt.1 late
  have query : claimQuery w.now job = true := by
    simp only [claimQuery, Bool.and_eq_true, decide_eq_true_eq, Option.all_eq_true]
    refine ⟨⟨⟨?_, due⟩, takes.expired⟩, takes.left⟩
    rw [leased]
    rfl
  simp [takesOver, found, leased, query, current] at fresh

/-- One step that takes over no job. -/
theorem fencedStep_matches (op : FencedOperation) {w : FencedWorld} (kept : TablesKept w.tables)
    (held : ∀ x, OpenMatches w.tables x) (fresh : takesOver w op = false) (x : Nat) :
    OpenMatches (fencedStep w op).tables x := by
  cases op with
  | enqueueOnce spec availableAt freshId => exact enqueue_matches kept held x
  | claim workerId leaseFor =>
    simp only [fencedStep]
    cases taken : claim workerId w.now leaseFor w.tables with
    | none => exact held x
    | some c =>
      obtain ⟨job, found, idle, rfl⟩ := idle_of_claim fresh kept taken
      exact lease_matches held found idle workerId w.now leaseFor x
  | claimSpecific jobId generation workerId leaseFor =>
    simp only [fencedStep]
    cases taken : claimSpecific jobId generation workerId w.now leaseFor w.tables with
    | error e => exact held x
    | ok claimed =>
      cases claimed with
      | none => exact held x
      | some c =>
        obtain ⟨job, found, idle, rfl⟩ := idle_of_claimSpecific fresh taken
        exact lease_matches held found idle workerId w.now leaseFor x
  | heartbeat jobId workerId attempt leaseUntil =>
    simp only [fencedStep]
    split
    · rcases heartbeat_cases jobId workerId attempt leaseUntil w.tables with ⟨same, _⟩ |
        ⟨stored, found, _, _, leased, changed⟩
      · rw [same]
        exact held x
      · rw [changed]
        refine openMatches_of_touches held (touches_modifyJob w.tables jobId fun _ => by rfl) ?_ x
        intro a member opened
        obtain ⟨job, same, number, _⟩ := held jobId a member opened
        rw [found] at same
        cases same
        exact ⟨_, job_modifyJob_same found fun _ => rfl, number, leased⟩
    · exact held x
  | finish job outcome retryAt safeErrorCode =>
    simp only [fencedStep]
    split
    · next filed => exact finish_matches kept held filed x
    · exact held x
  | replay jobId =>
    simp only [fencedStep]
    split
    · next replayed => exact replay_matches kept held replayed x
    · exact held x
  | recoverStale staleGrace limit =>
    simp only [fencedStep]
    split
    · next recovered => exact recoverStale_matches kept held recovered x
    · exact held x
  | recordDispatched jobId generation =>
    obtain ⟨jobs, attempts, _⟩ := recordDispatched_rows jobId generation w.now w.tables
    refine openMatches_of_same (held x) ?_ ?_
    · simp only [fencedStep, JobTables.job, jobs]
    · simp only [fencedStep, attemptsOf, attempts]
  | recordDispatchFailure jobId generation =>
    obtain ⟨jobs, attempts, _⟩ := recordDispatchFailure_rows jobId generation w.tables
    refine openMatches_of_same (held x) ?_ ?_
    · simp only [fencedStep, JobTables.job, jobs]
    · simp only [fencedStep, attemptsOf, attempts]
  | advance duration => exact held x

theorem fencedRun_matches (ops : List FencedOperation) {w : FencedWorld} (kept : GrantsKept w)
    (held : ∀ x, OpenMatches w.tables x) (fresh : neverTakesOver ops w = true) (x : Nat) :
    OpenMatches (fencedRun ops w).tables x := by
  induction ops generalizing w with
  | nil => exact held x
  | cons op rest ih =>
    rw [neverTakesOver, Bool.and_eq_true, Bool.not_eq_true'] at fresh
    exact ih (fencedStep_kept op kept) (fencedStep_matches op kept.tables held fresh.1) fresh.2

/-- Rows with distinct numbers, all of one number, are at most one row. -/
theorem length_le_one_of_number {attempts : List JobAttempt} {number : Nat}
    (distinct : (attempts.map JobAttempt.attemptNumber).Nodup)
    (same : ∀ a ∈ attempts, a.attemptNumber = number) : attempts.length ≤ 1 := by
  have constant : attempts.map JobAttempt.attemptNumber =
      List.replicate attempts.length number := by
    rw [List.eq_replicate_iff, List.length_map]
    refine ⟨rfl, ?_⟩
    intro n member
    obtain ⟨a, present, rfl⟩ := List.mem_map.1 member
    exact same a present
  rw [constant, List.nodup_replicate] at distinct
  exact distinct

theorem historyMatches_of_open {t : JobTables} {job : DurableJob} (kept : TablesKept t)
    (found : t.job job.id = some job) (held : OpenMatches t job.id) : HistoryMatches t job := by
  have numbered := (jobKept_some kept found).numbered
  have latest : ∀ a ∈ attemptsOf t job.id, a.finishedAt = none →
      a.attemptNumber = job.attemptCount ∧ job.state = .leased := by
    intro a member opened
    obtain ⟨stored, same, rest⟩ := held a member opened
    rw [found] at same
    cases same
    exact rest
  refine ⟨numbered, ?_, latest⟩
  refine @length_le_one_of_number _ job.attemptCount ?_ ?_
  · have distinct : ((attemptsOf t job.id).map JobAttempt.attemptNumber).Nodup := by
      rw [numbered]
      exact List.nodup_range'
    exact distinct.sublist (List.filter_sublist.map _)
  · intro a member
    obtain ⟨present, opened⟩ := List.mem_filter.1 member
    exact (latest a present (Option.isNone_iff_eq_none.1 opened)).1

/-- In every run in which no claim takes over a lease that has run out, the attempts of every
job are numbered without gaps and at most the latest one of a leased job is open. -/
theorem attempts_match_jobs (now : Instant) (ops : List FencedOperation)
    (fresh : neverTakesOver ops (unfenced now) = true) :
    ∀ job ∈ (fencedRun ops (unfenced now)).tables.jobs,
      HistoryMatches (fencedRun ops (unfenced now)).tables job := by
  intro job member
  have kept := (fencedRun_kept ops (unfenced_kept now)).tables
  refine historyMatches_of_open kept (job_of_mem kept.unique member) ?_
  refine fencedRun_matches ops (unfenced_kept now) ?_ fresh job.id
  intro x a missing
  cases missing

/-- A job is claimed, filed for a retry, claimed again and completed. -/
def retriedAttempt : List FencedOperation :=
  [.enqueueOnce deliverySpec 0 1, .claim "worker-a" 120000000,
    .finish ⟨1, deliverySpec, 1, "worker-a", 120000000⟩ .retry (some 0) (some "unavailable"),
    .claim "worker-b" 120000000]

theorem retried_attempts_match :
    neverTakesOver retriedAttempt (unfenced 0) = true ∧
      (fencedRun retriedAttempt (unfenced 0)).tables.attempts.map JobAttempt.outcome =
        [some .retry, none] ∧
      ∀ job ∈ (fencedRun retriedAttempt (unfenced 0)).tables.jobs,
        HistoryMatches (fencedRun retriedAttempt (unfenced 0)).tables job :=
  ⟨by decide, by decide, attempts_match_jobs 0 retriedAttempt (by decide)⟩

/-- The worker of the first claim crashes, and the second claim takes the job over. -/
def takenOver : List FencedOperation :=
  [.enqueueOnce deliverySpec 0 1, .claim "worker-a" 1, .advance 2, .claim "worker-b" 1]

theorem taken_over_attempt_stays_open :
    ¬∀ job ∈ (fencedRun takenOver (unfenced 0)).tables.jobs,
      HistoryMatches (fencedRun takenOver (unfenced 0)).tables job := by
  intro all
  have opened : ∃ job ∈ (fencedRun takenOver (unfenced 0)).tables.jobs,
      ¬((attemptsOf (fencedRun takenOver (unfenced 0)).tables job.id).filter
        fun a => a.finishedAt.isNone).length ≤ 1 := by decide
  obtain ⟨job, member, two⟩ := opened
  exact two (all job member).single

end AttemptHistory
