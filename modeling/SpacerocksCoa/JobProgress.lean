import SpacerocksCoa.JobFencing

/-!
# How jobs and their dispatches go forward

Every operation on the job tables leaves each row at the same generation and attempt or at a
later one. A lease ends only with a later attempt, a later generation or the end of the job, a
job that is closed stays closed, and no dispatch row is removed or marked as dispatched by anything
but the bookkeeping of created tasks.
-/
namespace JobProgress
open OrderStates JobClaims JobRecovery JobFencing

/-- What may happen to the row of a job. -/
structure Advances (row row' : DurableJob) : Prop where
  generation : row.generation ≤ row'.generation
  attempts : row.attemptCount ≤ row'.attemptCount
  closed : row.state.claimable = false → row'.state.claimable = false
  spent : row.maxAttempts ≤ row.attemptCount → row'.maxAttempts ≤ row'.attemptCount ∨
    row.generation < row'.generation ∨ row'.state.claimable = false
  held : row.state = .leased → row'.attemptCount = row.attemptCount →
    (row'.state = .leased ∧ row'.leaseOwner = row.leaseOwner ∧
        row'.generation = row.generation) ∨
      row.generation < row'.generation ∨ row'.state.claimable = false

theorem advances_refl (row : DurableJob) : Advances row row :=
  ⟨le_rfl, le_rfl, id, .inl, fun leased _ => .inl ⟨leased, rfl, rfl⟩⟩

theorem Advances.trans {a b c : DurableJob} (first : Advances a b) (second : Advances b c) :
    Advances a c := by
  have generation₁ := first.generation
  have generation₂ := second.generation
  have attempts₁ := first.attempts
  have attempts₂ := second.attempts
  refine ⟨by omega, by omega, fun closed => second.closed (first.closed closed), fun spent => ?_,
    fun leased same => ?_⟩
  · rcases first.spent spent with spent' | later | closed
    · rcases second.spent spent' with spent'' | later | closed
      · exact .inl spent''
      · exact .inr (.inl (by omega))
      · exact .inr (.inr closed)
    · exact .inr (.inl (by omega))
    · exact .inr (.inr (second.closed closed))
  · rcases first.held leased (by omega) with ⟨leased', owner, number⟩ | later | closed
    · rcases second.held leased' (by omega) with ⟨leased'', owner', number'⟩ | later | closed
      · exact .inl ⟨leased'', owner'.trans owner, number'.trans number⟩
      · exact .inr (.inl (by omega))
      · exact .inr (.inr closed)
    · exact .inr (.inl (by omega))
    · exact .inr (.inr (second.closed closed))

/-- A row with a new generation. -/
theorem advances_of_later {row row' : DurableJob} (later : row.generation < row'.generation)
    (attempts : row.attemptCount ≤ row'.attemptCount) (running : row.state.claimable = true) :
    Advances row row' :=
  ⟨Nat.le_of_lt later, attempts, fun closed => absurd running (Bool.eq_false_iff.1 closed),
    fun _ => .inr (.inl later), fun _ _ => .inr (.inl later)⟩

/-- The same dispatch, whatever has been noted about it. -/
structure SameDispatch (d d' : TaskDispatch) : Prop where
  job : d'.jobId = d.jobId
  generation : d'.generation = d.generation
  scheduleAt : d'.scheduleAt = d.scheduleAt

theorem sameDispatch_refl (d : TaskDispatch) : SameDispatch d d := ⟨rfl, rfl, rfl⟩

theorem SameDispatch.trans {a b c : TaskDispatch} (first : SameDispatch a b)
    (second : SameDispatch b c) : SameDispatch a c :=
  ⟨second.job.trans first.job, second.generation.trans first.generation,
    second.scheduleAt.trans first.scheduleAt⟩

/-- Dispatches stay, and new ones are pending. -/
structure Grows (old new : List TaskDispatch) : Prop where
  kept : ∀ d ∈ old, ∃ d' ∈ new, SameDispatch d d'
  marked : ∀ d' ∈ new, d'.state = .pending ∨ ∃ d ∈ old, SameDispatch d d' ∧ d'.state = d.state

theorem grows_refl (l : List TaskDispatch) : Grows l l :=
  ⟨fun d member => ⟨d, member, sameDispatch_refl d⟩,
    fun d member => .inr ⟨d, member, sameDispatch_refl d, rfl⟩⟩

theorem Grows.trans {a b c : List TaskDispatch} (first : Grows a b) (second : Grows b c) :
    Grows a c := by
  constructor
  · intro d member
    obtain ⟨d', member', same⟩ := first.kept d member
    obtain ⟨d'', member'', same'⟩ := second.kept d' member'
    exact ⟨d'', member'', same.trans same'⟩
  · intro d'' member
    rcases second.marked d'' member with pending | ⟨d', member', same', state'⟩
    · exact .inl pending
    · rcases first.marked d' member' with pending | ⟨d, member, same, state⟩
      · exact .inl (state'.trans pending)
      · exact .inr ⟨d, member, same.trans same', state'.trans state⟩

theorem grows_append {l : List TaskDispatch} {d : TaskDispatch} (pending : d.state = .pending) :
    Grows l (l ++ [d]) := by
  constructor
  · intro other member
    exact ⟨other, List.mem_append_left _ member, sameDispatch_refl other⟩
  · intro other member
    rcases List.mem_append.1 member with old | new
    · exact .inr ⟨other, old, sameDispatch_refl other, rfl⟩
    · rw [List.mem_singleton.1 new]
      exact .inl pending

theorem grows_map {l : List TaskDispatch} {f : TaskDispatch → TaskDispatch}
    (same : ∀ d, SameDispatch d (f d) ∧ (f d).state = d.state) : Grows l (l.map f) := by
  constructor
  · intro d member
    exact ⟨f d, List.mem_map_of_mem member, (same d).1⟩
  · intro d' member
    obtain ⟨d, inside, rfl⟩ := List.mem_map.1 member
    exact .inr ⟨d, inside, same d⟩

/-- Every row goes forward, and the dispatches grow. -/
structure Progress (t t' : JobTables) : Prop where
  rows : ∀ id row, t.job id = some row → ∃ row', t'.job id = some row' ∧ Advances row row'
  dispatches : Grows t.dispatches t'.dispatches

theorem progress_refl (t : JobTables) : Progress t t :=
  ⟨fun _ row found => ⟨row, found, advances_refl row⟩, grows_refl _⟩

theorem Progress.trans {a b c : JobTables} (first : Progress a b) (second : Progress b c) :
    Progress a c := by
  refine ⟨fun id row found => ?_, first.dispatches.trans second.dispatches⟩
  obtain ⟨row', found', advances⟩ := first.rows id row found
  obtain ⟨row'', found'', advances'⟩ := second.rows id row' found'
  exact ⟨row'', found'', advances.trans advances'⟩

/-- One row changes. -/
theorem progress_of_row {t t' : JobTables} {id : Nat} {stored stored' : DurableJob}
    (found : t.job id = some stored) (after : t'.job id = some stored')
    (advances : Advances stored stored') (others : ∀ x, x ≠ id → t'.job x = t.job x)
    (dispatches : Grows t.dispatches t'.dispatches) : Progress t t' := by
  refine ⟨fun x row here => ?_, dispatches⟩
  by_cases same : x = id
  · subst same
    rw [found] at here
    cases here
    exact ⟨stored', after, advances⟩
  · exact ⟨row, (others x same).trans here, advances_refl row⟩

/-! ## Each operation -/

theorem progress_enqueueOnce (spec : JobSpec) (availableAt now : Instant) (freshId : Nat)
    {t : JobTables} (kept : TablesKept t) :
    Progress t (enqueueOnce spec availableAt now freshId t).2 := by
  refine ⟨fun id row found => ?_, ?_⟩
  · exact ⟨row, (enqueueOnce_tables kept).2 id row found, advances_refl row⟩
  · unfold enqueueOnce
    split
    · exact grows_refl _
    · exact grows_append rfl

theorem progress_lease {t : JobTables} {job : DurableJob} (found : t.job job.id = some job)
    (running : job.state.claimable = true) (workerId : String) (now leaseFor : Int) :
    Progress t (lease job workerId now leaseFor t).2 := by
  obtain ⟨changes, row, -⟩ := lease_job found workerId now leaseFor
  refine progress_of_row found row ?_ changes.others (grows_refl _)
  refine ⟨le_rfl, Nat.le_succ _, fun closed => absurd running (Bool.eq_false_iff.1 closed),
    fun spent => .inl (Nat.le_succ_of_le spent), fun _ same => ?_⟩
  exact absurd same (Nat.succ_ne_self job.attemptCount)

theorem progress_heartbeat (jobId : Nat) (workerId : String) (attempt : Nat)
    (leaseUntil : Instant) (t : JobTables) :
    Progress t (heartbeat jobId workerId attempt leaseUntil t).2 := by
  rcases heartbeat_cases jobId workerId attempt leaseUntil t with ⟨same, -⟩ |
    ⟨stored, found, -, -, -, changed⟩
  · rw [same]
    exact progress_refl t
  · have row := job_modifyJob_same
      (f := fun job : DurableJob => { job with leaseUntil := some leaseUntil }) found fun _ => rfl
    rw [changed]
    refine progress_of_row found row ?_ (changes_modifyJob t jobId fun _ => by rfl).others
      (grows_refl _)
    exact ⟨le_rfl, le_rfl, id, .inl, fun leased _ => .inl ⟨leased, rfl, rfl⟩⟩

theorem leased_of_leases {t : JobTables} {job : ClaimedJob} {stored : DurableJob}
    (kept : TablesKept t) (found : t.job job.id = some stored) (leases : Leases job stored) :
    stored.state = .leased :=
  (jobKept_some kept found).owned leases.owner

theorem running_of_leased {row : DurableJob} (leased : row.state = .leased) :
    row.state.claimable = true := by
  rw [leased]
  rfl

/-- A finish ends the job or begins its next generation. -/
theorem finish_ends {job : ClaimedJob} {outcome : JobOutcome} {now : Instant}
    {retryAt : Option Instant} {safeErrorCode : Option String} {t t' : JobTables}
    {target : Option (Nat × Nat)} (kept : TablesKept t)
    (filed : finish job outcome now retryAt safeErrorCode t = .ok (target, t')) :
    Progress t t' ∧ ∃ stored stored', t.job job.id = some stored ∧ Leases job stored ∧
      t'.job job.id = some stored' ∧
        (stored.generation < stored'.generation ∨ stored'.state.claimable = false) := by
  obtain ⟨stored, found, leases, ⟨other, rfl⟩ | ⟨-, time, -, rfl⟩⟩ := finish_ok filed
  · have closed := outcome_terminal other
    have changes := fileOutcome_changes job.id stored.attemptCount (finalOutcome stored outcome)
      now retryAt safeErrorCode t
    have row := @fileOutcome_job job.id stored.attemptCount (finalOutcome stored outcome) now
      retryAt safeErrorCode t stored found
    refine ⟨progress_of_row found row ?_ changes.others (grows_refl _), stored, _, found, leases,
      row, .inr closed⟩
    exact ⟨le_rfl, le_rfl, fun _ => closed, fun _ => .inr (.inr closed),
      fun _ _ => .inr (.inr closed)⟩
  · have running := running_of_leased (leased_of_leases kept found leases)
    have changes := (fileOutcome_changes job.id stored.attemptCount .retry now retryAt
      safeErrorCode t).trans (nextGeneration_changes job.id _)
    have row := nextGeneration_job (@fileOutcome_job job.id stored.attemptCount .retry now
      retryAt safeErrorCode t stored found)
    refine ⟨progress_of_row found row ?_ changes.others (grows_append rfl), stored, _, found,
      leases, row, .inl (Nat.lt_succ_self _)⟩
    exact advances_of_later (Nat.lt_succ_self _) le_rfl running

theorem progress_replay {jobId : Nat} {now : Instant} {t t' : JobTables}
    {target : Option (Nat × Nat)} (replayed : replay jobId now t = .ok (target, t')) :
    Progress t t' := by
  unfold replay at replayed
  cases found : t.job jobId with
  | none => simp only [found] at replayed; cases replayed
  | some stored =>
    simp only [found] at replayed
    split at replayed
    · cases replayed
      exact progress_refl t
    · split at replayed
      · cases replayed
      · next waiting =>
        cases replayed
        have running : stored.state.claimable = true := by
          rw [not_not.1 waiting]
          rfl
        have row := job_modifyJob_same (f := fun job => { job with
            state := .available
            availableAt := now
            leaseOwner := none
            leaseUntil := none
            safeErrorCode := none
            maxAttempts := max job.maxAttempts (job.attemptCount + 10)
            permitted := Nat.le_trans job.permitted (Nat.le_max_left _ _)
            generation := job.generation + 1 }) found fun _ => rfl
        refine progress_of_row found row ?_ (changes_modifyJob t jobId fun _ => by rfl).others
          (grows_append rfl)
        exact advances_of_later (Nat.lt_succ_self _) le_rfl running

theorem grows_supersede (id generation : Nat) (t : JobTables) :
    Grows t.dispatches (supersedeDispatch id generation t).dispatches := by
  refine grows_map fun d => ?_
  split
  · exact ⟨⟨rfl, rfl, rfl⟩, rfl⟩
  · exact ⟨sameDispatch_refl d, rfl⟩

theorem progress_recoverJob (now : Instant) {t : JobTables} {job : DurableJob}
    (found : t.job job.id = some job) (running : job.state.claimable = true) :
    Progress t (recoverJob now t job) := by
  have superseded := grows_supersede job.id job.generation t
  have row : (supersedeDispatch job.id job.generation t).job job.id = some job := found
  have changes := recoverJob_changes now t job
  by_cases owned : job.leaseOwner.isSome = true
  · simp only [recoverJob, if_pos owned] at changes ⊢
    exact progress_of_row found (nextGeneration_job (releaseLease_job row))
      (advances_of_later (Nat.lt_succ_self _) le_rfl running) changes.others
      (superseded.trans (grows_append rfl))
  · simp only [recoverJob, if_neg owned] at changes ⊢
    exact progress_of_row found (nextGeneration_job row)
      (advances_of_later (Nat.lt_succ_self _) le_rfl running) changes.others
      (superseded.trans (grows_append rfl))

/-- Recovered rows are distinct, so each is still as it was selected. -/
theorem progress_recoverJobs (now : Instant) {stale : List DurableJob} {t : JobTables}
    (distinct : (stale.map DurableJob.id).Nodup)
    (selected : ∀ job ∈ stale, t.job job.id = some job ∧ job.state.claimable = true) :
    Progress t (stale.foldl (recoverJob now) t) := by
  induction stale generalizing t with
  | nil => exact progress_refl t
  | cons job rest ih =>
    rw [List.map_cons, List.nodup_cons] at distinct
    obtain ⟨found, running⟩ := selected job List.mem_cons_self
    refine (progress_recoverJob now found running).trans (ih distinct.2 fun other member => ?_)
    obtain ⟨here, active⟩ := selected other (List.mem_cons_of_mem _ member)
    refine ⟨((recoverJob_changes now t job).others other.id fun same => ?_).trans here, active⟩
    exact distinct.1 (same ▸ List.mem_map_of_mem member)

theorem progress_recoverStale {staleGrace : Int} {limit : Nat} {now : Instant} {t t' : JobTables}
    {targets : List (Nat × Nat)} (kept : TablesKept t)
    (recovered : recoverStaleDispatched staleGrace limit now t = .ok (targets, t')) :
    Progress t t' := by
  unfold recoverStaleDispatched at recovered
  split at recovered
  · cases recovered
  split at recovered
  · cases recovered
  cases recovered
  refine progress_recoverJobs now ?_ fun job member => ?_
  · have sorted := List.mergeSort_perm
      (t.jobs.filter (staleCandidate (now - staleGrace) now t))
      (fun a b => decide (dispatchedOrder t a ≤ dispatchedOrder t b))
    refine List.Nodup.sublist ((List.take_sublist _ _).map _) ?_
    exact (sorted.map DurableJob.id).nodup_iff.2
      (kept.unique.sublist (List.filter_sublist.map _))
  · obtain ⟨stored, candidate⟩ :=
      List.mem_filter.1 (List.mem_mergeSort.1 (List.mem_of_mem_take member))
    rw [staleCandidate] at candidate
    simp only [Bool.and_eq_true] at candidate
    exact ⟨job_of_mem kept.unique stored, candidate.1.1.1.2⟩

/-! ## What a claim says -/

theorem claim_running {workerId : String} {now leaseFor : Int} {t : JobTables}
    {c : ClaimedJob × JobTables} (kept : TablesKept t)
    (taken : claim workerId now leaseFor t = some c) :
    ∃ job, t.job job.id = some job ∧ job.state.claimable = true ∧
      job.attemptCount < job.maxAttempts ∧ c = lease job workerId now leaseFor t := by
  obtain ⟨job, best, rfl⟩ := Option.map_eq_some_iff.1 taken
  obtain ⟨member, selected⟩ := List.mem_filter.1 (List.argmin_mem best)
  simp only [claimQuery, Bool.and_eq_true, decide_eq_true_eq] at selected
  exact ⟨job, job_of_mem kept.unique member, selected.1.1.1, selected.2, rfl⟩

/-- A specific claim finds its job and its dispatch; it takes the job, or says that this
generation has nothing left to do. -/
theorem claimSpecific_ok {jobId generation : Nat} {workerId : String} {now leaseFor : Int}
    {t : JobTables} {claimed : Option (ClaimedJob × JobTables)}
    (ok : claimSpecific jobId generation workerId now leaseFor t = .ok claimed) :
    ∃ job, t.job jobId = some job ∧ t.HasDispatch jobId generation ∧
      ((claimed = none ∧ (job.generation ≠ generation ∨ job.state.claimable = false ∨
          job.maxAttempts ≤ job.attemptCount)) ∨
        (job.generation = generation ∧ job.state.claimable = true ∧
          job.attemptCount < job.maxAttempts ∧
            claimed = some (lease job workerId now leaseFor t))) := by
  unfold claimSpecific at ok
  split at ok
  · cases ok
  cases found : t.job jobId with
  | none => simp only [found] at ok; cases ok
  | some job =>
    simp only [found] at ok
    cases dispatched : t.dispatch jobId generation with
    | none => simp only [dispatched] at ok; cases ok
    | some d =>
      simp only [dispatched] at ok
      have present : t.HasDispatch jobId generation := by
        rw [JobTables.HasDispatch, dispatched]
        rfl
      refine ⟨job, rfl, present, ?_⟩
      split at ok
      · next other =>
        cases ok
        exact .inl ⟨rfl, .inl other⟩
      next same =>
      split at ok
      · next closed =>
        cases ok
        exact .inl ⟨rfl, .inr (.inl closed)⟩
      next running =>
      iterate 2 (split at ok; · cases ok)
      split at ok
      · next spent =>
        cases ok
        exact .inl ⟨rfl, .inr (.inr spent)⟩
      · next left =>
        cases ok
        exact .inr ⟨not_not.1 same, Bool.eq_true_of_not_eq_false running, Nat.lt_of_not_le left,
          rfl⟩

end JobProgress
