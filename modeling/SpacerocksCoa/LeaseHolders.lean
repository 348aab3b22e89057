import SpacerocksCoa.JobClaims

/-!
# Who holds the lease of a job

A claim gives one attempt of a job to one worker. Rows are never removed, attempt numbers
never go back, and a row that is leased under an unchanged attempt number was leased to the
same worker before. So an attempt that lost its lease has lost it for good, whatever
operations follow. Leases that have run out but were not taken over still count as held,
as they do for the code.
-/
namespace LeaseHolders
open OrderStates JobClaims

def HeldBy (job : ClaimedJob) (row : DurableJob) : Prop :=
  row.state = .leased ∧ row.leaseOwner = some job.leaseOwner ∧ row.attemptCount = job.attempt

instance (job : ClaimedJob) (row : DurableJob) : Decidable (HeldBy job row) :=
  instDecidableAnd

def Holds (job : ClaimedJob) (t : JobTables) : Prop :=
  ∃ row, t.job job.id = some row ∧ HeldBy job row

instance (job : ClaimedJob) (t : JobTables) : Decidable (Holds job t) :=
  decidable_of_iff ((t.job job.id).any (fun row => decide (HeldBy job row)) = true)
    (by simp [Holds, Option.any_eq_true])

/-- The attempt has been given out. -/
def Known (job : ClaimedJob) (t : JobTables) : Prop :=
  ∃ row, t.job job.id = some row ∧ job.attempt ≤ row.attemptCount

def Lost (job : ClaimedJob) (t : JobTables) : Prop := Known job t ∧ ¬Holds job t

/-- What happens to the row of a job over time. -/
structure Continues (row row' : DurableJob) : Prop where
  attempts : row.attemptCount ≤ row'.attemptCount
  leased : row'.attemptCount = row.attemptCount → row'.state = .leased →
    row.state = .leased ∧ row'.leaseOwner = row.leaseOwner
  kind : row'.kind = row.kind

def RowsContinue (t t' : JobTables) : Prop :=
  ∀ id row, t.job id = some row → ∃ row', t'.job id = some row' ∧ Continues row row'

/-- Every row goes on under its identifier, and no row of another kind of job appears. -/
structure Carries (t t' : JobTables) : Prop where
  ids : t'.jobs.map DurableJob.id = t.jobs.map DurableJob.id
  rows : RowsContinue t t'
  kinds : ∀ row' ∈ t'.jobs, ∃ row ∈ t.jobs, row'.kind = row.kind

lemma continues_refl (row : DurableJob) : Continues row row :=
  ⟨le_rfl, fun _ leased => ⟨leased, rfl⟩, rfl⟩

lemma Continues.trans {a b c : DurableJob} (first : Continues a b) (second : Continues b c) :
    Continues a c := by
  refine ⟨first.attempts.trans second.attempts, fun same leased => ?_,
    second.kind.trans first.kind⟩
  have before := first.attempts
  have after := second.attempts
  obtain ⟨leased_b, owner_c⟩ := second.leased (by omega) leased
  obtain ⟨leased_a, owner_b⟩ := first.leased (by omega) leased_b
  exact ⟨leased_a, owner_c.trans owner_b⟩

lemma rowsContinue_refl (t : JobTables) : RowsContinue t t :=
  fun _ row found => ⟨row, found, continues_refl row⟩

lemma RowsContinue.trans {a b c : JobTables} (first : RowsContinue a b)
    (second : RowsContinue b c) : RowsContinue a c := by
  intro id row found
  obtain ⟨row', found', continues⟩ := first id row found
  obtain ⟨row'', found'', continues'⟩ := second id row' found'
  exact ⟨row'', found'', continues.trans continues'⟩

lemma carries_refl (t : JobTables) : Carries t t :=
  ⟨rfl, rowsContinue_refl t, fun row member => ⟨row, member, rfl⟩⟩

lemma Carries.trans {a b c : JobTables} (first : Carries a b) (second : Carries b c) :
    Carries a c := by
  refine ⟨second.ids.trans first.ids, first.rows.trans second.rows, fun row'' member => ?_⟩
  obtain ⟨row', member', kind⟩ := second.kinds row'' member
  obtain ⟨row, member, kind'⟩ := first.kinds row' member'
  exact ⟨row, member, kind.trans kind'⟩

section
variable {job : ClaimedJob} {t t' : JobTables}

lemma known_later (later : RowsContinue t t') (known : Known job t) : Known job t' := by
  obtain ⟨row, found, given⟩ := known
  obtain ⟨row', found', continues⟩ := later _ _ found
  exact ⟨row', found', given.trans continues.attempts⟩

lemma holds_earlier (later : RowsContinue t t') (known : Known job t) (holds : Holds job t') :
    Holds job t := by
  obtain ⟨row, found, given⟩ := known
  obtain ⟨row', found', continues⟩ := later _ _ found
  obtain ⟨row'', found'', leased, owner, attempt⟩ := holds
  rw [found'] at found''
  cases found''
  have forward := continues.attempts
  obtain ⟨leased_before, same_owner⟩ := continues.leased (by omega) leased
  exact ⟨row, found, leased_before, same_owner.symm.trans owner, by omega⟩

/-- What is lost stays lost. -/
lemma lost_later (later : RowsContinue t t') (lost : Lost job t) : Lost job t' :=
  ⟨known_later later lost.1, fun holds => lost.2 (holds_earlier later lost.1 holds)⟩

/-- A heartbeat succeeds for the holder only. -/
lemma holds_of_heartbeat {leaseUntil : Instant}
    (beats : (heartbeat job.id job.leaseOwner job.attempt leaseUntil t).1 = true) :
    Holds job t := by
  rcases heartbeat_cases job.id job.leaseOwner job.attempt leaseUntil t with
    ⟨failed, -⟩ | ⟨row, found, owner, attempt, leased, -⟩
  · rw [failed] at beats
    exact Bool.noConfusion beats
  · exact ⟨row, found, leased, owner, attempt⟩

end

/-! ## The operations -/

lemma carries_of_jobs {t t' : JobTables} (same : t'.jobs = t.jobs) : Carries t t' := by
  refine ⟨by rw [same], fun id row found => ⟨row, ?_, continues_refl row⟩,
    fun row member => ⟨row, ?_, rfl⟩⟩
  · rw [JobTables.job, same]
    exact found
  · rwa [same] at member

lemma carries_modifyJob (t : JobTables) (id : Nat) {f : DurableJob → DurableJob}
    (keeps : ∀ row, (f row).id = row.id) (continues : ∀ row, Continues row (f row)) :
    Carries t (t.modifyJob id f) := by
  refine ⟨ids_modifyJob t id keeps, ?_, ?_⟩
  · intro x row found
    rw [job_modifyJob t id keeps, found]
    refine ⟨_, rfl, ?_⟩
    split
    · exact continues row
    · exact continues_refl row
  · intro row' changed
    obtain ⟨row, member, rfl⟩ := List.mem_map.1 changed
    refine ⟨row, member, ?_⟩
    split
    · exact (continues row).kind
    · rfl

lemma carries_addTaskDispatch {t t' : JobTables} (carries : Carries t t') (id generation : Nat)
    (scheduleAt now : Instant) : Carries t (t'.addTaskDispatch id generation scheduleAt now) :=
  carries.trans (carries_of_jobs rfl)

lemma rows_enqueueOnce (spec : JobSpec) (availableAt now : Instant) (freshId : Nat)
    (t : JobTables) :
    RowsContinue t (enqueueOnce spec availableAt now freshId t).2 ∧
      ((t.jobs.map DurableJob.id).Nodup →
        ((enqueueOnce spec availableAt now freshId t).2.jobs.map DurableJob.id).Nodup) ∧
      ∀ row' ∈ (enqueueOnce spec availableAt now freshId t).2.jobs,
        row' ∈ t.jobs ∨ row'.kind = spec.kind := by
  unfold enqueueOnce
  split
  · exact ⟨rowsContinue_refl t, fun unique => unique, fun _ member => Or.inl member⟩
  · next fresh =>
    refine ⟨?_, ?_, ?_⟩
    · intro id row found
      refine ⟨row, ?_, continues_refl row⟩
      simp only [JobTables.job] at found
      simp only [insertJob, JobTables.addTaskDispatch, JobTables.job, List.find?_append, found,
        Option.some_or]
    · intro unique
      simp only [insertJob, JobTables.addTaskDispatch, List.map_append, List.map_singleton]
      refine List.nodup_append.2 ⟨unique, List.nodup_singleton _, ?_⟩
      intro x old y new same
      obtain ⟨row, member, rfl⟩ := List.mem_map.1 old
      refine fresh (List.any_eq_true.2 ⟨row, member, ?_⟩)
      rw [List.mem_singleton] at new
      simp [same, new, newJob]
    · intro row' member
      rcases List.mem_append.1 member with old | new
      · exact Or.inl old
      · cases List.mem_singleton.1 new
        exact Or.inr rfl

lemma carries_lease (row : DurableJob) (workerId : String) (now leaseFor : Int) (t : JobTables) :
    Carries t (lease row workerId now leaseFor t).2 := by
  refine (carries_modifyJob t row.id
    (f := fun job => { job with
      attemptCount := job.attemptCount + 1
      state := .leased
      leaseOwner := some workerId
      leaseUntil := some (now + leaseFor) })
    (fun _ => rfl) fun row => ⟨Nat.le_succ _, fun same _ => ?_, rfl⟩).trans (carries_of_jobs rfl)
  simp at same

lemma known_lease {row : DurableJob} {t : JobTables} (workerId : String) (now leaseFor : Int)
    (found : t.job row.id = some row) :
    Known (lease row workerId now leaseFor t).1 (lease row workerId now leaseFor t).2 := by
  have leased := job_modifyJob_same (f := fun job => { job with
    attemptCount := job.attemptCount + 1
    state := .leased
    leaseOwner := some workerId
    leaseUntil := some (now + leaseFor) }) found fun _ => rfl
  exact ⟨_, leased, le_rfl⟩

lemma claim_leases {workerId : String} {now leaseFor : Int} {t : JobTables}
    {c : ClaimedJob × JobTables} (taken : claim workerId now leaseFor t = some c) :
    ∃ row ∈ t.jobs, c = lease row workerId now leaseFor t := by
  obtain ⟨row, chosen, rfl⟩ := Option.map_eq_some_iff.1 taken
  exact ⟨row, (List.mem_filter.1 (List.argmin_mem chosen)).1, rfl⟩

lemma claimSpecific_leases {jobId generation : Nat} {workerId : String} {now leaseFor : Int}
    {t : JobTables} {c : ClaimedJob × JobTables}
    (taken : claimSpecific jobId generation workerId now leaseFor t = .ok (some c)) :
    ∃ row ∈ t.jobs, c = lease row workerId now leaseFor t := by
  unfold claimSpecific at taken
  split at taken
  · cases taken
  · split at taken
    · cases taken
    · next row found =>
      split at taken
      · cases taken
      · iterate 5 (split at taken; · cases taken)
        cases taken
        exact ⟨row, List.mem_of_find?_eq_some found, rfl⟩

lemma carries_heartbeat (jobId : Nat) (workerId : String) (attempt : Nat) (leaseUntil : Instant)
    (t : JobTables) : Carries t (heartbeat jobId workerId attempt leaseUntil t).2 := by
  rcases heartbeat_cases jobId workerId attempt leaseUntil t with ⟨failed, -⟩ | ⟨_, -, -, -, -, beat⟩
  · rw [failed]
    exact carries_refl t
  · rw [beat]
    exact carries_modifyJob t jobId (fun _ => rfl) fun row => ⟨le_rfl, fun _ leased => ⟨leased, rfl⟩, rfl⟩

lemma not_leased (final : JobOutcome) : final.state ≠ .leased := by
  cases final <;> decide

lemma carries_fileOutcome (id attempt : Nat) (final : JobOutcome) (now : Instant)
    (retryAt : Option Instant) (safeErrorCode : Option String) (t : JobTables) :
    Carries t (fileOutcome id attempt final now retryAt safeErrorCode t) := by
  refine (carries_modifyJob t id
    (f := fun stored => { stored with
      state := final.state
      availableAt := retryAt.getD stored.availableAt
      leaseOwner := none
      leaseUntil := none
      safeErrorCode := safeErrorCode })
    (fun _ => rfl) fun row => ⟨le_rfl, fun _ leased => ?_, rfl⟩).trans (carries_of_jobs rfl)
  exact absurd leased (not_leased final)

lemma carries_nextGeneration (id : Nat) (t : JobTables) : Carries t (nextGeneration id t) :=
  carries_modifyJob t id (fun _ => rfl) fun _ => ⟨le_rfl, fun _ leased => ⟨leased, rfl⟩, rfl⟩

lemma carries_finish {job : ClaimedJob} {outcome : JobOutcome} {now : Instant}
    {retryAt : Option Instant} {safeErrorCode : Option String} {t t' : JobTables}
    {target : Option (Nat × Nat)}
    (filed : finish job outcome now retryAt safeErrorCode t = .ok (target, t')) :
    Carries t t' := by
  obtain ⟨stored, -, -, ⟨-, rfl⟩ | ⟨-, time, -, rfl⟩⟩ := finish_ok filed
  · exact carries_fileOutcome _ _ _ _ _ _ _
  · exact carries_addTaskDispatch
      ((carries_fileOutcome _ _ _ _ _ _ _).trans (carries_nextGeneration _ _)) _ _ _ _

lemma carries_replay {jobId : Nat} {now : Instant} {t t' : JobTables}
    {target : Option (Nat × Nat)} (replayed : replay jobId now t = .ok (target, t')) :
    Carries t t' := by
  unfold replay at replayed
  split at replayed
  · cases replayed
  · split at replayed
    · cases replayed
      exact carries_refl _
    · split at replayed
      · cases replayed
      · cases replayed
        refine carries_addTaskDispatch (carries_modifyJob t jobId ?_ ?_) _ _ _ _
        · exact fun _ => rfl
        · exact fun row => ⟨le_rfl, fun _ leased => JobState.noConfusion leased, rfl⟩

lemma carries_releaseLease (id attempt : Nat) (now : Instant) (t : JobTables) :
    Carries t (releaseLease id attempt now t) := by
  refine Carries.trans (b := t.modifyAttempt id attempt _) (carries_of_jobs rfl)
    (carries_modifyJob _ id (fun _ => rfl) fun row => ⟨le_rfl, fun _ leased => ?_, rfl⟩)
  exact JobState.noConfusion leased

lemma carries_recoverJob (now : Instant) (t : JobTables) (row : DurableJob) :
    Carries t (recoverJob now t row) := by
  have superseded : Carries t (supersedeDispatch row.id row.generation t) := carries_of_jobs rfl
  unfold recoverJob
  refine carries_addTaskDispatch (Carries.trans ?_ (carries_nextGeneration _ _)) _ _ _ _
  split
  · exact superseded.trans (carries_releaseLease _ _ _ _)
  · exact superseded

lemma carries_recoverJobs (now : Instant) (rows : List DurableJob) (t : JobTables) :
    Carries t (rows.foldl (recoverJob now) t) := by
  induction rows generalizing t with
  | nil => exact carries_refl t
  | cons row rest ih => exact (carries_recoverJob now t row).trans (ih _)

lemma carries_recoverStale {staleGrace : Int} {limit : Nat} {now : Instant} {t t' : JobTables}
    {targets : List (Nat × Nat)}
    (recovered : recoverStaleDispatched staleGrace limit now t = .ok (targets, t')) :
    Carries t t' := by
  unfold recoverStaleDispatched at recovered
  split at recovered
  · cases recovered
  · split at recovered
    · cases recovered
    · cases recovered
      exact carries_recoverJobs now _ t

lemma carries_recordDispatched (jobId generation : Nat) (now : Instant) (t : JobTables) :
    Carries t (recordDispatched jobId generation now t).2 := by
  unfold recordDispatched
  split
  · exact carries_of_jobs rfl
  · exact carries_refl t

lemma carries_recordDispatchFailure (jobId generation : Nat) (t : JobTables) :
    Carries t (recordDispatchFailure jobId generation t) := by
  unfold recordDispatchFailure
  split
  · exact carries_of_jobs rfl
  · exact carries_refl t

end LeaseHolders
