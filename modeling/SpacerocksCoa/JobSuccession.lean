import SpacerocksCoa.LeaseHolders
import SpacerocksCoa.WorkerRuns

/-!
# How the rows of jobs go on

No operation removes a row or changes what it is about, and only `finish` ends one. A poll is
named after the second in which it falls due; until then nobody takes it. So the name of the next
poll, which is read off the clock by a run of this one, is a later second.
-/
namespace JobSuccession
open OrderStates JobClaims WorkerRuns

/-! ## Chains that cannot end -/

/-- Where everything that is over points to something later, something is not over. -/
theorem exists_open {α : Type} {all : List α} {over_ : α → Prop} {time : α → Option Int}
    (some_ : ∃ a, a ∈ all)
    (later : ∀ a ∈ all, over_ a →
      ∃ b ∈ all, ∃ t, time b = some t ∧ ∀ u, time a = some u → u < t) :
    ∃ a ∈ all, ¬over_ a := by
  by_contra none_
  have ended : ∀ a ∈ all, over_ a := by
    intro a member
    by_contra open_
    exact none_ ⟨a, member, open_⟩
  obtain ⟨a, first⟩ := some_
  obtain ⟨b, second, t, named, -⟩ := later a first (ended a first)
  have listed : ∀ c ∈ all, ∀ u, time c = some u → u ∈ all.filterMap time :=
    fun c member u shown => List.mem_filterMap.2 ⟨c, member, shown⟩
  obtain ⟨top, greatest⟩ : ∃ top, (all.filterMap time).argmax id = some top := by
    rw [← Option.isSome_iff_exists, Option.isSome_iff_ne_none, Ne, List.argmax_eq_none]
    exact List.ne_nil_of_mem (listed b second t named)
  obtain ⟨c, member, shown⟩ := List.mem_filterMap.1 (List.argmax_mem greatest)
  obtain ⟨d, next, u, named', beyond⟩ := later c member (ended c member)
  have within : u ≤ top := List.le_of_mem_argmax (listed d next u named') greatest
  exact absurd (beyond top shown) (not_lt.2 within)

/-! ## Names -/

def kindOf : JobKey → JobKind
  | .stamp _ => .stampManifestDigest
  | .upgrade _ => .upgradeTimestamp
  | .upgradePoll _ _ => .upgradeTimestamp
  | .upgradeManual _ _ _ => .upgradeTimestamp
  | .reverify _ _ _ => .upgradeTimestamp
  | .delivery _ => .deliverTimestamp
  | .confirmationPoll _ _ => .monitorBitcoinConfirmations

def pollSecond : JobKey → Option Int
  | .upgradePoll _ seconds => some seconds
  | .confirmationPoll _ seconds => some seconds
  | _ => none

/-- The second of a poll is not over before the instant it is made for. -/
theorem second_le (t : Instant) : t / second * second ≤ t := Int.ediv_mul_le t (by decide)

/-- A poll that is made after its predecessor fell due is named after a later second. -/
theorem second_later {seconds : Int} {now interval : Instant} (due : seconds * second ≤ now)
    (whole : second ≤ interval) : seconds < (now + interval) / second := by
  have after : (seconds + 1) * second ≤ now + interval := by
    rw [Int.add_mul, Int.one_mul]
    exact Int.add_le_add due whole
  exact Int.lt_of_add_one_le ((Int.le_ediv_iff_mul_le (by decide)).2 after)

/-! ## Rows -/

/-- Nobody has taken the row, and it is not due before the instant. -/
structure Waits (row : DurableJob) (t : Instant) : Prop where
  state : row.state = .available
  owner : row.leaseOwner = none
  due : t ≤ row.availableAt

/-- What an operation at an instant makes of a row. -/
structure GoesOn (ends : DurableJob → JobState → Prop) (now : Instant) (row row' : DurableJob) :
    Prop where
  id : row'.id = row.id
  key : row'.jobKey = row.jobKey
  kind : row'.kind = row.kind
  attempts : row.maxAttempts ≤ row'.maxAttempts
  ended : row'.state.claimable = false → row'.state = row.state ∨ ends row row'.state
  waits : ∀ t, now < t → Waits row t → Waits row' t

/-- Nothing ends. -/
def noEnds : DurableJob → JobState → Prop := fun _ _ => False

/-- Every row goes on, and no row appears. -/
def GoOn (ends : DurableJob → JobState → Prop) (now : Instant) (t t' : JobTables) : Prop :=
  ∃ f, t'.jobs = t.jobs.map f ∧ ∀ row ∈ t.jobs, GoesOn ends now row (f row)

section
variable {ends : DurableJob → JobState → Prop} {now : Instant} {t t' t'' : JobTables}

theorem goesOn_refl (row : DurableJob) : GoesOn ends now row row :=
  ⟨rfl, rfl, rfl, le_rfl, fun _ => Or.inl rfl, fun _ _ waits => waits⟩

theorem GoesOn.trans {a b c : DurableJob} (first : GoesOn noEnds now a b)
    (next : GoesOn noEnds now b c) : GoesOn noEnds now a c where
  id := next.id.trans first.id
  key := next.key.trans first.key
  kind := next.kind.trans first.kind
  attempts := first.attempts.trans next.attempts
  ended over_ := by
    have same := (next.ended over_).resolve_right not_false
    rw [same] at over_ ⊢
    exact first.ended over_
  waits t later waits := next.waits t later (first.waits t later waits)

theorem goOn_refl (t : JobTables) : GoOn ends now t t :=
  ⟨id, (List.map_id _).symm, fun row _ => goesOn_refl row⟩

theorem GoOn.trans (first : GoOn noEnds now t t') (next : GoOn noEnds now t' t'') :
    GoOn noEnds now t t'' := by
  obtain ⟨f, rows, goes⟩ := first
  obtain ⟨g, rows', goes'⟩ := next
  refine ⟨g ∘ f, by rw [rows', rows, List.map_map], fun row member => ?_⟩
  exact (goes row member).trans (goes' (f row) (rows ▸ List.mem_map_of_mem member))

theorem goOn_of_jobs (same : t'.jobs = t.jobs) : GoOn ends now t t' :=
  ⟨id, by rw [same, List.map_id], fun row _ => goesOn_refl row⟩

theorem GoOn.then_jobs (first : GoOn ends now t t') (same : t''.jobs = t'.jobs) :
    GoOn ends now t t'' := by
  obtain ⟨f, rows, goes⟩ := first
  exact ⟨f, same.trans rows, goes⟩

theorem goOn_modifyJob {id : Nat} {f : DurableJob → DurableJob}
    (goes : ∀ row ∈ t.jobs, row.id = id → GoesOn ends now row (f row)) :
    GoOn ends now t (t.modifyJob id f) := by
  refine ⟨fun row => if row.id = id then f row else row, rfl, fun row member => ?_⟩
  simp only
  split
  · next own => exact goes row member own
  · exact goesOn_refl row

theorem GoOn.ids (goes : GoOn ends now t t') :
    t'.jobs.map DurableJob.id = t.jobs.map DurableJob.id := by
  obtain ⟨f, rows, each⟩ := goes
  rw [rows, List.map_map]
  exact List.map_congr_left fun row member => (each row member).id

theorem GoOn.after (goes : GoOn ends now t t') {row : DurableJob} (member : row ∈ t.jobs) :
    ∃ row' ∈ t'.jobs, GoesOn ends now row row' := by
  obtain ⟨f, rows, each⟩ := goes
  exact ⟨f row, rows ▸ List.mem_map_of_mem member, each row member⟩

theorem GoOn.before (goes : GoOn ends now t t') {row' : DurableJob} (member : row' ∈ t'.jobs) :
    ∃ row ∈ t.jobs, GoesOn ends now row row' := by
  obtain ⟨f, rows, each⟩ := goes
  rw [rows] at member
  obtain ⟨row, old, rfl⟩ := List.mem_map.1 member
  exact ⟨row, old, each row old⟩

/-! ## Operations -/

theorem goOn_heartbeat (jobId : Nat) (workerId : String) (attempt : Nat) (leaseUntil : Instant)
    (t : JobTables) : GoOn ends now t (heartbeat jobId workerId attempt leaseUntil t).2 := by
  rcases heartbeat_cases jobId workerId attempt leaseUntil t with
    ⟨failed, -⟩ | ⟨_, -, -, -, -, beat⟩
  · rw [failed]
    exact goOn_refl t
  · rw [beat]
    refine goOn_modifyJob fun row _ _ => ⟨rfl, rfl, rfl, le_rfl, fun _ => Or.inl rfl, ?_⟩
    exact fun _ _ waits => ⟨waits.state, waits.owner, waits.due⟩

/-- A row that is due is taken. -/
theorem goOn_lease (unique : (t.jobs.map DurableJob.id).Nodup) {row : DurableJob}
    (member : row ∈ t.jobs) (due : row.availableAt ≤ now) (workerId : String) (leaseFor : Int) :
    GoOn ends now t (lease row workerId now leaseFor t).2 := by
  have taken : GoOn ends now t (t.modifyJob row.id fun job => { job with
      attemptCount := job.attemptCount + 1
      state := .leased
      leaseOwner := some workerId
      leaseUntil := some (now + leaseFor) }) := by
    refine goOn_modifyJob fun other old own => ?_
    have same : other = row := List.inj_on_of_nodup_map unique old member own
    refine ⟨rfl, rfl, rfl, le_rfl, fun ended => Bool.noConfusion ended, fun time later waits => ?_⟩
    rw [same] at waits
    exact absurd later (not_lt.2 (waits.due.trans due))
  exact taken.then_jobs rfl

/-- What a claim takes is a row that is due. -/
theorem claim_due {workerId : String} {leaseFor : Int} {c : ClaimedJob × JobTables}
    (taken : claim workerId now leaseFor t = some c) :
    ∃ row ∈ t.jobs, row.availableAt ≤ now ∧ c = lease row workerId now leaseFor t := by
  obtain ⟨row, chosen, rfl⟩ := Option.map_eq_some_iff.1 taken
  obtain ⟨member, able⟩ := List.mem_filter.1 (List.argmin_mem chosen)
  simp only [claimQuery, Bool.and_eq_true, decide_eq_true_eq] at able
  exact ⟨row, member, able.1.1.2, rfl⟩

theorem claimSpecific_due {jobId generation : Nat} {workerId : String} {leaseFor : Int}
    {c : ClaimedJob × JobTables}
    (taken : claimSpecific jobId generation workerId now leaseFor t = .ok (some c)) :
    ∃ row ∈ t.jobs, row.availableAt ≤ now ∧ c = lease row workerId now leaseFor t := by
  unfold claimSpecific at taken
  split at taken
  · cases taken
  · split at taken
    · cases taken
    · next row found =>
      split at taken
      · cases taken
      · iterate 2 (split at taken; · cases taken)
        split at taken
        · cases taken
        · next due =>
          iterate 2 (split at taken; · cases taken)
          cases taken
          exact ⟨row, List.mem_of_find?_eq_some found, not_lt.1 due, rfl⟩

theorem goOn_nextGeneration (id : Nat) (t : JobTables) : GoOn ends now t (nextGeneration id t) :=
  goOn_modifyJob fun _ _ _ => ⟨rfl, rfl, rfl, le_rfl, fun _ => Or.inl rfl,
    fun _ _ waits => ⟨waits.state, waits.owner, waits.due⟩⟩

/-- Only a row in retry is replayed, and it waits no longer. -/
theorem goOn_replay (unique : (t.jobs.map DurableJob.id).Nodup) {jobId : Nat} {at_ : Instant}
    {target : Option (Nat × Nat)} (replayed : replay jobId at_ t = .ok (target, t')) :
    GoOn ends now t t' := by
  unfold replay at replayed
  split at replayed
  · cases replayed
  · next stored found =>
    split at replayed
    · cases replayed
      exact goOn_refl t
    · split at replayed
      · cases replayed
      · next retry =>
        cases replayed
        refine (goOn_modifyJob fun row member own => ?_).then_jobs rfl
        have same : row = stored := List.inj_on_of_nodup_map unique member
          (List.mem_of_find?_eq_some found) (own.trans (id_of_job found).symm)
        refine ⟨rfl, rfl, rfl, le_max_left _ _, fun ended => Bool.noConfusion ended, ?_⟩
        intro time _ waits
        rw [same] at waits
        rw [waits.state] at retry
        exact absurd (fun available => JobState.noConfusion available) retry

theorem goOn_recoverJob (at_ : Instant) (t : JobTables) (row : DurableJob) :
    GoOn noEnds now t (recoverJob at_ t row) := by
  have superseded : GoOn noEnds now t (supersedeDispatch row.id row.generation t) :=
    goOn_of_jobs rfl
  have released : ∀ t₁ : JobTables,
      GoOn noEnds now t₁ (releaseLease row.id row.attemptCount at_ t₁) := by
    intro t₁
    have freed : GoOn noEnds now t₁ (t₁.modifyJob row.id fun job =>
        { job with state := .available, leaseOwner := none, leaseUntil := none }) := by
      refine goOn_modifyJob fun other _ _ => ?_
      exact ⟨rfl, rfl, rfl, le_rfl, fun ended => Bool.noConfusion ended,
        fun _ _ waits => ⟨rfl, rfl, waits.due⟩⟩
    exact freed.then_jobs rfl
  unfold recoverJob
  refine GoOn.then_jobs (GoOn.trans ?_ (goOn_nextGeneration row.id _)) rfl
  split
  · exact superseded.trans (released _)
  · exact superseded

theorem goOn_recoverStale {staleGrace : Int} {limit : Nat} {at_ : Instant}
    {targets : List (Nat × Nat)}
    (recovered : recoverStaleDispatched staleGrace limit at_ t = .ok (targets, t')) :
    GoOn noEnds now t t' := by
  have all : ∀ (rows : List DurableJob) (t₁ : JobTables),
      GoOn noEnds now t₁ (rows.foldl (recoverJob at_) t₁) := by
    intro rows
    induction rows with
    | nil => exact goOn_refl
    | cons row rest ih => exact fun t₁ => (goOn_recoverJob at_ t₁ row).trans (ih _)
  unfold recoverStaleDispatched at recovered
  split at recovered
  · cases recovered
  · split at recovered
    · cases recovered
    · cases recovered
      exact all _ t

theorem goOn_recordDispatched (jobId generation : Nat) (at_ : Instant) (t : JobTables) :
    GoOn ends now t (recordDispatched jobId generation at_ t).2 := by
  unfold recordDispatched
  split <;> exact goOn_of_jobs rfl

theorem goOn_recordDispatchFailure (jobId generation : Nat) (t : JobTables) :
    GoOn ends now t (recordDispatchFailure jobId generation t) := by
  unfold recordDispatchFailure
  split <;> exact goOn_of_jobs rfl

/-! ## The end of a job -/

/-- The row of the finished job ends as it was finished; a retry ends none while attempts are
left. -/
def finishes (job : ClaimedJob) (outcome : JobOutcome) (row : DurableJob) (state : JobState) :
    Prop :=
  row.id = job.id ∧ row.attemptCount = job.attempt ∧ state = (finalOutcome row outcome).state

theorem goOn_finish (unique : (t.jobs.map DurableJob.id).Nodup) {job : ClaimedJob}
    {outcome : JobOutcome} {at_ : Instant} {retryAt : Option Instant} {code : Option String}
    {target : Option (Nat × Nat)}
    (filed : finish job outcome at_ retryAt code t = .ok (target, t')) :
    GoOn (finishes job outcome) now t t' := by
  obtain ⟨stored, found, leases, cases'⟩ := finish_ok filed
  have member := List.mem_of_find?_eq_some found
  have own := id_of_job found
  have filing : ∀ final, final = finalOutcome stored outcome →
      GoOn (finishes job outcome) now t
        (fileOutcome job.id stored.attemptCount final at_ retryAt code t) := by
    rintro _ rfl
    refine (goOn_modifyJob fun row old same => ?_).then_jobs rfl
    have is : row = stored :=
      List.inj_on_of_nodup_map unique old member (same.trans own.symm)
    refine ⟨rfl, rfl, rfl, le_rfl, fun _ => Or.inr ⟨same, ?_, ?_⟩, fun _ _ waits => ?_⟩
    · rw [is]
      exact leases.attempt
    · rw [is]
    · have none_ := waits.owner
      rw [is, leases.owner] at none_
      cases none_
  rcases cases' with ⟨-, rfl⟩ | ⟨retry, time, -, rfl⟩
  · exact filing _ rfl
  · obtain ⟨f, rows, goes⟩ := filing .retry retry.symm
    obtain ⟨g, rows', goes'⟩ := @goOn_nextGeneration noEnds now job.id
      (fileOutcome job.id stored.attemptCount .retry at_ retryAt code t)
    refine ⟨g ∘ f, ?_, fun row old => ?_⟩
    · rw [← List.map_map, ← rows]
      exact rows'
    · have first := goes row old
      have next := goes' (f row) (rows ▸ List.mem_map_of_mem old)
      refine ⟨next.id.trans first.id, next.key.trans first.key, next.kind.trans first.kind,
        first.attempts.trans next.attempts, fun over_ => ?_, fun time' later waits =>
        next.waits time' later (first.waits time' later waits)⟩
      have same := (next.ended over_).resolve_right not_false
      rw [Function.comp_apply, same] at over_ ⊢
      exact first.ended over_

/-! ## A new job -/

/-- After an enqueueing there is a row under the key: the one that was there, or a new one. -/
theorem enqueueOnce_rows {spec : JobSpec} {availableAt : Instant} {at_ : Instant} {freshId : Nat}
    (fresh : ∀ row ∈ t.jobs, row.id ≠ freshId) :
    ((enqueueOnce spec availableAt at_ freshId t).2 = t ∧
        ∃ row ∈ t.jobs, row.jobKey = spec.jobKey) ∨
      (enqueueOnce spec availableAt at_ freshId t).2.jobs =
        t.jobs ++ [newJob spec freshId availableAt at_] := by
  unfold enqueueOnce
  split
  · next known =>
    obtain ⟨row, member, taken⟩ := List.any_eq_true.1 known
    rw [Bool.or_eq_true, beq_iff_eq, beq_iff_eq] at taken
    exact Or.inl ⟨rfl, row, member, taken.resolve_right (fresh row member)⟩
  · exact Or.inr rfl

end

end JobSuccession
