import SpacerocksCoa.JobProgress
import SpacerocksCoa.TaskRequests

/-!
# Delivery of jobs through Cloud Tasks

The job tables, the coordinator that turns pending dispatches into tasks, the queue that sends
each task until it is acknowledged, and the endpoint that runs them. Every transaction, every
call of the service and every answer is a step of its own; a call can be refused, succeed
without an answer or find its task already there, and any process can stop between two steps.

The row identifiers are the numbers of the `UUID`s. A transaction that would add a dispatch
without a name fails as a whole.
-/
namespace TaskDelivery
open OrderStates JobClaims JobRecovery JobFencing JobProgress TaskRequests
open CodeUnits (natText)
open JsonText (Text units)
open PythonJson (FloatWords zeroFloats)

structure Deployment (F : Type) where
  creator : CreatorSettings
  words : FloatWords F
  queue : Text

/-- A call of `dispatch` after its first transaction, and what the service answered. -/
structure DispatchCall where
  jobId : Nat
  generation : Nat
  scheduleAt : Instant
  outcome : Option Bool
  deriving DecidableEq

/-- A delivered request that was not refused, and whether `run_specific` has returned. -/
structure TaskRun where
  task : CloudTask
  payload : TaskPayload
  claimed : Option ClaimedJob
  returned : Bool
  deriving DecidableEq

/-- `created` lists every task that ever was in the queue, `acknowledged` every run that was
answered with 204. -/
structure World where
  tables : JobTables
  now : Instant
  calls : List DispatchCall
  queue : List CloudTask
  created : List CloudTask
  runs : List TaskRun
  acknowledged : List TaskRun

inductive ServiceAnswer where
  | answered | replyLost | refused
  deriving DecidableEq

inductive Operation where
  | enqueueOnce (spec : JobSpec) (availableAt : Instant) (freshId : Nat)
  | claim (workerId : String) (leaseFor : Int)
  | heartbeat (job : ClaimedJob) (leaseUntil : Instant)
  | finish (job : ClaimedJob) (outcome : JobOutcome) (retryAt : Option Instant)
      (safeErrorCode : Option String)
  | replay (jobId : Nat)
  | recoverStale (staleGrace : Int) (limit : Nat)
  | advance (duration : Nat)
  | beginDispatch (jobId generation : Nat)
  | createTask (call : Nat) (remembered : Bool) (answer : ServiceAnswer)
  | recordOutcome (call : Nat)
  | abandonDispatch (call : Nat)
  | deliver (position : Nat) (fullName : Bool) (workerId : String) (leaseFor : Int)
  | runHeartbeat (run : Nat) (leaseUntil : Instant)
  | runFinish (run : Nat) (outcome : JobOutcome) (retryAt : Option Instant)
      (safeErrorCode : Option String)
  | runCrash (run : Nat)
  | acknowledge (run : Nat)

variable {F : Type} (s : Deployment F)

/-- The identifier that a row number stands for. -/
def uuid (id : Nat) : Uuid := BitVec.ofNat 128 id

/-- Every dispatch belongs to an identifier and has a name. -/
def nameable (t : JobTables) : Bool :=
  t.dispatches.all fun d => decide (d.jobId < 2 ^ 128) && decide (1 ≤ d.generation) &&
    decide (d.generation ≤ 999999999)

/-- The transaction commits unless `add_task_dispatch` raised. -/
def commit (w : World) (tables : JobTables) : World :=
  if nameable tables then { w with tables := tables } else w

def taskOf (jobId generation : Nat) (scheduleAt : Instant) : Except String CloudTask :=
  taskFor s.creator s.words (uuid jobId) generation scheduleAt

/-! ## Dispatching -/

def beginDispatch (w : World) (jobId generation : Nat) : World :=
  match w.tables.dispatch jobId generation with
  | some d =>
    if d.state = .pending then
      { w with calls := w.calls ++ [⟨jobId, generation, d.scheduleAt, none⟩] }
    else w
  | none => w

/-- The service: a name that is in the queue, or still remembered, is not used again. -/
def accept (w : World) (task : CloudTask) (remembered : Bool) : World :=
  if w.queue.any (fun other => other.name = task.name) ||
      (remembered && w.created.any fun other => other.name = task.name) then w
  else { w with queue := w.queue ++ [task], created := w.created ++ [task] }

/-- `TaskCreator.create` for a call: the name, the payload and the request to the service. -/
def createTask (w : World) (position : Nat) (call : DispatchCall) (remembered : Bool)
    (answer : ServiceAnswer) : World :=
  match taskOf s call.jobId call.generation call.scheduleAt with
  | .error _ => { w with calls := w.calls.set position { call with outcome := some false } }
  | .ok task =>
    let called := { w with
      calls := w.calls.set position { call with outcome := some (decide (answer = .answered)) } }
    if answer = .refused then called else accept called task remembered

def recordOutcome (w : World) (position : Nat) (call : DispatchCall) : World :=
  match call.outcome with
  | none => w
  | some true => { w with
      tables := (recordDispatched call.jobId call.generation w.now w.tables).2
      calls := w.calls.eraseIdx position }
  | some false => { w with
      tables := recordDispatchFailure call.jobId call.generation w.tables
      calls := w.calls.eraseIdx position }

/-! ## Running -/

/-- The request for a task, with its full or its short name. -/
def sentRequest (task : CloudTask) (fullName : Bool) : TaskRequest where
  contentType := some task.contentType
  contentLength := some (natText task.body.length)
  taskName := some (if fullName then task.name else lastComponent task.name)
  queueName := some s.queue
  body := task.body

/-- `run_task` up to the claim; a refused request and a retryable claim leave the task where
it is. -/
def deliver (w : World) (task : CloudTask) (fullName : Bool) (workerId : String)
    (leaseFor : Int) : World :=
  match readTask s.words.float s.queue (sentRequest s task fullName) with
  | .error _ => w
  | .ok payload =>
    match claimSpecific payload.jobId.toNat payload.generation workerId w.now leaseFor w.tables with
    | .error _ => w
    | .ok none => { w with runs := w.runs ++ [⟨task, payload, none, true⟩] }
    | .ok (some (claimed, tables)) =>
      { w with tables := tables, runs := w.runs ++ [⟨task, payload, some claimed, false⟩] }

/-- A heartbeat that fails ends the run, which returns as usual. -/
def runHeartbeat (w : World) (position : Nat) (run : TaskRun) (claimed : ClaimedJob)
    (leaseUntil : Instant) : World :=
  let beat := heartbeat claimed.id claimed.leaseOwner claimed.attempt leaseUntil w.tables
  { w with
    tables := beat.2
    runs := w.runs.set position { run with returned := !beat.1 } }

/-- A finish that raises ends the request without an acknowledgement. -/
def runFinish (w : World) (position : Nat) (run : TaskRun) (claimed : ClaimedJob)
    (outcome : JobOutcome) (retryAt : Option Instant) (safeErrorCode : Option String) : World :=
  match finish claimed outcome w.now retryAt safeErrorCode w.tables with
  | .error _ => { w with runs := w.runs.eraseIdx position }
  | .ok (_, tables) =>
    if nameable tables then
      { w with tables := tables, runs := w.runs.set position { run with returned := true } }
    else { w with runs := w.runs.eraseIdx position }

/-- The answer 204: the service deletes the task. -/
def acknowledge (w : World) (position : Nat) (run : TaskRun) : World :=
  { w with
    queue := w.queue.filter fun task => task.name ≠ run.task.name
    runs := w.runs.eraseIdx position
    acknowledged := w.acknowledged ++ [run] }

def step (w : World) : Operation → World
  | .enqueueOnce spec availableAt freshId =>
    commit w (enqueueOnce spec availableAt w.now freshId w.tables).2
  | .claim workerId leaseFor =>
    match claim workerId w.now leaseFor w.tables with
    | none => w
    | some claimed => commit w claimed.2
  | .heartbeat job leaseUntil =>
    commit w (heartbeat job.id job.leaseOwner job.attempt leaseUntil w.tables).2
  | .finish job outcome retryAt safeErrorCode =>
    match finish job outcome w.now retryAt safeErrorCode w.tables with
    | .error _ => w
    | .ok filed => commit w filed.2
  | .replay jobId =>
    match replay jobId w.now w.tables with
    | .error _ => w
    | .ok replayed => commit w replayed.2
  | .recoverStale staleGrace limit =>
    match recoverStaleDispatched staleGrace limit w.now w.tables with
    | .error _ => w
    | .ok recovered => commit w recovered.2
  | .advance duration => { w with now := w.now + duration }
  | .beginDispatch jobId generation => beginDispatch w jobId generation
  | .createTask position remembered answer =>
    match w.calls[position]? with
    | some call => if call.outcome = none then createTask s w position call remembered answer else w
    | none => w
  | .recordOutcome position =>
    match w.calls[position]? with
    | some call => recordOutcome w position call
    | none => w
  | .abandonDispatch position => { w with calls := w.calls.eraseIdx position }
  | .deliver position fullName workerId leaseFor =>
    match w.queue[position]? with
    | some task => deliver s w task fullName workerId leaseFor
    | none => w
  | .runHeartbeat position leaseUntil =>
    match w.runs[position]? with
    | some ⟨task, payload, some claimed, false⟩ =>
      runHeartbeat w position ⟨task, payload, some claimed, false⟩ claimed leaseUntil
    | _ => w
  | .runFinish position outcome retryAt safeErrorCode =>
    match w.runs[position]? with
    | some ⟨task, payload, some claimed, false⟩ =>
      runFinish w position ⟨task, payload, some claimed, false⟩ claimed outcome retryAt
        safeErrorCode
    | _ => w
  | .runCrash position => { w with runs := w.runs.eraseIdx position }
  | .acknowledge position =>
    match w.runs[position]? with
    | some run => if run.returned then acknowledge w position run else w
    | none => w

def run : List Operation → World → World
  | [], w => w
  | op :: rest, w => run rest (step s w op)

/-- Before the first job and the first task. -/
def start (now : Instant) : World := ⟨⟨[], [], []⟩, now, [], [], [], [], []⟩

/-! ## Tasks of dispatches -/

def TaskOf (d : TaskDispatch) (task : CloudTask) : Prop :=
  taskOf s d.jobId d.generation d.scheduleAt = .ok task

variable {s}

theorem TaskOf.same {d d' : TaskDispatch} {task : CloudTask} (same : SameDispatch d d')
    (made : TaskOf s d task) : TaskOf s d' task := by
  unfold TaskOf at *
  rw [same.job, same.generation, same.scheduleAt]
  exact made

theorem uuid_toNat {id : Nat} (small : id < 2 ^ 128) : (uuid id).toNat = id :=
  BitVec.toNat_ofNat id 128 ▸ Nat.mod_eq_of_lt small

theorem nameable_iff {t : JobTables} : nameable t = true ↔ ∀ d ∈ t.dispatches,
    d.jobId < 2 ^ 128 ∧ 1 ≤ d.generation ∧ d.generation ≤ 999999999 := by
  simp only [nameable, List.all_eq_true, Bool.and_eq_true, decide_eq_true_eq, and_assoc]

/-- Tasks of one name are tasks of one generation of one job. -/
theorem same_generation {d d' : TaskDispatch} {task task' : CloudTask} (made : TaskOf s d task)
    (made' : TaskOf s d' task') (small : d.jobId < 2 ^ 128) (small' : d'.jobId < 2 ^ 128)
    (names : task.name = task'.name) : d.jobId = d'.jobId ∧ d.generation = d'.generation := by
  obtain ⟨-, rfl⟩ := taskFor_ok.1 made
  obtain ⟨-, rfl⟩ := taskFor_ok.1 made'
  obtain ⟨ids, numbers⟩ := nameText_injective
    (List.append_cancel_left (List.append_cancel_left names))
  refine ⟨?_, numbers⟩
  rw [← uuid_toNat small, ids, uuid_toNat small']

/-- The dispatches of a job are numbered without gaps, so each row is the only one. -/
theorem unique_dispatch {t : JobTables} (kept : TablesKept t) {d d' : TaskDispatch}
    (member : d ∈ t.dispatches) (member' : d' ∈ t.dispatches) (ids : d.jobId = d'.jobId)
    (numbers : d.generation = d'.generation) : d = d' := by
  have listed : d ∈ t.dispatches.filter fun other => other.jobId == d.jobId :=
    List.mem_filter.2 ⟨member, beq_self_eq_true _⟩
  have listed' : d' ∈ t.dispatches.filter fun other => other.jobId == d.jobId :=
    List.mem_filter.2 ⟨member', beq_iff_eq.2 ids.symm⟩
  have distinct : (generationsOf t d.jobId).Nodup := by
    have row := kept.kept d.jobId
    unfold JobKept at row
    split at row
    · rw [row.2]
      exact List.nodup_nil
    · rw [row.dispatched]
      exact List.nodup_range'
  exact List.inj_on_of_nodup_map distinct listed listed' numbers

theorem job_of_dispatch {t : JobTables} (kept : TablesKept t) {d : TaskDispatch}
    (member : d ∈ t.dispatches) :
    ∃ job, t.job d.jobId = some job ∧ d.generation ≤ job.generation := by
  have listed : d.generation ∈ generationsOf t d.jobId :=
    List.mem_map_of_mem (List.mem_filter.2 ⟨member, beq_self_eq_true _⟩)
  have row := kept.kept d.jobId
  unfold JobKept at row
  split at row
  · rw [row.2] at listed
    cases listed
  · next job found =>
    rw [row.dispatched, List.mem_range'_1] at listed
    exact ⟨job, found, by omega⟩

/-! ## What a run stands for -/

/-- Nothing of the generation is left to this run. -/
def Settled (run : TaskRun) (generation : Nat) (row : DurableJob) : Prop :=
  generation < row.generation ∨ row.state.claimable = false ∨
    row.maxAttempts ≤ row.attemptCount ∨
      ∃ c, run.claimed = some c ∧ c.attempt < row.attemptCount

/-- The run holds the lease of its generation, or something went past it. -/
def Running (c : ClaimedJob) (generation : Nat) (row : DurableJob) : Prop :=
  c.attempt < row.attemptCount ∨ (LeaseHolders.HeldBy c row ∧ row.generation = generation) ∨
    generation < row.generation ∨ row.state.claimable = false

theorem Settled.later {run : TaskRun} {generation : Nat} {row row' : DurableJob}
    (advances : Advances row row') (earlier : generation ≤ row.generation)
    (settled : Settled run generation row) : Settled run generation row' := by
  have forward := advances.generation
  have attempts := advances.attempts
  rcases settled with later | closed | spent | ⟨c, held, lost⟩
  · exact .inl (by omega)
  · exact .inr (.inl (advances.closed closed))
  · rcases advances.spent spent with spent' | later | closed
    · exact .inr (.inr (.inl spent'))
    · exact .inl (by omega)
    · exact .inr (.inl closed)
  · exact .inr (.inr (.inr ⟨c, held, by omega⟩))

theorem Running.later {c : ClaimedJob} {generation : Nat} {row row' : DurableJob}
    (advances : Advances row row') (running : Running c generation row) :
    Running c generation row' := by
  have forward := advances.generation
  have attempts := advances.attempts
  rcases running with lost | ⟨⟨leased, owner, attempt⟩, number⟩ | later | closed
  · exact .inl (by omega)
  · by_cases same : row'.attemptCount = row.attemptCount
    · rcases advances.held leased same with ⟨leased', owner', number'⟩ | later | closed
      · exact .inr (.inl ⟨⟨leased', owner'.trans owner, same.trans attempt⟩, number'.trans number⟩)
      · exact .inr (.inr (.inl (by omega)))
      · exact .inr (.inr (.inr closed))
    · exact .inl (by omega)
  · exact .inr (.inr (.inl (by omega)))
  · exact .inr (.inr (.inr (advances.closed closed)))

/-- What a run has done to the row of its job. -/
structure RowOf (run : TaskRun) (d : TaskDispatch) (row : DurableJob) : Prop where
  earlier : d.generation ≤ row.generation
  returned : run.returned = true → Settled run d.generation row
  running : run.returned = false →
    ∃ c, run.claimed = some c ∧ c.id = d.jobId ∧ Running c d.generation row

variable (s)

/-- The run belongs to a task of the dispatch. -/
structure RunOf (t : JobTables) (created : List CloudTask) (run : TaskRun) (d : TaskDispatch) :
    Prop where
  listed : run.task ∈ created
  task : TaskOf s d run.task
  payload : run.payload = ⟨uuid d.jobId, d.generation⟩
  row : ∃ row, t.job d.jobId = some row ∧ RowOf run d row

structure CallOf (created : List CloudTask) (c : DispatchCall) (d : TaskDispatch) : Prop where
  job : d.jobId = c.jobId
  generation : d.generation = c.generation
  scheduleAt : d.scheduleAt = c.scheduleAt
  created : c.outcome = some true → ∃ task ∈ created, TaskOf s d task

structure Kept (w : World) : Prop where
  tables : TablesKept w.tables
  wellKept : WellKept w.tables
  named : nameable w.tables = true
  created : ∀ task ∈ w.created, ∃ d ∈ w.tables.dispatches, TaskOf s d task
  marked : ∀ d ∈ w.tables.dispatches, d.state = .pending ∨ ∃ task ∈ w.created, TaskOf s d task
  calls : ∀ c ∈ w.calls, ∃ d ∈ w.tables.dispatches, CallOf s w.created c d
  queued : ∀ task ∈ w.queue, task ∈ w.created
  present : ∀ task ∈ w.created, task ∈ w.queue ∨ ∃ run ∈ w.acknowledged, run.task = task
  names : (w.queue.map CloudTask.name).Nodup
  runs : ∀ run ∈ w.runs, ∃ d ∈ w.tables.dispatches, RunOf s w.tables w.created run d
  acknowledged : ∀ run ∈ w.acknowledged, run.returned = true ∧
    ∃ d ∈ w.tables.dispatches, RunOf s w.tables w.created run d

variable {s}

theorem RowOf.later {run : TaskRun} {d d' : TaskDispatch} {row row' : DurableJob}
    (advances : Advances row row') (same : SameDispatch d d') (of : RowOf run d row) :
    RowOf run d' row' := by
  have forward := advances.generation
  have earlier := of.earlier
  refine ⟨by rw [same.generation]; omega, fun returned => ?_, fun active => ?_⟩
  · rw [same.generation]
    exact (of.returned returned).later advances earlier
  · obtain ⟨c, claimed, job, running⟩ := of.running active
    refine ⟨c, claimed, job.trans same.job.symm, ?_⟩
    rw [same.generation]
    exact running.later advances

theorem RunOf.later {t t' : JobTables} {created : List CloudTask} {run : TaskRun}
    {d d' : TaskDispatch} (rows : ∀ id row, t.job id = some row →
      ∃ row', t'.job id = some row' ∧ Advances row row')
    (same : SameDispatch d d') (of : RunOf s t created run d) : RunOf s t' created run d' := by
  obtain ⟨row, found, rowOf⟩ := of.row
  obtain ⟨row', found', advances⟩ := rows _ row found
  refine ⟨of.listed, of.task.same same, ?_, row', ?_, rowOf.later advances same⟩
  · rw [same.job, same.generation]
    exact of.payload
  · rw [same.job]
    exact found'

theorem CallOf.later {created : List CloudTask} {c : DispatchCall} {d d' : TaskDispatch}
    (same : SameDispatch d d') (of : CallOf s created c d) : CallOf s created c d' := by
  refine ⟨same.job.trans of.job, same.generation.trans of.generation,
    same.scheduleAt.trans of.scheduleAt, fun done => ?_⟩
  obtain ⟨task, member, made⟩ := of.created done
  exact ⟨task, member, made.same same⟩

/-! ## Changes of the tables -/

/-- Other tables under the same tasks and runs. -/
theorem Kept.tables_changed {w : World} (kept : Kept s w) {t : JobTables} (tables : TablesKept t)
    (wellKept : WellKept t) (named : nameable t = true)
    (rows : ∀ id row, w.tables.job id = some row → ∃ row', t.job id = some row' ∧ Advances row row')
    (dispatches : ∀ d ∈ w.tables.dispatches, ∃ d' ∈ t.dispatches, SameDispatch d d')
    (marked : ∀ d ∈ t.dispatches, d.state = .pending ∨ ∃ task ∈ w.created, TaskOf s d task) :
    Kept s { w with tables := t } where
  tables := tables
  wellKept := wellKept
  named := named
  created task member := by
    obtain ⟨d, listed, made⟩ := kept.created task member
    obtain ⟨d', listed', same⟩ := dispatches d listed
    exact ⟨d', listed', made.same same⟩
  marked := marked
  calls c member := by
    obtain ⟨d, listed, of⟩ := kept.calls c member
    obtain ⟨d', listed', same⟩ := dispatches d listed
    exact ⟨d', listed', of.later same⟩
  queued := kept.queued
  present := kept.present
  names := kept.names
  runs run member := by
    obtain ⟨d, listed, of⟩ := kept.runs run member
    obtain ⟨d', listed', same⟩ := dispatches d listed
    exact ⟨d', listed', of.later rows same⟩
  acknowledged run member := by
    obtain ⟨returned, d, listed, of⟩ := kept.acknowledged run member
    obtain ⟨d', listed', same⟩ := dispatches d listed
    exact ⟨returned, d', listed', of.later rows same⟩

/-- An operation on the jobs, whose new dispatches have names. -/
theorem Kept.progress {w : World} (kept : Kept s w) {t : JobTables} (tables : TablesKept t)
    (wellKept : WellKept t) (named : nameable t = true) (progress : Progress w.tables t) :
    Kept s { w with tables := t } := by
  refine kept.tables_changed tables wellKept named progress.rows progress.dispatches.kept ?_
  intro d' member
  rcases progress.dispatches.marked d' member with pending | ⟨d, listed, same, state⟩
  · exact .inl pending
  · rcases kept.marked d listed with pending | ⟨task, made, of⟩
    · exact .inl (state.trans pending)
    · exact .inr ⟨task, made, of.same same⟩

theorem Kept.commit {w : World} (kept : Kept s w) {t : JobTables} (tables : TablesKept t)
    (wellKept : WellKept t) (progress : Progress w.tables t) : Kept s (commit w t) := by
  unfold TaskDelivery.commit
  split
  · next named => exact kept.progress tables wellKept named progress
  · exact kept

theorem nameable_of_same {t t' : JobTables} (dispatches : t'.dispatches = t.dispatches)
    (named : nameable t = true) : nameable t' = true := by
  rw [nameable, dispatches]
  exact named

theorem Kept.claimed {w : World} (kept : Kept s w) {job : DurableJob}
    (found : w.tables.job job.id = some job) (running : job.state.claimable = true)
    (left : job.attemptCount < job.maxAttempts) (workerId : String) (leaseFor : Int) :
    Kept s { w with tables := (lease job workerId w.now leaseFor w.tables).2 } :=
  kept.progress (lease_tables kept.tables found left workerId w.now leaseFor)
    (lease_kept kept.wellKept found workerId w.now leaseFor)
    (nameable_of_same rfl kept.named) (progress_lease found running workerId w.now leaseFor)

theorem heartbeat_dispatches (jobId : Nat) (workerId : String) (attempt : Nat)
    (leaseUntil : Instant) (t : JobTables) :
    (heartbeat jobId workerId attempt leaseUntil t).2.dispatches = t.dispatches := by
  unfold heartbeat
  split
  · rfl
  · split <;> rfl

theorem Kept.beaten {w : World} (kept : Kept s w) (jobId : Nat) (workerId : String)
    (attempt : Nat) (leaseUntil : Instant) :
    Kept s { w with tables := (heartbeat jobId workerId attempt leaseUntil w.tables).2 } :=
  kept.progress (heartbeat_tables kept.tables) (heartbeat_kept kept.wellKept)
    (nameable_of_same (heartbeat_dispatches _ _ _ _ _) kept.named)
    (progress_heartbeat jobId workerId attempt leaseUntil w.tables)

/-! ## Dispatching keeps it -/

theorem Kept.range {w : World} (kept : Kept s w) {d : TaskDispatch}
    (member : d ∈ w.tables.dispatches) :
    d.jobId < 2 ^ 128 ∧ 1 ≤ d.generation ∧ d.generation ≤ 999999999 :=
  nameable_iff.1 kept.named d member

/-- A task that bears the name of a dispatch's task is that task. -/
theorem Kept.same_task {w : World} (kept : Kept s w) {d : TaskDispatch} {task other : CloudTask}
    (member : d ∈ w.tables.dispatches) (made : TaskOf s d task) (listed : other ∈ w.created)
    (names : other.name = task.name) : other = task := by
  obtain ⟨d', member', made'⟩ := kept.created other listed
  obtain ⟨ids, numbers⟩ := same_generation made' made (kept.range member').1 (kept.range member).1
    names
  have same := unique_dispatch kept.tables member' member ids numbers
  subst same
  exact Except.ok.inj (made'.symm.trans made)

theorem mem_of_dispatch {t : JobTables} {jobId generation : Nat} {d : TaskDispatch}
    (found : t.dispatch jobId generation = some d) :
    d ∈ t.dispatches ∧ d.jobId = jobId ∧ d.generation = generation := by
  have named := List.find?_some found
  simp only [Bool.and_eq_true, beq_iff_eq] at named
  exact ⟨List.mem_of_find?_eq_some found, named⟩

theorem Kept.beginDispatch {w : World} (kept : Kept s w) (jobId generation : Nat) :
    Kept s (beginDispatch w jobId generation) := by
  unfold TaskDelivery.beginDispatch
  split
  · next d found =>
    split
    · obtain ⟨listed, job, number⟩ := mem_of_dispatch found
      refine { kept with calls := fun c member => ?_ }
      rcases List.mem_append.1 member with old | new
      · exact kept.calls c old
      · rw [List.mem_singleton.1 new]
        exact ⟨d, listed, job, number, rfl, fun done => by cases done⟩
    · exact kept
  · exact kept

/-- The service keeps one task for a name, and the name stays taken by the same task. -/
theorem Kept.accept {w : World} (kept : Kept s w) {d : TaskDispatch} {task : CloudTask}
    (member : d ∈ w.tables.dispatches) (made : TaskOf s d task) (remembered : Bool) :
    Kept s (accept w task remembered) ∧ task ∈ (accept w task remembered).created ∧
      (accept w task remembered).tables = w.tables ∧
      (accept w task remembered).calls = w.calls := by
  unfold TaskDelivery.accept
  split
  · next taken =>
    refine ⟨kept, ?_, rfl, rfl⟩
    rw [Bool.or_eq_true, Bool.and_eq_true] at taken
    have listed : ∃ other ∈ w.created, other.name = task.name := by
      rcases taken with inQueue | ⟨-, earlier⟩
      · obtain ⟨other, queued, same⟩ := List.any_eq_true.1 inQueue
        exact ⟨other, kept.queued other queued, of_decide_eq_true same⟩
      · obtain ⟨other, listed, same⟩ := List.any_eq_true.1 earlier
        exact ⟨other, listed, of_decide_eq_true same⟩
    obtain ⟨other, listed, same⟩ := listed
    exact kept.same_task member made listed same ▸ listed
  · next free =>
    rw [Bool.or_eq_true, not_or] at free
    have grown : ∀ other, other ∈ w.created → other ∈ w.created ++ [task] :=
      fun other old => List.mem_append_left _ old
    refine ⟨?_, List.mem_append_right _ (List.mem_singleton_self task), rfl, rfl⟩
    refine { kept with
      created := fun other listed => ?_
      marked := fun row listed => ?_
      calls := fun c listed => ?_
      queued := fun other listed => ?_
      present := fun other listed => ?_
      names := ?_
      runs := fun run listed => ?_
      acknowledged := fun run listed => ?_ }
    · rcases List.mem_append.1 listed with old | new
      · exact kept.created other old
      · rw [List.mem_singleton.1 new]
        exact ⟨d, member, made⟩
    · refine (kept.marked row listed).imp_right ?_
      rintro ⟨other, old, of⟩
      exact ⟨other, grown other old, of⟩
    · obtain ⟨row, present, of⟩ := kept.calls c listed
      refine ⟨row, present, of.job, of.generation, of.scheduleAt, fun done => ?_⟩
      obtain ⟨other, old, ofTask⟩ := of.created done
      exact ⟨other, grown other old, ofTask⟩
    · rcases List.mem_append.1 listed with old | new
      · exact grown other (kept.queued other old)
      · exact List.mem_append_right _ new
    · rcases List.mem_append.1 listed with old | new
      · exact (kept.present other old).imp_left fun queued => List.mem_append_left _ queued
      · exact .inl (List.mem_append_right _ new)
    · rw [List.map_append, List.map_singleton]
      refine List.nodup_append.2 ⟨kept.names, List.nodup_singleton _, ?_⟩
      intro name old last new same
      obtain ⟨other, queued, rfl⟩ := List.mem_map.1 old
      refine free.1 (List.any_eq_true.2 ⟨other, queued, decide_eq_true ?_⟩)
      rw [same, List.mem_singleton.1 new]
    · obtain ⟨row, present, of⟩ := kept.runs run listed
      exact ⟨row, present, { of with listed := grown _ of.listed }⟩
    · obtain ⟨returned, row, present, of⟩ := kept.acknowledged run listed
      exact ⟨returned, row, present, { of with listed := grown _ of.listed }⟩

theorem accept_calls (w : World) (calls : List DispatchCall) (task : CloudTask)
    (remembered : Bool) : accept { w with calls := calls } task remembered =
      { accept w task remembered with calls := calls } := by
  unfold accept
  split <;> rfl

/-- Calls may be exchanged for others of the dispatches. -/
theorem Kept.recalled {w : World} (kept : Kept s w) {calls : List DispatchCall}
    (of : ∀ c ∈ calls, ∃ d ∈ w.tables.dispatches, CallOf s w.created c d) :
    Kept s { w with calls := calls } := { kept with calls := of }

theorem Kept.createTask {w : World} (kept : Kept s w) {position : Nat} {call : DispatchCall}
    (found : w.calls[position]? = some call) (remembered : Bool) (answer : ServiceAnswer) :
    Kept s (createTask s w position call remembered answer) := by
  obtain ⟨d, member, of⟩ := kept.calls call (List.mem_of_getElem? found)
  have others : ∀ (outcome : Option Bool) (c : DispatchCall),
      c ∈ w.calls.set position { call with outcome := outcome } →
        c ∈ w.calls ∨ c = { call with outcome := outcome } :=
    fun _ _ listed => List.mem_or_eq_of_mem_set listed
  have named : taskOf s call.jobId call.generation call.scheduleAt =
      taskOf s d.jobId d.generation d.scheduleAt := by
    rw [of.job, of.generation, of.scheduleAt]
  have failed : Kept s { w with
      calls := w.calls.set position { call with outcome := some false } } := by
    refine kept.recalled fun c listed => ?_
    rcases others _ c listed with old | rfl
    · exact kept.calls c old
    · exact ⟨d, member, of.job, of.generation, of.scheduleAt, fun done => by cases done⟩
  unfold TaskDelivery.createTask
  split
  · exact failed
  · next task made =>
    have ofTask : TaskOf s d task := named.symm.trans made
    dsimp only
    by_cases refused : answer = .refused
    · rw [if_pos refused, refused]
      exact failed
    · rw [if_neg refused]
      obtain ⟨accepted, listed, tables, calls⟩ := kept.accept member ofTask remembered
      rw [accept_calls]
      refine accepted.recalled fun c placed => ?_
      rcases others _ c placed with old | rfl
      · exact accepted.calls c (calls ▸ old)
      · exact ⟨d, tables ▸ member, of.job, of.generation, of.scheduleAt,
          fun _ => ⟨task, listed, ofTask⟩⟩

theorem Kept.dropped {w : World} (kept : Kept s w) (position : Nat) :
    Kept s { w with calls := w.calls.eraseIdx position } :=
  kept.recalled fun c listed => kept.calls c (List.mem_of_mem_eraseIdx listed)

theorem tablesKept_of_rows {t t' : JobTables} (kept : TablesKept t) (jobs : t'.jobs = t.jobs)
    (attempts : t'.attempts = t.attempts)
    (generations : ∀ x, generationsOf t' x = generationsOf t x) : TablesKept t' := by
  refine ⟨jobs ▸ kept.unique, fun x => ?_⟩
  have before := kept.kept x
  have row : t'.job x = t.job x := by rw [JobTables.job, JobTables.job, jobs]
  have listed : attemptsOf t' x = attemptsOf t x := by rw [attemptsOf, attemptsOf, attempts]
  rw [JobKept, row, listed, generations x]
  exact before

/-- A note on one dispatch; only one with a task may be marked as dispatched. -/
theorem Kept.noted {w : World} (kept : Kept s w) {jobId generation : Nat}
    {f : TaskDispatch → TaskDispatch} (same : ∀ d, SameDispatch d (f d))
    (marks : ∀ d ∈ w.tables.dispatches, d.jobId = jobId → d.generation = generation →
      (f d).state = .pending ∨ ∃ task ∈ w.created, TaskOf s d task) :
    Kept s { w with tables := w.tables.modifyDispatch jobId generation f } := by
  have change : ∀ d, SameDispatch d
      (if d.jobId = jobId ∧ d.generation = generation then f d else d) := by
    intro d
    split
    · exact same d
    · exact sameDispatch_refl d
  refine kept.tables_changed (tablesKept_of_rows kept.tables rfl rfl ?_)
    (wellKept_of_jobs kept.wellKept (historyKept_modifyDispatch _ _ _ ?_) rfl) ?_ ?_ ?_ ?_
  · exact generationsOf_modifyDispatch _ _ _ fun d => ⟨(same d).job, (same d).generation⟩
  · exact fun d => ⟨(same d).job, (same d).generation⟩
  · refine nameable_iff.2 fun d' member => ?_
    obtain ⟨d, inside, rfl⟩ := List.mem_map.1 member
    rw [(change d).job, (change d).generation]
    exact kept.range inside
  · exact fun _ row found => ⟨row, found, advances_refl row⟩
  · intro d inside
    exact ⟨_, List.mem_map_of_mem inside, change d⟩
  · intro d' member
    obtain ⟨d, inside, rfl⟩ := List.mem_map.1 member
    have before := kept.marked d inside
    split
    · next named =>
      refine (marks d inside named.1 named.2).imp_right ?_
      rintro ⟨task, listed, made⟩
      exact ⟨task, listed, made.same (same d)⟩
    · exact before

theorem Kept.recordDispatched {w : World} (kept : Kept s w) {c : DispatchCall} {d : TaskDispatch}
    (member : d ∈ w.tables.dispatches) (of : CallOf s w.created c d)
    (done : c.outcome = some true) :
    Kept s { w with tables := (recordDispatched c.jobId c.generation w.now w.tables).2 } := by
  unfold JobClaims.recordDispatched
  split
  · refine kept.noted ?_ fun row inside job number => ?_
    · exact fun _ => ⟨rfl, rfl, rfl⟩
    · have only := unique_dispatch kept.tables inside member (job.trans of.job.symm)
        (number.trans of.generation.symm)
      rw [only]
      exact .inr (of.created done)
  · exact kept

theorem Kept.recordFailure {w : World} (kept : Kept s w) (jobId generation : Nat) :
    Kept s { w with tables := recordDispatchFailure jobId generation w.tables } := by
  unfold recordDispatchFailure
  split
  · refine kept.noted ?_ fun row inside _ _ => kept.marked row inside
    exact fun _ => ⟨rfl, rfl, rfl⟩
  · exact kept

theorem Kept.recordOutcome {w : World} (kept : Kept s w) {position : Nat} {call : DispatchCall}
    (found : w.calls[position]? = some call) : Kept s (recordOutcome w position call) := by
  obtain ⟨d, member, of⟩ := kept.calls call (List.mem_of_getElem? found)
  unfold TaskDelivery.recordOutcome
  split
  · exact kept
  · next done => exact (kept.recordDispatched member of done).dropped position
  · exact (kept.recordFailure call.jobId call.generation).dropped position

/-! ## Running keeps it -/

theorem sends_sentRequest (task : CloudTask) (fullName : Bool) :
    Sends s.queue task (sentRequest s task fullName) := by
  refine ⟨rfl, rfl, ⟨_, rfl, ?_⟩, rfl, rfl⟩
  cases fullName with
  | true => rfl
  | false => exact List.rtakeWhile_idempotent _ _

/-- The run of a new claim, or of one that found nothing to do. -/
theorem Kept.started {w : World} (kept : Kept s w) {run : TaskRun} {d : TaskDispatch}
    (member : d ∈ w.tables.dispatches) (of : RunOf s w.tables w.created run d) :
    Kept s { w with runs := w.runs ++ [run] } := by
  refine { kept with runs := fun other listed => ?_ }
  rcases List.mem_append.1 listed with old | new
  · exact kept.runs other old
  · rw [List.mem_singleton.1 new]
    exact ⟨d, member, of⟩

theorem Kept.deliver {w : World} (kept : Kept s w) {task : CloudTask} (queued : task ∈ w.queue)
    (fullName : Bool) (workerId : String) (leaseFor : Int) :
    Kept s (deliver s w task fullName workerId leaseFor) := by
  have listed := kept.queued task queued
  obtain ⟨d, member, made⟩ := kept.created task listed
  have read := readTask_sent made (sends_sentRequest (s := s) task fullName)
  have number := uuid_toNat (kept.range member).1
  obtain ⟨row, found, earlier⟩ := job_of_dispatch kept.tables member
  unfold TaskDelivery.deliver
  rw [read]
  dsimp only
  rw [number]
  split
  · exact kept
  · next idle =>
    obtain ⟨job, here, -, ⟨-, reason⟩ | ⟨-, -, -, taken⟩⟩ := claimSpecific_ok idle
    · rw [found] at here
      cases here
      refine kept.started member ⟨listed, made, rfl, row, found, earlier, fun _ => ?_,
        fun active => by cases active⟩
      rcases reason with other | closed | spent
      · exact .inl (by omega)
      · exact .inr (.inl closed)
      · exact .inr (.inr (.inl spent))
    · cases taken
  · next claimed tables taken =>
    obtain ⟨job, here, -, ⟨none_, -⟩ | ⟨same, running, left, leased⟩⟩ := claimSpecific_ok taken
    · cases none_
    · rw [found] at here
      cases here
      have named := id_of_job found
      have place : w.tables.job row.id = some row := by rw [named]; exact found
      have claimKept := kept.claimed place running left workerId leaseFor
      have after := (lease_job place workerId w.now leaseFor).2.1
      cases leased
      refine claimKept.started member ⟨listed, made, rfl, _, named ▸ after, ?_⟩
      refine ⟨earlier, fun done => ?_, fun _ => ⟨_, rfl, named, ?_⟩⟩
      · cases done
      · exact .inr (.inl ⟨⟨rfl, rfl, rfl⟩, same⟩)

/-- One run goes on as another of the same task. -/
theorem Kept.rerun {w : World} (kept : Kept s w) {position : Nat} {run : TaskRun}
    (of : ∃ d ∈ w.tables.dispatches, RunOf s w.tables w.created run d) :
    Kept s { w with runs := w.runs.set position run } := by
  refine { kept with runs := fun other listed => ?_ }
  rcases List.mem_or_eq_of_mem_set listed with old | rfl
  · exact kept.runs other old
  · exact of

theorem Kept.crashed {w : World} (kept : Kept s w) (position : Nat) :
    Kept s { w with runs := w.runs.eraseIdx position } :=
  { kept with runs := fun other listed => kept.runs other (List.mem_of_mem_eraseIdx listed) }

/-- A run whose heartbeat fails has lost its lease for good. -/
theorem settled_of_lost {t : JobTables} {run : TaskRun} {c : ClaimedJob} {generation : Nat}
    {row : DurableJob} {leaseUntil : Instant} (claimed : run.claimed = some c)
    (found : t.job c.id = some row) (running : Running c generation row)
    (failed : (heartbeat c.id c.leaseOwner c.attempt leaseUntil t).1 = false) :
    Settled run generation row := by
  rcases running with lost | ⟨⟨leased, owner, attempt⟩, -⟩ | later | closed
  · exact .inr (.inr (.inr ⟨c, claimed, lost⟩))
  · rcases heartbeat_cases c.id c.leaseOwner c.attempt leaseUntil t with ⟨-, other⟩ |
      ⟨_, -, -, -, -, beat⟩
    · exact absurd leased (other row found owner attempt)
    · rw [beat] at failed
      cases failed
  · exact .inl later
  · exact .inr (.inl closed)

theorem Kept.runHeartbeat {w : World} (kept : Kept s w) {position : Nat} {task : CloudTask}
    {payload : TaskPayload} {claimed : ClaimedJob}
    (found : w.runs[position]? = some ⟨task, payload, some claimed, false⟩) (leaseUntil : Instant) :
    Kept s (runHeartbeat w position ⟨task, payload, some claimed, false⟩ claimed leaseUntil) := by
  have beaten := kept.beaten claimed.id claimed.leaseOwner claimed.attempt leaseUntil
  obtain ⟨d, member, of⟩ := beaten.runs _ (List.mem_of_getElem? found)
  refine beaten.rerun ⟨d, member, of.listed, of.task, of.payload, ?_⟩
  obtain ⟨row, here, rowOf⟩ := of.row
  refine ⟨row, here, rowOf.earlier, fun lost => ?_, fun _ => rowOf.running rfl⟩
  have failed :
      (heartbeat claimed.id claimed.leaseOwner claimed.attempt leaseUntil w.tables).1 = false := by
    simpa using lost
  obtain ⟨c, mine, job, running⟩ := rowOf.running rfl
  cases mine
  refine settled_of_lost (t := w.tables) rfl ?_ running failed
  -- a heartbeat that fails has written nothing
  rcases heartbeat_cases claimed.id claimed.leaseOwner claimed.attempt leaseUntil w.tables with
    ⟨same, -⟩ | ⟨_, -, -, -, -, beat⟩
  · dsimp only at here
    rw [same, ← job] at here
    exact here
  · rw [beat] at failed
    cases failed

/-- A run whose finish is filed has ended its generation. -/
theorem Kept.runFinish {w : World} (kept : Kept s w) {position : Nat} {task : CloudTask}
    {payload : TaskPayload} {claimed : ClaimedJob}
    (found : w.runs[position]? = some ⟨task, payload, some claimed, false⟩) (outcome : JobOutcome)
    (retryAt : Option Instant) (safeErrorCode : Option String) :
    Kept s (runFinish w position ⟨task, payload, some claimed, false⟩ claimed outcome retryAt
      safeErrorCode) := by
  unfold TaskDelivery.runFinish
  split
  · exact kept.crashed position
  · next filed =>
    split
    · next named =>
      obtain ⟨progress, stored, stored', before, -, after, ended⟩ := finish_ends kept.tables filed
      have filedKept := kept.progress (finish_tables kept.tables filed).1
        (finish_kept kept.wellKept filed) named progress
      obtain ⟨d, member, of⟩ := kept.runs _ (List.mem_of_getElem? found)
      obtain ⟨d', member', same⟩ := progress.dispatches.kept d member
      have later := of.later progress.rows same
      obtain ⟨row, here, rowOf⟩ := of.row
      obtain ⟨c, mine, job, -⟩ := rowOf.running rfl
      cases mine
      rw [job, here] at before
      cases before
      refine filedKept.rerun ⟨d', member', later.listed, later.task, later.payload, stored', ?_, ?_⟩
      · rw [same.job, ← job]
        exact after
      · have earlier := rowOf.earlier
        obtain ⟨row', here', advances⟩ := progress.rows _ _ here
        rw [← job, after] at here'
        cases here'
        have forward := advances.generation
        refine ⟨by rw [same.generation]; omega, fun _ => ?_, fun active => ?_⟩
        · rw [same.generation]
          rcases ended with later | closed
          · exact .inl (Nat.lt_of_le_of_lt earlier later)
          · exact .inr (.inl closed)
        · cases active
    · exact kept.crashed position

/-- The task of an answered run is deleted; the run keeps what became of its job. -/
theorem Kept.acknowledge {w : World} (kept : Kept s w) {position : Nat} {run : TaskRun}
    (found : w.runs[position]? = some run) (returned : run.returned = true) :
    Kept s (acknowledge w position run) := by
  obtain ⟨d, member, of⟩ := kept.runs run (List.mem_of_getElem? found)
  refine { kept with
    queued := fun task listed => kept.queued task (List.mem_filter.1 listed).1
    present := fun task listed => ?_
    names := kept.names.sublist (List.filter_sublist.map _)
    runs := fun other listed => kept.runs other (List.mem_of_mem_eraseIdx listed)
    acknowledged := fun other listed => ?_ }
  · by_cases same : task.name = run.task.name
    · have only := kept.same_task member of.task listed same
      exact .inr ⟨run, List.mem_append_right _ (List.mem_singleton_self run), only.symm⟩
    · rcases kept.present task listed with queued | ⟨other, earlier, of'⟩
      · exact .inl (List.mem_filter.2 ⟨queued, decide_eq_true same⟩)
      · exact .inr ⟨other, List.mem_append_left _ earlier, of'⟩
  · rcases List.mem_append.1 listed with old | new
    · exact kept.acknowledged other old
    · rw [List.mem_singleton.1 new]
      exact ⟨returned, d, member, of⟩

theorem step_kept {w : World} (kept : Kept s w) (op : Operation) : Kept s (step s w op) := by
  cases op with
  | enqueueOnce spec availableAt freshId =>
    exact kept.commit (enqueueOnce_tables kept.tables).1 (enqueueOnce_kept kept.wellKept)
      (progress_enqueueOnce spec availableAt w.now freshId kept.tables)
  | claim workerId leaseFor =>
    dsimp only [step]
    split
    · exact kept
    · next taken =>
      obtain ⟨job, found, running, left, rfl⟩ := claim_running kept.tables taken
      exact kept.commit (lease_tables kept.tables found left workerId w.now leaseFor)
        (lease_kept kept.wellKept found workerId w.now leaseFor)
        (progress_lease found running workerId w.now leaseFor)
  | heartbeat job leaseUntil =>
    exact kept.commit (heartbeat_tables kept.tables) (heartbeat_kept kept.wellKept)
      (progress_heartbeat job.id job.leaseOwner job.attempt leaseUntil w.tables)
  | finish job outcome retryAt safeErrorCode =>
    dsimp only [step]
    split
    · exact kept
    · next filed =>
      exact kept.commit (finish_tables kept.tables filed).1 (finish_kept kept.wellKept filed)
        (finish_ends kept.tables filed).1
  | replay jobId =>
    dsimp only [step]
    split
    · exact kept
    · next replayed =>
      exact kept.commit (replay_tables kept.tables replayed).1 (replay_ok kept.wellKept replayed).1
        (progress_replay replayed)
  | recoverStale staleGrace limit =>
    dsimp only [step]
    split
    · exact kept
    · next recovered =>
      exact kept.commit (recoverStale_tables kept.tables recovered).1
        (recoverStaleDispatched_ok kept.wellKept recovered).1
        (progress_recoverStale kept.tables recovered)
  | advance duration => exact { kept with }
  | beginDispatch jobId generation => exact kept.beginDispatch jobId generation
  | createTask position remembered answer =>
    dsimp only [step]
    split
    · next call found =>
      split
      · exact kept.createTask found remembered answer
      · exact kept
    · exact kept
  | recordOutcome position =>
    dsimp only [step]
    split
    · next call found => exact kept.recordOutcome found
    · exact kept
  | abandonDispatch position => exact kept.dropped position
  | deliver position fullName workerId leaseFor =>
    dsimp only [step]
    split
    · next task found => exact kept.deliver (List.mem_of_getElem? found) fullName workerId leaseFor
    · exact kept
  | runHeartbeat position leaseUntil =>
    dsimp only [step]
    split
    · next found => exact kept.runHeartbeat found leaseUntil
    · exact kept
  | runFinish position outcome retryAt safeErrorCode =>
    dsimp only [step]
    split
    · next found => exact kept.runFinish found outcome retryAt safeErrorCode
    · exact kept
  | runCrash position => exact kept.crashed position
  | acknowledge position =>
    dsimp only [step]
    split
    · next run found =>
      split
      · next returned => exact kept.acknowledge found returned
      · exact kept
    · exact kept

theorem start_kept (now : Instant) : Kept s (start now) where
  tables := ⟨List.nodup_nil, fun _ => ⟨rfl, rfl⟩⟩
  wellKept := emptyWorld_kept now
  named := rfl
  created _ member := absurd member List.not_mem_nil
  marked _ member := absurd member List.not_mem_nil
  calls _ member := absurd member List.not_mem_nil
  queued _ member := absurd member List.not_mem_nil
  present _ member := absurd member List.not_mem_nil
  names := List.nodup_nil
  runs _ member := absurd member List.not_mem_nil
  acknowledged _ member := absurd member List.not_mem_nil

theorem run_kept (ops : List Operation) {w : World} (kept : Kept s w) : Kept s (run s ops w) := by
  induction ops generalizing w with
  | nil => exact kept
  | cons op rest ih => exact ih (step_kept kept op)

/-! ## Every run -/

theorem reached_kept (s : Deployment F) (now : Instant) (ops : List Operation) :
    Kept s (run s ops (start now)) :=
  run_kept ops (start_kept now)

end TaskDelivery
