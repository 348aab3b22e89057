import SpacerocksCoa.DeliveryGuard
import SpacerocksCoa.JobSuccession

/-!
# What a finished job leaves behind

A stage of an order ends in several transactions: the follow-up job is enqueued, the order is
advanced, the job is finished. The invariant says of every finished job what it left: a successor,
a notice, or an order that is past the stage. It holds between any two transactions, so nothing
depends on a run coming to its end. That some job is open then follows for every stage, because
the polls of an order cannot all be finished: each of them left a later one.
-/
namespace BatonInvariant
open OrderStates ProofRecords OrderRows JobClaims FulfillmentAdapters NotificationAdapters
open FulfillmentHandlers WorkerRuns PaymentWebhooks OrderStateMachine JobSuccession
open TransactionalPrograms

/-! ## Jobs, notices and stages -/

def HasJob (r : OrderRecord) (kind : JobKind) : Prop := ∃ row ∈ r.tables.jobs, row.kind = kind

/-- A job that is available, in retry or leased, whether or not its worker is still alive. -/
def OpenJob (r : OrderRecord) (kind : JobKind) : Prop :=
  ∃ row ∈ r.tables.jobs, row.kind = kind ∧ row.state.claimable = true

def HasNotice (r : OrderRecord) (kind : NotificationKind) : Prop :=
  ∃ m ∈ r.outbox, m.kind = .notification kind

/-- Every stage of an order has something that takes it further. -/
structure BatonHeld (r : OrderRecord) : Prop where
  stamping : r.order.fulfillmentState = .queued ∨ r.order.fulfillmentState = .stamping ∨
    r.order.fulfillmentState = .calendarPending →
      OpenJob r .stampManifestDigest ∨ OpenJob r .upgradeTimestamp
  verified : r.order.fulfillmentState = .bitcoinVerified →
    OpenJob r .upgradeTimestamp ∨ OpenJob r .deliverTimestamp ∨ HasNotice r .initialConfirmation
  noticed : r.order.fulfillmentState = .bitcoinVerified ∨ r.order.fulfillmentState = .delivered →
    HasNotice r .initialConfirmation →
      OpenJob r .deliverTimestamp ∨ OpenJob r .monitorBitcoinConfirmations ∨
        HasNotice r .finalConfirmation

def stage (r : OrderRecord) : Nat := r.order.fulfillmentState.rank

/-- A poll of the kind that is named after a later second than the key, if the key is a poll. -/
def LaterPoll (r : OrderRecord) (kind : JobKind) (key : JobKey) : Prop :=
  ∃ row ∈ r.tables.jobs, row.kind = kind ∧
    ∃ seconds, pollSecond row.jobKey = some seconds ∧
      ∀ own, pollSecond key = some own → own < seconds

/-- What a completed job of a kind left. -/
def HandedOn (r : OrderRecord) (key : JobKey) : JobKind → Prop
  | .stampManifestDigest => HasJob r .upgradeTimestamp
  | .upgradeTimestamp =>
    5 ≤ stage r ∨ HasJob r .deliverTimestamp ∨ LaterPoll r .upgradeTimestamp key
  | .deliverTimestamp =>
    HasNotice r .initialConfirmation ∧ HasJob r .monitorBitcoinConfirmations
  | .monitorBitcoinConfirmations =>
    HasNotice r .finalConfirmation ∨ LaterPoll r .monitorBitcoinConfirmations key
  | .unknown _ => True

/-- What a job in the state left; one that failed for good left the order to an operator. -/
def Left (r : OrderRecord) (key : JobKey) (kind : JobKind) : JobState → Prop
  | .complete => HandedOn r key kind
  | .manualReview => stage r = 6
  | .deadLetter => stage r = 6
  | .available => True
  | .leased => True
  | .retry => True

structure Baton (w : World) : Prop where
  coupled : Coupled w.record
  unique : (w.record.tables.jobs.map DurableJob.id).Nodup
  keyed : ∀ row ∈ w.record.tables.jobs, row.kind = kindOf row.jobKey
  due : ∀ row ∈ w.record.tables.jobs, ∀ seconds, pollSecond row.jobKey = some seconds →
    seconds * second ≤ w.clock ∨ Waits row (seconds * second)
  left : ∀ row ∈ w.record.tables.jobs, Left w.record row.jobKey row.kind row.state
  stamped : 1 ≤ stage w.record → stage w.record ≤ 5 → HasJob w.record .stampManifestDigest
  upgraded : 4 ≤ stage w.record → stage w.record ≤ 5 → HasJob w.record .upgradeTimestamp
  delivering : HasJob w.record .deliverTimestamp → 4 ≤ stage w.record
  noticed : HasNotice w.record .initialConfirmation → HasJob w.record .deliverTimestamp
  logged : ∀ e ∈ w.record.stateEvents, e.fulfillmentState.rank ≤ stage w.record

/-! ## The invariant holds the baton -/

section
variable {w : World}

theorem closed_states {state : JobState} (closed : ¬state.claimable = true) :
    state = .complete ∨ state = .manualReview ∨ state = .deadLetter := by
  cases state with
  | available => exact absurd rfl closed
  | leased => exact absurd rfl closed
  | retry => exact absurd rfl closed
  | complete => exact Or.inl rfl
  | manualReview => exact Or.inr (Or.inl rfl)
  | deadLetter => exact Or.inr (Or.inr rfl)

theorem left_of_open {r : OrderRecord} {key : JobKey} {kind : JobKind} {state : JobState}
    (open_ : state.claimable = true) : Left r key kind state := by
  cases state with
  | available => trivial
  | leased => trivial
  | retry => trivial
  | complete => cases open_
  | manualReview => cases open_
  | deadLetter => cases open_

/-- Of an order that nobody has to look at, a job that is over was completed. -/
theorem Baton.completed (baton : Baton w) (alive : stage w.record ≤ 5) {row : DurableJob}
    (member : row ∈ w.record.tables.jobs) (closed : ¬row.state.claimable = true) :
    HandedOn w.record row.jobKey row.kind := by
  have left := baton.left row member
  rcases closed_states closed with complete | failed | failed
  · rw [complete] at left
    exact left
  · rw [failed] at left
    exact absurd alive (by rw [show stage w.record = 6 from left]; decide)
  · rw [failed] at left
    exact absurd alive (by rw [show stage w.record = 6 from left]; decide)

/-- When every completed job of a polling kind left a later poll, one of them is open. -/
theorem Baton.polling (baton : Baton w) (alive : stage w.record ≤ 5) {kind : JobKind}
    (some_ : HasJob w.record kind)
    (later : ∀ key, HandedOn w.record key kind → LaterPoll w.record kind key) :
    OpenJob w.record kind := by
  obtain ⟨first, listed, own⟩ := some_
  obtain ⟨row, member, open_⟩ := @exists_open DurableJob
    (w.record.tables.jobs.filter fun row => row.kind = kind)
    (fun row => ¬row.state.claimable = true) (fun row => pollSecond row.jobKey)
    ⟨first, List.mem_filter.2 ⟨listed, decide_eq_true own⟩⟩ fun row member closed => by
      obtain ⟨old, same⟩ := List.mem_filter.1 member
      rw [decide_eq_true_eq] at same
      obtain ⟨next, found, its, seconds, named, beyond⟩ :=
        later row.jobKey (same ▸ baton.completed alive old closed)
      exact ⟨next, List.mem_filter.2 ⟨found, decide_eq_true its⟩, seconds, named, beyond⟩
  obtain ⟨old, same⟩ := List.mem_filter.1 member
  exact ⟨row, old, of_decide_eq_true same, not_not.1 open_⟩

/-- Until the order is delivered, an upgrade is open or a delivery exists. -/
theorem Baton.upgrading (baton : Baton w) (early : stage w.record ≤ 4)
    (some_ : HasJob w.record .upgradeTimestamp) :
    OpenJob w.record .upgradeTimestamp ∨ HasJob w.record .deliverTimestamp := by
  by_cases delivering : HasJob w.record .deliverTimestamp
  · exact Or.inr delivering
  · refine Or.inl (baton.polling (by omega) some_ fun key handed => ?_)
    rcases handed with past | exists_ | later
    · omega
    · exact absurd exists_ delivering
    · exact later

theorem Baton.stampingHeld (baton : Baton w) (begun : 1 ≤ stage w.record)
    (early : stage w.record ≤ 3) :
    OpenJob w.record .stampManifestDigest ∨ OpenJob w.record .upgradeTimestamp := by
  obtain ⟨row, member, kind⟩ := baton.stamped begun (by omega)
  by_cases open_ : row.state.claimable = true
  · exact Or.inl ⟨row, member, kind, open_⟩
  · have handed := baton.completed (by omega) member open_
    rw [kind] at handed
    rcases baton.upgrading (by omega) handed with upgrade | delivering
    · exact Or.inr upgrade
    · have past := baton.delivering delivering
      omega

theorem Baton.verifiedHeld (baton : Baton w) (verified : stage w.record = 4) :
    OpenJob w.record .upgradeTimestamp ∨ OpenJob w.record .deliverTimestamp ∨
      HasNotice w.record .initialConfirmation := by
  rcases baton.upgrading (by omega) (baton.upgraded (by omega) (by omega)) with
    upgrade | ⟨row, member, kind⟩
  · exact Or.inl upgrade
  · by_cases open_ : row.state.claimable = true
    · exact Or.inr (Or.inl ⟨row, member, kind, open_⟩)
    · have handed := baton.completed (by omega) member open_
      rw [kind] at handed
      exact Or.inr (Or.inr handed.1)

theorem Baton.noticedHeld (baton : Baton w) (alive : stage w.record ≤ 5)
    (notice : HasNotice w.record .initialConfirmation) :
    OpenJob w.record .deliverTimestamp ∨ OpenJob w.record .monitorBitcoinConfirmations ∨
      HasNotice w.record .finalConfirmation := by
  obtain ⟨row, member, kind⟩ := baton.noticed notice
  by_cases open_ : row.state.claimable = true
  · exact Or.inl ⟨row, member, kind, open_⟩
  · have handed := baton.completed alive member open_
    rw [kind] at handed
    by_cases final : HasNotice w.record .finalConfirmation
    · exact Or.inr (Or.inr final)
    · exact Or.inr (Or.inl (baton.polling alive handed.2 fun key left =>
        left.resolve_left final))

theorem Baton.held (baton : Baton w) : BatonHeld w.record where
  stamping states := by
    refine baton.stampingHeld ?_ ?_
    · rcases states with state | state | state <;> rw [stage, state] <;> decide
    · rcases states with state | state | state <;> rw [stage, state] <;> decide
  verified state := baton.verifiedHeld (by rw [stage, state]; rfl)
  noticed states notice := by
    refine baton.noticedHeld ?_ notice
    rcases states with state | state <;> rw [stage, state] <;> decide

end

/-! ## What lasts -/

/-- The row goes on under its identifier with what it is about. -/
structure SameJob (row row' : DurableJob) : Prop where
  id : row'.id = row.id
  key : row'.jobKey = row.jobKey
  kind : row'.kind = row.kind
  attempts : row.maxAttempts ≤ row'.maxAttempts

structure Onward (w w' : World) : Prop where
  clock : w.clock ≤ w'.clock
  ahead : stage w.record ≤ stage w'.record
  settled : Settled w.record.order.paymentState → Settled w'.record.order.paymentState
  jobs : ∀ row ∈ w.record.tables.jobs, ∃ row' ∈ w'.record.tables.jobs, SameJob row row'
  notices : ∀ m ∈ w.record.outbox, ∃ m' ∈ w'.record.outbox, m'.kind = m.kind

theorem onward_refl (w : World) : Onward w w :=
  ⟨le_rfl, le_rfl, id, fun row member => ⟨row, member, rfl, rfl, rfl, le_rfl⟩,
    fun m member => ⟨m, member, rfl⟩⟩

section
variable {w w' w'' : World}

theorem Onward.trans (first : Onward w w') (next : Onward w' w'') : Onward w w'' := by
  refine ⟨first.clock.trans next.clock, first.ahead.trans next.ahead,
    fun settled => next.settled (first.settled settled), ?_, ?_⟩
  · intro row member
    obtain ⟨row', member', same⟩ := first.jobs row member
    obtain ⟨row'', member'', same'⟩ := next.jobs row' member'
    exact ⟨row'', member'', same'.id.trans same.id, same'.key.trans same.key,
      same'.kind.trans same.kind, same.attempts.trans same'.attempts⟩
  · intro m member
    obtain ⟨m', member', same⟩ := first.notices m member
    obtain ⟨m'', member'', same'⟩ := next.notices m' member'
    exact ⟨m'', member'', same'.trans same⟩

theorem Onward.hasJob (onward : Onward w w') {kind : JobKind} (some_ : HasJob w.record kind) :
    HasJob w'.record kind := by
  obtain ⟨row, member, own⟩ := some_
  obtain ⟨row', member', same⟩ := onward.jobs row member
  exact ⟨row', member', same.kind.trans own⟩

theorem Onward.hasNotice (onward : Onward w w') {kind : NotificationKind}
    (some_ : HasNotice w.record kind) : HasNotice w'.record kind := by
  obtain ⟨m, member, own⟩ := some_
  obtain ⟨m', member', same⟩ := onward.notices m member
  exact ⟨m', member', same.trans own⟩

theorem Onward.laterPoll (onward : Onward w w') {kind : JobKind} {key : JobKey}
    (later : LaterPoll w.record kind key) : LaterPoll w'.record kind key := by
  obtain ⟨row, member, own, seconds, named, beyond⟩ := later
  obtain ⟨row', member', same⟩ := onward.jobs row member
  exact ⟨row', member', same.kind.trans own, seconds, same.key ▸ named, beyond⟩

theorem stage_le (r : OrderRecord) : stage r ≤ 6 := by
  unfold stage
  cases r.order.fulfillmentState <;> decide

theorem Onward.handedOn (onward : Onward w w') {kind : JobKind} {key : JobKey}
    (handed : HandedOn w.record key kind) : HandedOn w'.record key kind := by
  cases kind with
  | stampManifestDigest => exact onward.hasJob handed
  | upgradeTimestamp =>
    rcases handed with past | delivering | later
    · exact Or.inl (past.trans onward.ahead)
    · exact Or.inr (Or.inl (onward.hasJob delivering))
    · exact Or.inr (Or.inr (onward.laterPoll later))
  | deliverTimestamp => exact ⟨onward.hasNotice handed.1, onward.hasJob handed.2⟩
  | monitorBitcoinConfirmations =>
    rcases handed with notice | later
    · exact Or.inl (onward.hasNotice notice)
    · exact Or.inr (onward.laterPoll later)
  | unknown name => trivial

theorem Onward.condemned (onward : Onward w w') (condemned : stage w.record = 6) :
    stage w'.record = 6 :=
  le_antisymm (stage_le _) (condemned ▸ onward.ahead)

theorem Onward.left (onward : Onward w w') {kind : JobKind} {key : JobKey} {state : JobState}
    (left : Left w.record key kind state) : Left w'.record key kind state := by
  cases state with
  | complete => exact onward.handedOn left
  | manualReview => exact onward.condemned left
  | deadLetter => exact onward.condemned left
  | available => trivial
  | leased => trivial
  | retry => trivial

/-! ## Steps -/

/-- What a step does that inserts no job. -/
structure Moves (ends : DurableJob → JobState → Prop) (w w' : World) : Prop where
  clock : w.clock ≤ w'.clock
  rows : GoOn ends w'.clock w.record.tables w'.record.tables
  notices : ∀ m ∈ w.record.outbox, ∃ m' ∈ w'.record.outbox, m'.kind = m.kind
  noticed : HasNotice w'.record .initialConfirmation →
    HasNotice w.record .initialConfirmation ∨ HasJob w.record .deliverTimestamp
  ahead : stage w.record ≤ stage w'.record
  settled : Settled w.record.order.paymentState → Settled w'.record.order.paymentState
  waiting : ¬Settled w'.record.order.paymentState →
    w.record.order.fulfillmentState = .awaitingPayment →
      w'.record.order.fulfillmentState = .awaitingPayment
  begun : 1 ≤ stage w'.record → stage w'.record ≤ 5 → 1 ≤ stage w.record
  verified : 4 ≤ stage w'.record → stage w'.record ≤ 5 →
    4 ≤ stage w.record ∨ HasJob w.record .upgradeTimestamp
  logged : ∀ e ∈ w'.record.stateEvents, e ∈ w.record.stateEvents ∨
    e.fulfillmentState.rank ≤ stage w'.record

theorem Moves.onward {ends : DurableJob → JobState → Prop} (moves : Moves ends w w') :
    Onward w w' := by
  refine ⟨moves.clock, moves.ahead, moves.settled, fun row member => ?_, moves.notices⟩
  obtain ⟨row', member', goes⟩ := moves.rows.after member
  exact ⟨row', member', goes.id, goes.key, goes.kind, goes.attempts⟩

/-- The rows that go on keep what the invariant says of them; a row that ends must have left
what its end calls for. -/
theorem Moves.baton {ends : DurableJob → JobState → Prop} (moves : Moves ends w w')
    (baton : Baton w)
    (ended : ∀ row ∈ w.record.tables.jobs, ∀ state, ends row state →
      Left w.record row.jobKey row.kind state) : Baton w' := by
  have onward := moves.onward
  constructor
  · intro unsettled
    obtain ⟨waiting, idle⟩ := baton.coupled fun settled => unsettled (moves.settled settled)
    obtain ⟨f, rows, -⟩ := moves.rows
    exact ⟨moves.waiting unsettled waiting, by rw [rows, idle]; rfl⟩
  · rw [moves.rows.ids]
    exact baton.unique
  · intro row' member'
    obtain ⟨row, member, goes⟩ := moves.rows.before member'
    rw [goes.kind, goes.key]
    exact baton.keyed row member
  · intro row' member' seconds named
    obtain ⟨row, member, goes⟩ := moves.rows.before member'
    rw [goes.key] at named
    by_cases past : seconds * second ≤ w'.clock
    · exact Or.inl past
    · refine Or.inr (goes.waits _ (not_le.1 past) ?_)
      refine (baton.due row member seconds named).resolve_left fun before => ?_
      exact past (before.trans moves.clock)
  · intro row' member'
    obtain ⟨row, member, goes⟩ := moves.rows.before member'
    rw [goes.key, goes.kind]
    by_cases open_ : row'.state.claimable = true
    · exact left_of_open open_
    · rcases goes.ended (Bool.eq_false_of_not_eq_true open_) with same | ends_
      · rw [same]
        exact onward.left (baton.left row member)
      · exact onward.left (ended row member _ ends_)
  · intro begun alive
    exact onward.hasJob (baton.stamped (moves.begun begun alive) (moves.ahead.trans alive))
  · intro verified alive
    rcases moves.verified verified alive with before | upgrade
    · exact onward.hasJob (baton.upgraded before (moves.ahead.trans alive))
    · exact onward.hasJob upgrade
  · rintro ⟨row', member', own⟩
    obtain ⟨row, member, goes⟩ := moves.rows.before member'
    exact (baton.delivering ⟨row, member, goes.kind.symm.trans own⟩).trans moves.ahead
  · intro notice
    rcases moves.noticed notice with old | delivering
    · exact onward.hasJob (baton.noticed old)
    · exact onward.hasJob delivering
  · intro e member
    rcases moves.logged e member with old | new
    · exact (baton.logged e old).trans moves.ahead
    · exact new

/-- What a step makes of the invariant. -/
structure Keeps (w w' : World) : Prop where
  baton : Baton w'
  onward : Onward w w'

theorem keeps_of_moves (baton : Baton w) (moves : Moves noEnds w w') : Keeps w w' :=
  ⟨moves.baton baton fun _ _ _ none_ => none_.elim, moves.onward⟩

/-- Both states and the log are as before, and messages of the same kinds are there. -/
structure Unmoved (r r' : OrderRecord) : Prop where
  payment : r'.order.paymentState = r.order.paymentState
  fulfillment : r'.order.fulfillmentState = r.order.fulfillmentState
  events : r'.stateEvents = r.stateEvents
  kinds : r'.outbox.map OutboxRecord.kind = r.outbox.map OutboxRecord.kind

theorem unmoved_refl (r : OrderRecord) : Unmoved r r := ⟨rfl, rfl, rfl, rfl⟩

theorem mem_of_kinds {l l' : List OutboxRecord}
    (kinds : l'.map OutboxRecord.kind = l.map OutboxRecord.kind) {m : OutboxRecord}
    (member : m ∈ l) : ∃ m' ∈ l', m'.kind = m.kind := by
  have listed := @List.mem_map_of_mem _ _ _ _ OutboxRecord.kind member
  rw [← kinds] at listed
  obtain ⟨m', member', same⟩ := List.mem_map.1 listed
  exact ⟨m', member', same⟩

theorem notice_of_kinds {r r' : OrderRecord}
    (kinds : r'.outbox.map OutboxRecord.kind = r.outbox.map OutboxRecord.kind)
    {kind : NotificationKind} (notice : HasNotice r' kind) : HasNotice r kind := by
  obtain ⟨m', member', own⟩ := notice
  obtain ⟨m, member, same⟩ := mem_of_kinds kinds.symm member'
  exact ⟨m, member, same.trans own⟩

theorem moves_of_unmoved {ends : DurableJob → JobState → Prop} (clock : w.clock ≤ w'.clock)
    (unmoved : Unmoved w.record w'.record)
    (rows : GoOn ends w'.clock w.record.tables w'.record.tables) : Moves ends w w' := by
  have same : stage w'.record = stage w.record :=
    congrArg FulfillmentState.rank unmoved.fulfillment
  refine ⟨clock, rows, fun m member => mem_of_kinds unmoved.kinds member,
    fun notice => Or.inl (notice_of_kinds unmoved.kinds notice), same.ge,
    fun settled => unmoved.payment ▸ settled, fun _ waiting => unmoved.fulfillment.trans waiting,
    fun begun _ => same ▸ begun, fun verified _ => Or.inl (same ▸ verified), fun e member => ?_⟩
  rw [unmoved.events] at member
  exact Or.inl member

theorem keeps_of_unmoved (baton : Baton w) (clock : w.clock ≤ w'.clock)
    (unmoved : Unmoved w.record w'.record) (tables : w'.record.tables = w.record.tables) :
    Keeps w w' :=
  keeps_of_moves baton (moves_of_unmoved clock unmoved (goOn_of_jobs (by rw [tables])))

/-! ## New jobs -/

/-- A new job is under the key of its kind, not due before the second it is named after, and a
delivery of a verified order. -/
structure Fits (r : OrderRecord) (row : DurableJob) : Prop where
  state : row.state = .available
  owner : row.leaseOwner = none
  kind : row.kind = kindOf row.jobKey
  due : ∀ seconds, pollSecond row.jobKey = some seconds → seconds * second ≤ row.availableAt
  delivering : row.kind = .deliverTimestamp → 4 ≤ stage r

theorem keeps_of_insert (baton : Baton w) (clock : w.clock ≤ w'.clock)
    (unmoved : Unmoved w.record w'.record) (settled : Settled w.record.order.paymentState)
    {row : DurableJob} (rows : w'.record.tables.jobs = w.record.tables.jobs ++ [row])
    (fresh : ∀ other ∈ w.record.tables.jobs, other.id ≠ row.id) (fits : Fits w.record row) :
    Keeps w w' := by
  have same : stage w'.record = stage w.record :=
    congrArg FulfillmentState.rank unmoved.fulfillment
  have onward : Onward w w' := by
    refine ⟨clock, same.ge, fun settled => unmoved.payment ▸ settled, fun other member => ?_,
      fun m member => mem_of_kinds unmoved.kinds member⟩
    exact ⟨other, rows ▸ List.mem_append_left _ member, rfl, rfl, rfl, le_rfl⟩
  have split_ : ∀ other ∈ w'.record.tables.jobs, other ∈ w.record.tables.jobs ∨ other = row := by
    intro other member
    rw [rows] at member
    exact (List.mem_append.1 member).imp_right List.mem_singleton.1
  refine ⟨?_, onward⟩
  constructor
  · intro unsettled
    exact absurd (unmoved.payment ▸ settled) unsettled
  · rw [rows, List.map_append]
    refine List.nodup_append.2 ⟨baton.unique, List.nodup_singleton _, ?_⟩
    rintro _ old _ new same_
    obtain ⟨other, member, rfl⟩ := List.mem_map.1 old
    exact fresh other member (same_.trans (List.mem_singleton.1 new))
  · intro other member
    rcases split_ other member with old | rfl
    · exact baton.keyed other old
    · exact fits.kind
  · intro other member seconds named
    rcases split_ other member with old | rfl
    · exact (baton.due other old seconds named).imp_left clock.trans'
    · exact Or.inr ⟨fits.state, fits.owner, fits.due seconds named⟩
  · intro other member
    rcases split_ other member with old | rfl
    · exact onward.left (baton.left other old)
    · rw [fits.state]
      trivial
  · intro begun alive
    rw [same] at begun alive
    exact onward.hasJob (baton.stamped begun alive)
  · intro verified alive
    rw [same] at verified alive
    exact onward.hasJob (baton.upgraded verified alive)
  · rintro ⟨other, member, own⟩
    rw [same]
    rcases split_ other member with old | rfl
    · exact baton.delivering ⟨other, old, own⟩
    · exact fits.delivering own
  · exact fun notice => onward.hasJob (baton.noticed (notice_of_kinds unmoved.kinds notice))
  · intro e member
    rw [unmoved.events] at member
    rw [same]
    exact baton.logged e member

end

end BatonInvariant
