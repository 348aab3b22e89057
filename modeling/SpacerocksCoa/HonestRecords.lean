import SpacerocksCoa.OrderStateMachine
import SpacerocksCoa.VerifiedOrders
import SpacerocksCoa.LeaseHolders

/-!
# The record of a paid order in an honest world

Calendars answer with valid proofs and Bitcoin is verified against one growing chain. What
the record of a paid order then says stays true under every request and every arrival:
its versions are sound, its verifications and observations name the block of the bytes
they belong to, and a verified order has a verification and an observation of its latest
version. The world only moves forward: rows are added, leases are lost for good.

Which steps a run must not meet for this is part of this module; what the runs make of it
is not.
-/
namespace HonestRecords
open OrderStates ProofRecords OrderRows JobClaims FulfillmentAdapters NotificationAdapters
open FulfillmentHandlers WorkerRuns VerifiedOrders OrderStateMachine LeaseHolders

/-! ## An honest world -/

/-- The block each proof commits to, and the confirmations a verification waits for. -/
structure Chain where
  block : Bytes → Option (BlockEvidence Instant)
  minimum : Nat

/-- What a verifier answers about a proof when the chain has reached a height. -/
def Chain.Answers (chain : Chain) (now : Instant) (tip : Nat) (proofBytes : Bytes) :
    Except VerifierError (BitcoinVerification Instant) → Prop
  | .ok (.unverified _ _) =>
    (chain.block proofBytes).all (fun b => decide (tip + 1 < b.blockHeight + chain.minimum)) = true
  | .ok (.verified e) => chain.block proofBytes = some e.block ∧ e.verifiedAt = now ∧
    e.confirmations + e.blockHeight = tip + 1 ∧ chain.minimum ≤ e.confirmations
  | .error e => e ≠ .evidenceInvalid

/-- A valid proof, or no answer at all. -/
def ValidCalendar (s : Services) (digest : ManifestDigest) : Except CalendarError Bytes → Prop
  | .ok proofBytes => validateExactProof s.platform digest proofBytes none = true
  | .error e => e = .unavailable

def HonestAnswer (s : Services) (chain : Chain) (env : Env) : Request → Prop
  | .stampExactDigest digest =>
    ValidCalendar s digest (env.stamp.map PendingProof.proofBytes)
  | .upgradeExactDigest digest _ => ValidCalendar s digest env.upgrade
  | .verifyExactDigest _ proofBytes => chain.Answers env.now env.tip proofBytes env.verify
  | _ => True

/-- Clock and chain go forward, calendars give valid proofs or nothing, and verifications are
those of the chain. -/
structure Honest (s : Services) (chain : Chain) (env : Env) (q : Request) (w : World) : Prop where
  clock : w.clock ≤ env.now
  tip : w.tip ≤ env.tip
  answer : HonestAnswer s chain env q

/-! ## Steps that disturb a run -/

/-- The latest version has a verification and an observation. -/
def complete (r : OrderRecord) : Bool :=
  r.latestProof.any fun latest =>
    (r.verification latest.version).isSome && (r.latestObservation latest.version).isSome

def conflicts (proof : StoredProof Instant) (r : OrderRecord) : Bool :=
  match FulfillmentAdapters.append proof r with
  | .error _ => true
  | .ok _ => false

/-- When the attempt was given out. -/
def started (job : ClaimedJob) : Instant := job.leaseUntil - leaseFor

/-- What the runs that share an order must not do to each other. The holder of a lease never
finds its version taken by another proof; no version is added to a verified order; an
order becomes verified only when its latest version is verified and observed, unless the
trigger refuses; a stamp job that starts finds the order not yet past stamping; no job uses
up its attempts; and when a delivery reads the verification, the latest observation is
older than its attempt. -/
def Undisturbed (s : Services) (tag : Option ClaimedJob) (w : World) : Request → Prop
  | .append proof =>
    (Inserts proof w.record → ¬Verified w.record) ∧
      ∀ job ∈ tag, Holds job w.record.tables → conflicts proof w.record = false
  | .transitionFulfillmentOnce target key _ =>
    (target = .bitcoinVerified → complete w.record = true ∨
        s.platform.databaseGuard = true ∧ latestVerified w.record = false) ∧
      ∀ job ∈ tag,
        (target = .manualReview → job.attempt < job.spec.maxAttempts) ∧
          (key = .stampStart → Holds job w.record.tables →
            (w.record.stateEvent .stampStart).isSome = true →
              w.record.order.fulfillmentState.rank ≤ FulfillmentState.stamping.rank)
  | .getVerified version =>
    ∀ job ∈ tag, job.spec.kind = .deliverTimestamp → Holds job w.record.tables →
      ∀ o ∈ w.record.latestObservation version, o.createdAt < started job
  | _ => True

instance (chain : Chain) (now : Instant) (tip : Nat) (proofBytes : Bytes) :
    (answer : Except VerifierError (BitcoinVerification Instant)) →
      Decidable (chain.Answers now tip proofBytes answer)
  | .ok (.unverified _ _) => inferInstanceAs (Decidable (_ = true))
  | .ok (.verified _) => instDecidableAnd
  | .error _ => inferInstanceAs (Decidable (_ ≠ _))

instance (s : Services) (digest : ManifestDigest) :
    (answer : Except CalendarError Bytes) → Decidable (ValidCalendar s digest answer)
  | .ok _ => inferInstanceAs (Decidable (_ = true))
  | .error _ => inferInstanceAs (Decidable (_ = _))

instance (s : Services) (chain : Chain) (env : Env) :
    (q : Request) → Decidable (HonestAnswer s chain env q)
  | .stampExactDigest digest =>
    inferInstanceAs (Decidable (ValidCalendar s digest (env.stamp.map PendingProof.proofBytes)))
  | .upgradeExactDigest digest _ =>
    inferInstanceAs (Decidable (ValidCalendar s digest env.upgrade))
  | .verifyExactDigest _ proofBytes =>
    inferInstanceAs (Decidable (chain.Answers env.now env.tip proofBytes env.verify))
  | .getForFulfillment | .latest | .transitionFulfillmentOnce _ _ _ | .append _
  | .putVerifiedOnce _ _ | .getVerified _ | .recordOnce _ _ _ | .latestObservation _
  | .putOnce _ _ | .enqueue _ | .now | .enqueueOnce _ _ | .dispatchDue _ _ | .createTask _ _
  | .recordDispatched _ _ | .recordDispatchFailure _ _ | .heartbeat _ _ | .retryAt _
  | .finish _ _ _ _ _ => .isTrue trivial

instance (s : Services) (chain : Chain) (env : Env) (q : Request) (w : World) :
    Decidable (Honest s chain env q w) :=
  decidable_of_iff (w.clock ≤ env.now ∧ w.tip ≤ env.tip ∧ HonestAnswer s chain env q)
    ⟨fun h => ⟨h.1, h.2.1, h.2.2⟩, fun h => ⟨h.clock, h.tip, h.answer⟩⟩

instance (s : Services) (tag : Option ClaimedJob) (w : World) :
    (q : Request) → Decidable (Undisturbed s tag w q)
  | .append _ => instDecidableAnd
  | .transitionFulfillmentOnce _ _ _ => instDecidableAnd
  | .getVerified _ => inferInstanceAs (Decidable (∀ job ∈ tag, _))
  | .getForFulfillment | .latest | .stampExactDigest _ | .upgradeExactDigest _ _
  | .verifyExactDigest _ _ | .putVerifiedOnce _ _ | .recordOnce _ _ _ | .latestObservation _
  | .putOnce _ _ | .enqueue _ | .now | .enqueueOnce _ _ | .dispatchDue _ _ | .createTask _ _
  | .recordDispatched _ _ | .recordDispatchFailure _ _ | .heartbeat _ _ | .retryAt _
  | .finish _ _ _ _ _ => .isTrue trivial

/-! ## What stays true -/

def JobFits (state : FulfillmentState) : JobKind → Prop
  | .stampManifestDigest => True
  | .upgradeTimestamp => FulfillmentState.calendarPending.rank ≤ state.rank
  | .deliverTimestamp => FulfillmentState.bitcoinVerified.rank ≤ state.rank
  | .monitorBitcoinConfirmations => FulfillmentState.bitcoinVerified.rank ≤ state.rank
  | .unknown _ => False

/-- A version whose stored bytes pass the checks that every handler repeats. -/
structure Sound (s : Services) (order : Order) (p : ProofVersion) : Prop where
  target : p.targetDigest = order.snapshot.manifestDigest
  valid : validateExactProof s.platform order.snapshot.manifestDigest p.proofBytes
    (some p.proofSha256) = true
  submitted : order.calendarSubmittedAt = some p.calendarSubmittedAt
  bare : p.verificationMetadata = none

/-- The version holds bytes that commit to the block, and the chain has confirmed it. -/
structure Commits (chain : Chain) (w : World) (version : Nat) (b : BlockEvidence Instant) : Prop
    where
  bytes : ∃ p ∈ w.record.proofs, p.version = version ∧ chain.block p.proofBytes = some b
  confirmed : b.blockHeight + chain.minimum ≤ w.tip + 1

def observedBlock (o : Observation) (b : BlockEvidence Instant) : Prop :=
  o.blockHeight = b.blockHeight ∧ o.blockHash = b.blockHash ∧ o.method = b.method ∧
    o.confirmationPolicy = b.confirmationPolicy

structure Healthy (s : Services) (chain : Chain) (w : World) : Prop where
  paid : w.record.order.paymentState = .paid
  begun : FulfillmentState.queued.rank ≤ w.record.order.fulfillmentState.rank
  accepted : w.record.order.fulfillmentState ≠ .manualReview
  events : ∀ e ∈ w.record.stateEvents,
    e.fulfillmentState.rank ≤ w.record.order.fulfillmentState.rank
  versions : w.record.proofs.Pairwise (fun p q => p.version < q.version)
  sound : ∀ p ∈ w.record.proofs, Sound s w.record.order p
  pending : FulfillmentState.calendarPending.rank ≤ w.record.order.fulfillmentState.rank →
    w.record.proofs ≠ []
  verified : ∀ v ∈ w.record.verifications,
    Commits chain w v.proofVersion v.block ∧ v.verifiedAt ≤ w.clock
  observed : ∀ o ∈ w.record.observations, ∃ b, Commits chain w o.proofVersion b ∧
    observedBlock o b ∧ o.observedConfirmations + b.blockHeight ≤ w.tip + 1
  identified : (w.record.observations.map Observation.id).Nodup
  complete : FulfillmentState.bitcoinVerified.rank ≤ w.record.order.fulfillmentState.rank →
    HonestRecords.complete w.record = true
  unique : (w.record.tables.jobs.map DurableJob.id).Nodup
  jobs : ∀ job ∈ w.record.tables.jobs, JobFits w.record.order.fulfillmentState job.kind

/-- How the world moves on. -/
structure Later (w w' : World) : Prop where
  clock : w.clock ≤ w'.clock
  tip : w.tip ≤ w'.tip
  id : w'.record.order.id = w.record.order.id
  snapshot : w'.record.order.snapshot = w.record.order.snapshot
  progress : w.record.order.fulfillmentState.rank ≤ w'.record.order.fulfillmentState.rank
  submitted : ∀ time, w.record.order.calendarSubmittedAt = some time →
    w'.record.order.calendarSubmittedAt = some time
  proofs : w.record.proofs <+: w'.record.proofs
  verifications : w.record.verifications <+: w'.record.verifications
  observations : ∃ more, w'.record.observations = w.record.observations ++ more ∧
    ∀ o ∈ more, w.clock ≤ o.createdAt
  jobs : RowsContinue w.record.tables w'.record.tables

lemma later_refl (w : World) : Later w w :=
  ⟨le_rfl, le_rfl, rfl, rfl, le_rfl, fun _ h => h, List.prefix_rfl, List.prefix_rfl,
    ⟨[], (List.append_nil _).symm, fun _ none => absurd none List.not_mem_nil⟩,
    rowsContinue_refl _⟩

lemma Later.trans {a b c : World} (first : Later a b) (second : Later b c) : Later a c := by
  obtain ⟨more, observed, recent⟩ := first.observations
  obtain ⟨more', observed', recent'⟩ := second.observations
  refine ⟨first.clock.trans second.clock, first.tip.trans second.tip, second.id.trans first.id,
    second.snapshot.trans first.snapshot, first.progress.trans second.progress,
    fun time h => second.submitted time (first.submitted time h),
    first.proofs.trans second.proofs, first.verifications.trans second.verifications,
    ⟨more ++ more', ?_, ?_⟩, first.jobs.trans second.jobs⟩
  · rw [observed', observed, List.append_assoc]
  · intro o member
    rcases List.mem_append.1 member with early | late
    · exact recent o early
    · exact first.clock.trans (recent' o late)

/-! ## Rows -/

lemma state_of_rank {state : FulfillmentState}
    (reached : FulfillmentState.bitcoinVerified.rank ≤ state.rank)
    (accepted : state ≠ .manualReview) : state = .bitcoinVerified ∨ state = .delivered := by
  revert reached accepted
  cases state <;> decide

section
variable {s : Services} {chain : Chain} {w w' : World} {r : OrderRecord}

lemma verification_later (later : Later w w') {version : Nat} {v : ProofVerification}
    (found : w.record.verification version = some v) :
    w'.record.verification version = some v := later.verifications.find?_eq_some found

lemma latest_mem {p : ProofVersion} (latest : r.latestProof = some p) : p ∈ r.proofs :=
  List.argmax_mem latest

lemma version_unique (healthy : Healthy s chain w) {p q : ProofVersion}
    (hp : p ∈ w.record.proofs) (hq : q ∈ w.record.proofs) (same : p.version = q.version) :
    p = q := by
  by_contra different
  have ordered := List.pairwise_iff_getElem.1 healthy.versions
  obtain ⟨i, hi, rfl⟩ := List.getElem_of_mem hp
  obtain ⟨j, hj, rfl⟩ := List.getElem_of_mem hq
  rcases Nat.lt_trichotomy i j with before | rfl | after
  · have := ordered i j hi hj before
    omega
  · exact different rfl
  · have := ordered j i hj hi after
    omega

lemma mem_of_latestObservation {version : Nat} {o : Observation}
    (latest : r.latestObservation version = some o) :
    o ∈ r.observations ∧ o.proofVersion = version := by
  have member := List.argmax_mem latest
  simpa using member

lemma latestObservation_isSome {version : Nat} :
    (r.latestObservation version).isSome = true ↔
      ∃ o ∈ r.observations, o.proofVersion = version := by
  rw [← Option.ne_none_iff_isSome, OrderRecord.latestObservation, Ne, List.argmax_eq_none,
    List.filter_eq_nil_iff]
  simp

lemma complete_iff : complete r = true ↔ ∃ latest v, r.latestProof = some latest ∧
    r.verification latest.version = some v ∧
      ∃ o ∈ r.observations, o.proofVersion = latest.version := by
  rw [complete, Option.any_eq_true]
  constructor
  · rintro ⟨latest, found, evidence⟩
    rw [Bool.and_eq_true, latestObservation_isSome, Option.isSome_iff_exists] at evidence
    obtain ⟨⟨v, verified⟩, observed⟩ := evidence
    exact ⟨latest, v, found, verified, observed⟩
  · rintro ⟨latest, v, found, verified, observed⟩
    refine ⟨latest, found, ?_⟩
    rw [Bool.and_eq_true, latestObservation_isSome, Option.isSome_iff_exists]
    exact ⟨⟨v, verified⟩, observed⟩

lemma complete_of_rows {r' : OrderRecord} (proofs : r'.proofs = r.proofs)
    (verifications : r.verifications <+: r'.verifications)
    (observations : r.observations <+: r'.observations) (held : complete r = true) :
    complete r' = true := by
  obtain ⟨latest, v, found, verified, o, member, same⟩ := complete_iff.1 held
  refine complete_iff.2 ⟨latest, v, ?_, verifications.find?_eq_some verified, o,
    observations.subset member, same⟩
  rw [OrderRecord.latestProof, proofs]
  exact found

lemma commits_later (later : Later w w') {version : Nat} {b : BlockEvidence Instant}
    (commits : Commits chain w version b) : Commits chain w' version b := by
  obtain ⟨p, member, same, block⟩ := commits.bytes
  exact ⟨⟨p, later.proofs.subset member, same, block⟩,
    commits.confirmed.trans (Nat.succ_le_succ later.tip)⟩

lemma sound_of_order {order order' : Order} {p : ProofVersion} (sound : Sound s order p)
    (snapshot : order'.snapshot = order.snapshot)
    (submitted : ∀ time, order.calendarSubmittedAt = some time →
      order'.calendarSubmittedAt = some time) : Sound s order' p :=
  ⟨by rw [snapshot]; exact sound.target, by rw [snapshot]; exact sound.valid,
    submitted _ sound.submitted, sound.bare⟩

lemma jobFits_mono {before after : FulfillmentState} (progress : before.rank ≤ after.rank)
    {kind : JobKind} (fits : JobFits before kind) : JobFits after kind := by
  cases kind with
  | stampManifestDigest => trivial
  | upgradeTimestamp => exact Nat.le_trans fits progress
  | deliverTimestamp => exact Nat.le_trans fits progress
  | monitorBitcoinConfirmations => exact Nat.le_trans fits progress
  | unknown _ => exact fits

/-! ## One step -/

variable {now : Instant} {tip : Nat} {r' : OrderRecord}

/-- The world after a step that changes nothing the runs rely on. -/
structure Quiet (r r' : OrderRecord) : Prop where
  order : r'.order = r.order
  proofs : r'.proofs = r.proofs
  verifications : r'.verifications = r.verifications
  observations : r'.observations = r.observations
  stateEvents : r'.stateEvents = r.stateEvents
  tables : Carries r.tables r'.tables

lemma quiet_refl (r : OrderRecord) : Quiet r r := ⟨rfl, rfl, rfl, rfl, rfl, carries_refl _⟩

lemma later_of_quiet (clock : w.clock ≤ now) (higher : w.tip ≤ tip) (quiet : Quiet w.record r') :
    Later w ⟨r', now, tip⟩ := by
  refine ⟨clock, higher, ?_, ?_, ?_, ?_, ?_, ?_, ⟨[], ?_, ?_⟩, quiet.tables.rows⟩
  · rw [quiet.order]
  · rw [quiet.order]
  · rw [quiet.order]
  · rw [quiet.order]
    exact fun _ h => h
  · rw [quiet.proofs]
  · rw [quiet.verifications]
  · rw [quiet.observations, List.append_nil]
  · exact fun _ none => absurd none List.not_mem_nil

lemma healthy_of_quiet (healthy : Healthy s chain w) (clock : w.clock ≤ now) (higher : w.tip ≤ tip)
    (quiet : Quiet w.record r') : Healthy s chain ⟨r', now, tip⟩ := by
  have later := later_of_quiet clock higher quiet
  constructor
  · simpa only [quiet.order] using healthy.paid
  · simpa only [quiet.order] using healthy.begun
  · simpa only [quiet.order] using healthy.accepted
  · simpa only [quiet.order, quiet.stateEvents] using healthy.events
  · simpa only [quiet.proofs] using healthy.versions
  · simpa only [quiet.order, quiet.proofs] using healthy.sound
  · simpa only [quiet.order, quiet.proofs] using healthy.pending
  · intro v member
    obtain ⟨commits, earlier⟩ := healthy.verified v (quiet.verifications ▸ member)
    exact ⟨commits_later later commits, earlier.trans clock⟩
  · intro o member
    obtain ⟨b, commits, names, count⟩ := healthy.observed o (quiet.observations ▸ member)
    exact ⟨b, commits_later later commits, names, count.trans (Nat.succ_le_succ higher)⟩
  · simpa only [quiet.observations] using healthy.identified
  · intro verified
    refine complete_of_rows quiet.proofs (quiet.verifications ▸ List.prefix_rfl)
      (quiet.observations ▸ List.prefix_rfl) (healthy.complete ?_)
    simpa only [quiet.order] using verified
  · simpa only [quiet.tables.ids] using healthy.unique
  · intro job member
    obtain ⟨row, before, kind⟩ := quiet.tables.kinds job member
    rw [kind]
    simpa only [quiet.order] using healthy.jobs row before

/-- The order moves on along its states, with the evidence its new state needs. -/
structure OrderMoves (r r' : OrderRecord) : Prop where
  id : r'.order.id = r.order.id
  snapshot : r'.order.snapshot = r.order.snapshot
  payment : r'.order.paymentState = r.order.paymentState
  progress : r.order.fulfillmentState.rank ≤ r'.order.fulfillmentState.rank
  accepted : r'.order.fulfillmentState ≠ .manualReview
  submitted : ∀ time, r.order.calendarSubmittedAt = some time →
    r'.order.calendarSubmittedAt = some time
  events : ∀ e ∈ r'.stateEvents, e ∈ r.stateEvents ∨ e.fulfillmentState = r'.order.fulfillmentState
  pending : FulfillmentState.calendarPending.rank ≤ r'.order.fulfillmentState.rank → r.proofs ≠ []
  complete : FulfillmentState.bitcoinVerified.rank ≤ r'.order.fulfillmentState.rank →
    HonestRecords.complete r = true
  proofs : r'.proofs = r.proofs
  verifications : r'.verifications = r.verifications
  observations : r'.observations = r.observations
  tables : r'.tables = r.tables

lemma later_of_moves (clock : w.clock ≤ now) (higher : w.tip ≤ tip)
    (moves : OrderMoves w.record r') : Later w ⟨r', now, tip⟩ := by
  refine ⟨clock, higher, moves.id, moves.snapshot, moves.progress, moves.submitted, ?_, ?_,
    ⟨[], ?_, ?_⟩, ?_⟩
  · rw [moves.proofs]
  · rw [moves.verifications]
  · rw [moves.observations, List.append_nil]
  · exact fun _ none => absurd none List.not_mem_nil
  · rw [moves.tables]
    exact rowsContinue_refl _

lemma healthy_of_moves (healthy : Healthy s chain w) (clock : w.clock ≤ now) (higher : w.tip ≤ tip)
    (moves : OrderMoves w.record r') : Healthy s chain ⟨r', now, tip⟩ := by
  have later := later_of_moves clock higher moves
  constructor
  · exact moves.payment.trans healthy.paid
  · exact healthy.begun.trans moves.progress
  · exact moves.accepted
  · intro e member
    rcases moves.events e member with old | new
    · exact (healthy.events e old).trans moves.progress
    · rw [new]
  · simpa only [moves.proofs] using healthy.versions
  · intro p member
    exact sound_of_order (healthy.sound p (moves.proofs ▸ member)) moves.snapshot moves.submitted
  · simpa only [moves.proofs] using moves.pending
  · intro v member
    obtain ⟨commits, earlier⟩ := healthy.verified v (moves.verifications ▸ member)
    exact ⟨commits_later later commits, earlier.trans clock⟩
  · intro o member
    obtain ⟨b, commits, names, count⟩ := healthy.observed o (moves.observations ▸ member)
    exact ⟨b, commits_later later commits, names, count.trans (Nat.succ_le_succ higher)⟩
  · simpa only [moves.observations] using healthy.identified
  · intro verified
    exact complete_of_rows moves.proofs (moves.verifications ▸ List.prefix_rfl)
      (moves.observations ▸ List.prefix_rfl) (moves.complete verified)
  · simpa only [moves.tables] using healthy.unique
  · intro job member
    exact jobFits_mono moves.progress (healthy.jobs job (moves.tables ▸ member))

lemma submitted_of_merge {order order' : Order} {supplied : Option Instant}
    (merged : mergeCalendarTime order supplied = .ok order') (time : Instant)
    (known : order.calendarSubmittedAt = some time) : order'.calendarSubmittedAt = some time := by
  rw [(mergeCalendarTime_ok merged).1, known, Option.some_or]

/-- An order with a proof has its submission time, and merging leaves it alone. -/
lemma merge_same (healthy : Healthy s chain w) (stored : w.record.proofs ≠ []) {order : Order}
    {supplied : Option Instant}
    (merged : mergeCalendarTime w.record.order supplied = .ok order) : order = w.record.order := by
  obtain ⟨p, member⟩ := List.exists_mem_of_ne_nil _ stored
  rw [(mergeCalendarTime_ok merged).1, (healthy.sound p member).submitted, Option.some_or,
    ← (healthy.sound p member).submitted]

/-- What a run has to know about a request for it to keep the record healthy. -/
def Grounded (s : Services) (chain : Chain) (w : World) : Request → Prop
  | .append proof => proof.targetDigest = w.record.order.snapshot.manifestDigest ∧
    validateExactProof s.platform w.record.order.snapshot.manifestDigest proof.proofBytes
      (some proof.proofSha256) = true ∧ proof.verification = none
  | .transitionFulfillmentOnce target _ _ => target ≠ .manualReview ∧
    (FulfillmentState.calendarPending.rank ≤ target.rank → w.record.proofs ≠ []) ∧
    (target = .delivered → target.rank ≤ w.record.order.fulfillmentState.rank)
  | .putVerifiedOnce version result => ∀ e, result = .verified e →
    Commits chain w version e.block ∧ e.verifiedAt ≤ w.clock
  | .recordOnce version _ result => ∀ e, result = .verified e →
    Commits chain w version e.block ∧ e.confirmations + e.blockHeight ≤ w.tip + 1
  | .enqueueOnce spec _ => JobFits w.record.order.fulfillmentState spec.kind
  | _ => True

lemma append_moves (healthy : Healthy s chain w) (clock : w.clock ≤ now) (higher : w.tip ≤ tip)
    {proof : StoredProof Instant} (appended : FulfillmentAdapters.append proof w.record = .ok r')
    (grounded : Grounded s chain w (.append proof))
    (early : Inserts proof w.record → ¬Verified w.record) :
    Healthy s chain ⟨r', now, tip⟩ ∧ Later w ⟨r', now, tip⟩ ∧ newVersion proof ∈ r'.proofs := by
  obtain ⟨order, merged, target, ⟨rfl, latest, found, same⟩ | ⟨rfl, inserts⟩⟩ := append_ok appended
  · have member := latest_mem found
    have unchanged := merge_same healthy (List.ne_nil_of_mem member) merged
    have quiet : Quiet w.record { w.record with order := order } :=
      ⟨unchanged, rfl, rfl, rfl, rfl, carries_refl _⟩
    refine ⟨healthy_of_quiet healthy clock higher quiet, later_of_quiet clock higher quiet, ?_⟩
    have equal : newVersion proof = latest := by
      rw [← same]
      rfl
    rw [equal]
    exact member
  · obtain ⟨digest, valid, bare⟩ := grounded
    have order_eq := (mergeCalendarTime_ok merged).1
    have known := (mergeCalendarTime_ok merged).2
    have state : order.fulfillmentState = w.record.order.fulfillmentState := by rw [order_eq]
    have payment : order.paymentState = w.record.order.paymentState := by rw [order_eq]
    have snapshot : order.snapshot = w.record.order.snapshot := by rw [order_eq]
    have unverified : ¬FulfillmentState.bitcoinVerified.rank ≤
        w.record.order.fulfillmentState.rank := by
      intro verified
      exact early inserts (state_of_rank verified healthy.accepted)
    have none_added : (proof.verification.map (newVerification proof.version)).toList = [] := by
      rw [bare]
      rfl
    have submitted : order.calendarSubmittedAt = some proof.calendarSubmittedAt := by
      rw [order_eq]
      cases time : w.record.order.calendarSubmittedAt with
      | none => rfl
      | some t =>
        have agrees := known t time
        simp only [Option.all_some, beq_iff_eq] at agrees
        rw [agrees]
        rfl
    have sound_new : Sound s order (newVersion proof) :=
      ⟨by rw [snapshot]; exact digest, by rw [snapshot]; exact valid, submitted, bare⟩
    have later : Later w ⟨insertProof proof { w.record with order := order }, now, tip⟩ := by
      refine ⟨clock, higher, by rw [insertProof, order_eq], snapshot, ?_, fun time =>
        submitted_of_merge merged time, List.prefix_append _ _, List.prefix_append _ _, ⟨[], ?_, ?_⟩,
        rowsContinue_refl _⟩
      · exact (congrArg FulfillmentState.rank state).ge
      · exact (List.append_nil _).symm
      · exact fun _ none => absurd none List.not_mem_nil
    refine ⟨?_, later, List.mem_append_right _ (List.mem_singleton.2 rfl)⟩
    constructor
    · exact payment.trans healthy.paid
    · simpa only [insertProof, state] using healthy.begun
    · simpa only [insertProof, state] using healthy.accepted
    · simpa only [insertProof, state] using healthy.events
    · refine List.pairwise_append.2 ⟨healthy.versions, List.pairwise_singleton _ _, ?_⟩
      intro p member q new
      cases List.mem_singleton.1 new
      rcases inserts with ⟨none, -⟩ | ⟨latest, found, next⟩
      · rw [OrderRecord.latestProof, List.argmax_eq_none] at none
        rw [none] at member
        exact absurd member List.not_mem_nil
      · have least := List.le_of_mem_argmax member found
        change p.version < proof.version
        omega
    · intro p member
      rcases List.mem_append.1 member with old | new
      · exact sound_of_order (healthy.sound p old) snapshot fun time =>
          submitted_of_merge merged time
      · cases List.mem_singleton.1 new
        exact sound_new
    · exact fun _ => List.append_ne_nil_of_right_ne_nil _ (List.cons_ne_nil _ _)
    · intro v member
      simp only [insertProof, none_added, List.append_nil] at member
      obtain ⟨commits, earlier⟩ := healthy.verified v member
      exact ⟨commits_later later commits, earlier.trans clock⟩
    · intro o member
      obtain ⟨b, commits, names, count⟩ := healthy.observed o member
      exact ⟨b, commits_later later commits, names, count.trans (Nat.succ_le_succ higher)⟩
    · exact healthy.identified
    · intro verified
      simp only [insertProof, state] at verified
      exact absurd verified unverified
    · exact healthy.unique
    · simpa only [insertProof, state] using healthy.jobs

lemma transition_moves (healthy : Healthy s chain w) (clock : w.clock ≤ now)
    (higher : w.tip ≤ tip) {target : FulfillmentState} {key : EventKey} {time : Option Instant}
    {result : FulfillmentOrder}
    (moved : transitionFulfillmentOnce s.platform target key time now w.record = .ok (result, r'))
    (grounded : Grounded s chain w (.transitionFulfillmentOnce target key time))
    (evidence : target = .bitcoinVerified → HonestRecords.complete w.record = true ∨
      s.platform.databaseGuard = true ∧ latestVerified w.record = false) :
    Healthy s chain ⟨r', now, tip⟩ ∧ Later w ⟨r', now, tip⟩ ∧ result = fulfillmentOrder r'.order ∧
      target.rank ≤ r'.order.fulfillmentState.rank ∧
      ((w.record.stateEvent key).isSome = false → r'.order.fulfillmentState = target) := by
  obtain ⟨accepted, pending, delivered⟩ := grounded
  obtain ⟨answer, merged, merge, ⟨rfl, event, known, same⟩ | ⟨new, edge, -, -, rfl, guard⟩⟩ :=
    transitionFulfillmentOnce_ok moved
  · have state : merged.fulfillmentState = w.record.order.fulfillmentState := by
      rw [(mergeCalendarTime_ok merge).1]
    have moves : OrderMoves w.record { w.record with order := merged } := by
      refine ⟨by rw [(mergeCalendarTime_ok merge).1], by rw [(mergeCalendarTime_ok merge).1],
        by rw [(mergeCalendarTime_ok merge).1], (congrArg FulfillmentState.rank state).ge, ?_,
        submitted_of_merge merge, fun e member => Or.inl member, ?_, ?_, rfl, rfl, rfl, rfl⟩
      · exact fun review => healthy.accepted (state.symm.trans review)
      · exact fun reached => healthy.pending (state ▸ reached)
      · exact fun reached => healthy.complete (state ▸ reached)
    have recorded := healthy.events event (List.mem_of_find?_eq_some known)
    refine ⟨healthy_of_moves healthy clock higher moves, later_of_moves clock higher moves, answer,
      ?_, ?_⟩
    · rw [same] at recorded
      exact recorded.trans moves.progress
    · rw [known]
      exact fun missing => Bool.noConfusion missing
  · have progress := rank_le_of_edge edge
    have kept := submitted_of_merge merge
    have moves : OrderMoves w.record { w.record with
        order := { merged with fulfillmentState := target }
        stateEvents := w.record.stateEvents ++ [newStateEvent w.record key .fulfillmentWorker
          { merged with fulfillmentState := target } now] } := by
      refine ⟨by rw [(mergeCalendarTime_ok merge).1], by rw [(mergeCalendarTime_ok merge).1],
        by rw [(mergeCalendarTime_ok merge).1], progress, accepted, kept, ?_, pending, ?_, rfl, rfl,
        rfl, rfl⟩
      · intro e member
        rcases List.mem_append.1 member with old | latest
        · exact Or.inl old
        · cases List.mem_singleton.1 latest
          exact Or.inr rfl
      · intro reached
        by_cases verified : FulfillmentState.bitcoinVerified.rank ≤
            w.record.order.fulfillmentState.rank
        · exact healthy.complete verified
        · have first : target = .bitcoinVerified := by
            refine (state_of_rank reached accepted).resolve_right fun last => verified ?_
            have known : target = .delivered := last
            have further := delivered known
            rw [known] at further
            exact Nat.le_trans (by decide) further
          rcases evidence first with held | ⟨guarded, unverified⟩
          · exact held
          · have passes := guard guarded
            subst first
            have changes : w.record.order.fulfillmentState ≠ .bitcoinVerified := by
              intro already
              rw [already] at verified
              exact verified le_rfl
            simp only [enforceOrderStateTransition, Bool.and_eq_true, Bool.or_eq_true, beq_iff_eq,
              changes, false_or, bne_iff_ne, ne_eq, not_true_eq_false] at passes
            exact absurd (passes.1.2.1.2) (by
              simpa [latestVerified, OrderRecord.latestProof, OrderRecord.verification] using
                unverified)
    exact ⟨healthy_of_moves healthy clock higher moves, later_of_moves clock higher moves, answer,
      le_rfl, fun _ => rfl⟩

lemma verified_moves (healthy : Healthy s chain w) (clock : w.clock ≤ now) (higher : w.tip ≤ tip)
    {version : Nat} {result : BitcoinVerification Instant}
    (put : putVerifiedOnce version result w.record = .ok r')
    (grounded : Grounded s chain w (.putVerifiedOnce version result)) :
    Healthy s chain ⟨r', now, tip⟩ ∧ Later w ⟨r', now, tip⟩ := by
  obtain ⟨e, proof, rfl, -, -, -, ⟨rfl, -⟩ | ⟨-, rfl⟩⟩ := putVerifiedOnce_ok put
  · exact ⟨healthy_of_quiet healthy clock higher (quiet_refl _),
      later_of_quiet clock higher (quiet_refl _)⟩
  · obtain ⟨commits, recent⟩ := grounded e rfl
    have later : Later w ⟨{ w.record with
        verifications := w.record.verifications ++ [newVerification version e] }, now, tip⟩ :=
      ⟨clock, higher, rfl, rfl, le_rfl, fun _ h => h, List.prefix_rfl, List.prefix_append _ _,
        ⟨[], (List.append_nil _).symm, fun _ none => absurd none List.not_mem_nil⟩,
        rowsContinue_refl _⟩
    refine ⟨?_, later⟩
    refine ⟨healthy.paid, healthy.begun, healthy.accepted, healthy.events, healthy.versions,
      healthy.sound, healthy.pending, ?_, ?_, healthy.identified, ?_, healthy.unique, healthy.jobs⟩
    · intro v member
      rcases List.mem_append.1 member with old | new
      · obtain ⟨earlier, before⟩ := healthy.verified v old
        exact ⟨commits_later later earlier, before.trans clock⟩
      · cases List.mem_singleton.1 new
        exact ⟨commits_later later commits, recent.trans clock⟩
    · intro o member
      obtain ⟨b, earlier, names, count⟩ := healthy.observed o member
      exact ⟨b, commits_later later earlier, names, count.trans (Nat.succ_le_succ higher)⟩
    · exact fun verified => complete_of_rows (r := w.record) rfl (List.prefix_append _ _)
        List.prefix_rfl (healthy.complete verified)

lemma observed_moves (healthy : Healthy s chain w) (clock : w.clock ≤ now) (higher : w.tip ≤ tip)
    {version freshId : Nat} {key : ObservationKey} {result : BitcoinVerification Instant}
    {o : Observation} (recorded : recordOnce version key result now freshId w.record = .ok (o, r'))
    (grounded : Grounded s chain w (.recordOnce version key result)) :
    Healthy s chain ⟨r', now, tip⟩ ∧ Later w ⟨r', now, tip⟩ := by
  obtain ⟨e, proof, v, rfl, -, -, -, -, ⟨rfl, -⟩ | ⟨-, fresh, rfl, rfl⟩⟩ := recordOnce_ok recorded
  · exact ⟨healthy_of_quiet healthy clock higher (quiet_refl _),
      later_of_quiet clock higher (quiet_refl _)⟩
  · obtain ⟨commits, count⟩ := grounded e rfl
    have later : Later w ⟨{ w.record with
        observations := w.record.observations ++ [newObservation freshId version key e now] },
        now, tip⟩ := by
      refine ⟨clock, higher, rfl, rfl, le_rfl, fun _ h => h, List.prefix_rfl, List.prefix_rfl,
        ⟨_, rfl, fun other member => ?_⟩, rowsContinue_refl _⟩
      cases List.mem_singleton.1 member
      exact clock
    refine ⟨?_, later⟩
    refine ⟨healthy.paid, healthy.begun, healthy.accepted, healthy.events, healthy.versions,
      healthy.sound, healthy.pending, ?_, ?_, ?_, ?_, healthy.unique, healthy.jobs⟩
    · intro v member
      obtain ⟨earlier, before⟩ := healthy.verified v member
      exact ⟨commits_later later earlier, before.trans clock⟩
    · intro other member
      rcases List.mem_append.1 member with old | new
      · obtain ⟨b, earlier, names, before⟩ := healthy.observed other old
        exact ⟨b, commits_later later earlier, names, before.trans (Nat.succ_le_succ higher)⟩
      · cases List.mem_singleton.1 new
        exact ⟨e.block, commits_later later commits, ⟨rfl, rfl, rfl, rfl⟩,
          count.trans (Nat.succ_le_succ higher)⟩
    · rw [List.map_append, List.nodup_append]
      refine ⟨healthy.identified, List.nodup_singleton _, ?_⟩
      intro x old y new
      obtain ⟨other, member, rfl⟩ := List.mem_map.1 old
      rw [List.map_singleton, List.mem_singleton] at new
      rw [new]
      exact fresh other member
    · exact fun verified => complete_of_rows (r := w.record) rfl List.prefix_rfl
        (List.prefix_append _ _) (healthy.complete verified)

lemma enqueued_moves (healthy : Healthy s chain w) (clock : w.clock ≤ now) (higher : w.tip ≤ tip)
    {spec : JobSpec} {availableAt : Instant} {freshId : Nat}
    (grounded : Grounded s chain w (.enqueueOnce spec availableAt)) :
    Healthy s chain ⟨{ w.record with
        tables := (enqueueOnce spec availableAt now freshId w.record.tables).2 }, now, tip⟩ ∧
      Later w ⟨{ w.record with
        tables := (enqueueOnce spec availableAt now freshId w.record.tables).2 }, now, tip⟩ := by
  obtain ⟨rows, unique, kinds⟩ := rows_enqueueOnce spec availableAt now freshId w.record.tables
  have later : Later w ⟨{ w.record with
      tables := (enqueueOnce spec availableAt now freshId w.record.tables).2 }, now, tip⟩ :=
    ⟨clock, higher, rfl, rfl, le_rfl, fun _ h => h, List.prefix_rfl, List.prefix_rfl,
      ⟨[], (List.append_nil _).symm, fun _ none => absurd none List.not_mem_nil⟩, rows⟩
  refine ⟨?_, later⟩
  refine ⟨healthy.paid, healthy.begun, healthy.accepted, healthy.events, healthy.versions,
    healthy.sound, healthy.pending, ?_, ?_, healthy.identified, healthy.complete,
    unique healthy.unique, ?_⟩
  · intro v member
    obtain ⟨earlier, before⟩ := healthy.verified v member
    exact ⟨commits_later later earlier, before.trans clock⟩
  · intro o member
    obtain ⟨b, earlier, names, count⟩ := healthy.observed o member
    exact ⟨b, commits_later later earlier, names, count.trans (Nat.succ_le_succ higher)⟩
  · intro job member
    rcases kinds job member with old | new
    · exact healthy.jobs job old
    · rw [new]
      exact grounded

/-- One request, under the conditions on it: the record stays healthy and the world moves on. -/
lemma perform_moves (healthy : Healthy s chain w) {tag : Option ClaimedJob} {env : Env}
    {q : Request} (honest : Honest s chain env q w) (undisturbed : Undisturbed s tag w q)
    (grounded : Grounded s chain w q) :
    Healthy s chain (perform s env q w).2 ∧ Later w (perform s env q w).2 := by
  have clock := honest.clock
  have higher := honest.tip
  have still : ∀ r', Quiet w.record r' →
      Healthy s chain ⟨r', env.now, env.tip⟩ ∧ Later w ⟨r', env.now, env.tip⟩ :=
    fun r' quiet => ⟨healthy_of_quiet healthy clock higher quiet, later_of_quiet clock higher quiet⟩
  have tables : ∀ t, Carries w.record.tables t → Quiet w.record { w.record with tables := t } :=
    fun t carries => ⟨rfl, rfl, rfl, rfl, rfl, carries⟩
  cases q with
  | transitionFulfillmentOnce target key time =>
    cases moved : transitionFulfillmentOnce s.platform target key time env.now w.record with
    | error e =>
      simp only [perform, answer, moved, commit]
      exact still _ (quiet_refl _)
    | ok result =>
      simp only [perform, answer, moved, commit]
      obtain ⟨after, moves, -⟩ := transition_moves healthy clock higher moved grounded undisturbed.1
      exact ⟨after, moves⟩
  | append proof =>
    cases appended : FulfillmentAdapters.append proof w.record with
    | error e =>
      simp only [perform, answer, appended, commitUnit]
      exact still _ (quiet_refl _)
    | ok r' =>
      simp only [perform, answer, appended, commitUnit]
      obtain ⟨after, moves, -⟩ := append_moves healthy clock higher appended grounded undisturbed.1
      exact ⟨after, moves⟩
  | putVerifiedOnce version result =>
    cases put : putVerifiedOnce version result w.record with
    | error e =>
      simp only [perform, answer, put, commitUnit]
      exact still _ (quiet_refl _)
    | ok r' =>
      simp only [perform, answer, put, commitUnit]
      exact verified_moves healthy clock higher put grounded
  | recordOnce version key result =>
    cases recorded : recordOnce version key result env.now env.freshId w.record with
    | error e =>
      simp only [perform, answer, recorded, commit]
      exact still _ (quiet_refl _)
    | ok pair =>
      simp only [perform, answer, recorded, commit]
      exact observed_moves healthy clock higher recorded grounded
  | putOnce version bundle =>
    cases put : putOnce s.platform version bundle w.record with
    | error e =>
      simp only [perform, answer, put, commitUnit]
      exact still _ (quiet_refl _)
    | ok r' =>
      simp only [perform, answer, put, commitUnit]
      obtain ⟨-, ⟨rfl, -⟩ | ⟨-, rfl⟩⟩ := putOnce_ok put
      · exact still _ (quiet_refl _)
      · exact still _ ⟨rfl, rfl, rfl, rfl, rfl, carries_refl _⟩
  | enqueue message =>
    cases queued : enqueue message env.now env.freshId w.record with
    | error e =>
      simp only [perform, answer, queued, commitUnit]
      exact still _ (quiet_refl _)
    | ok r' =>
      simp only [perform, answer, queued, commitUnit]
      obtain ⟨-, -, rfl | rfl⟩ := enqueue_ok queued
      · exact still _ (quiet_refl _)
      · exact still _ ⟨rfl, rfl, rfl, rfl, rfl, carries_refl _⟩
  | enqueueOnce spec availableAt => exact enqueued_moves healthy clock higher grounded
  | recordDispatched jobId generation =>
    exact still _ (tables _ (carries_recordDispatched _ _ _ _))
  | recordDispatchFailure jobId generation =>
    exact still _ (tables _ (carries_recordDispatchFailure _ _ _))
  | heartbeat job leaseUntil => exact still _ (tables _ (carries_heartbeat _ _ _ _ _))
  | finish job outcome now retryAt code =>
    cases filed : finish job outcome now retryAt code w.record.tables with
    | error message =>
      simp only [perform, answer, filed]
      exact still _ (quiet_refl _)
    | ok pair =>
      simp only [perform, answer, filed]
      exact still _ (tables _ (carries_finish filed))
  | getForFulfillment | latest | stampExactDigest | upgradeExactDigest | verifyExactDigest
  | getVerified | latestObservation | now | dispatchDue | createTask | retryAt =>
    exact still _ (quiet_refl _)

/-! ## Arrivals -/

lemma messages_step (healthy : Healthy s chain w) (clock : w.clock ≤ now) (higher : w.tip ≤ tip)
    (changed : OnlyMessages w.record r' ∨ Delivers s.platform w.record r') :
    Healthy s chain ⟨r', now, tip⟩ ∧ Later w ⟨r', now, tip⟩ := by
  rcases changed with messages | ⟨verified, -, svixEventId, at_, moved⟩
  · unfold OnlyMessages at messages
    have quiet : Quiet w.record r' := by
      rw [messages]
      exact ⟨rfl, rfl, rfl, rfl, rfl, carries_refl _⟩
    exact ⟨healthy_of_quiet healthy clock higher quiet, later_of_quiet clock higher quiet⟩
  · have moves : OrderMoves w.record r' := by
      rw [moved]
      refine ⟨rfl, rfl, rfl, ?_, fun review => FulfillmentState.noConfusion review, fun _ h => h, ?_,
        fun _ => healthy.pending ?_, fun _ => healthy.complete ?_, rfl, rfl, rfl, rfl⟩
      · rw [verified]
        change FulfillmentState.bitcoinVerified.rank ≤ FulfillmentState.delivered.rank
        decide
      · intro e member
        rcases List.mem_append.1 member with old | new
        · exact Or.inl old
        · cases List.mem_singleton.1 new
          exact Or.inr rfl
      · rw [verified]
        decide
      · rw [verified]
    exact ⟨healthy_of_moves healthy clock higher moves, later_of_moves clock higher moves⟩

lemma startJob_quiet (workerId : String) (now leaseFor : Int)
    {claimed : Option (ClaimedJob × JobTables)}
    (leases : ∀ c, claimed = some c → ∃ row ∈ r.tables.jobs,
      c = lease row workerId now leaseFor r.tables) : Quiet r (startJob s r claimed).1 := by
  cases claimed with
  | none => exact quiet_refl r
  | some c =>
    obtain ⟨row, -, rfl⟩ := leases c rfl
    exact ⟨rfl, rfl, rfl, rfl, rfl, carries_lease _ _ _ _ _⟩

/-- Every arrival keeps the record healthy. -/
lemma arrive_moves (healthy : Healthy s chain w) (clock : w.clock ≤ now) (higher : w.tip ≤ tip)
    (a : Arrival) :
    Healthy s chain ⟨(arriveRecord s now w.record a).1, now, tip⟩ ∧
      Later w ⟨(arriveRecord s now w.record a).1, now, tip⟩ := by
  have still : ∀ r', Quiet w.record r' →
      Healthy s chain ⟨r', now, tip⟩ ∧ Later w ⟨r', now, tip⟩ :=
    fun r' quiet => ⟨healthy_of_quiet healthy clock higher quiet, later_of_quiet clock higher quiet⟩
  have tables : ∀ t, Carries w.record.tables t → Quiet w.record { w.record with tables := t } :=
    fun t carries => ⟨rfl, rfl, rfl, rfl, rfl, carries⟩
  cases a with
  | claim workerId => exact still _ (startJob_quiet workerId now leaseFor fun _ => claim_leases)
  | claimSpecific jobId generation workerId =>
    cases claimed : claimSpecific jobId generation workerId now leaseFor w.record.tables with
    | error e =>
      simp only [arriveRecord, claimed]
      exact still _ (quiet_refl _)
    | ok c =>
      simp only [arriveRecord, claimed]
      refine still _ (startJob_quiet workerId now leaseFor fun found taken => ?_)
      rw [taken] at claimed
      exact claimSpecific_leases claimed
  | heartbeat job leaseUntil => exact still _ (tables _ (carries_heartbeat _ _ _ _ _))
  | operatorReplay jobId =>
    cases replayed : replay jobId now w.record.tables with
    | error e =>
      simp only [arriveRecord, replayed]
      exact still _ (quiet_refl _)
    | ok pair =>
      simp only [arriveRecord, replayed]
      exact still _ (tables _ (carries_replay replayed))
  | recoverStale staleGrace limit =>
    cases recovered : recoverStaleDispatched staleGrace limit now w.record.tables with
    | error e =>
      simp only [arriveRecord, recovered]
      exact still _ (quiet_refl _)
    | ok pair =>
      simp only [arriveRecord, recovered]
      exact still _ (tables _ (carries_recoverStale recovered))
  | resendEvent event payload =>
    cases done : processEvent s.platform event payload now w.record with
    | error e =>
      simp only [arriveRecord, done, commit]
      exact still _ (quiet_refl _)
    | ok result =>
      simp only [arriveRecord, done, commit]
      exact messages_step healthy clock higher (processEvent_ok done)
  | senderAccepted message acceptance =>
    cases done : recordAccepted s.platform message acceptance now w.record with
    | error e =>
      simp only [arriveRecord, done, commitUnit]
      exact still _ (quiet_refl _)
    | ok r' =>
      simp only [arriveRecord, done, commitUnit]
      exact messages_step healthy clock higher (recordAccepted_ok done)
  | operatorReverify | operatorUpgrade | reconcile => exact still _ (quiet_refl _)

end

end HonestRecords
