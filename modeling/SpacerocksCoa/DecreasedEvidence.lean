import SpacerocksCoa.VerifiedOrders
import SpacerocksCoa.HandlerRequests

/-!
# Verifying again with less evidence than before

The two handlers that verify a verified order again, each run alone to its end with one
answer of the verifier. The monitoring handler fails closed on every answer that falls
behind the latest observation. The upgrade handler compares the block and the instant only,
so it records a smaller number of confirmations. The second half is about runs that follow
one another, where each may stop anywhere.

An answer that the verifier does not give (an outage) is not an answer that falls behind.
-/
namespace DecreasedEvidence
open OrderStates ProofRecords OrderRows JobClaims FulfillmentAdapters NotificationAdapters
open FulfillmentHandlers WorkerRuns HandlerRequests
open TransactionalPrograms TransactionalPrograms.Prog

/-- The handlers that verify a verified order again. -/
inductive Reverifying where
  | upgrade | confirmation
  deriving DecidableEq

def Reverifying.handler (s : Services) : Reverifying → Handler Unit
  | upgrade => upgradeHandler s
  | confirmation => confirmationHandler s

/-- A verified order with what was recorded about its latest version. -/
structure Watched (r : OrderRecord) (p : ProofVersion) (v : ProofVerification) (o : Observation) :
    Prop where
  state : r.order.fulfillmentState = .bitcoinVerified ∨ r.order.fulfillmentState = .delivered
  latest : r.latestProof = some p
  verification : r.verification p.version = some v
  observation : r.latestObservation p.version = some o
  agrees : o.matchesVerification v = true

/-- Unverified, about another block, or with fewer confirmations than last observed. -/
def Behind (v : ProofVerification) (o : Observation) : BitcoinVerification Instant → Prop
  | .unverified _ _ => True
  | .verified e => e.block ≠ v.block ∨ e.confirmations < o.observedConfirmations

/-- The end of a run is manual review, without a new observation or message. -/
structure EndsInReview (before : OrderRecord) (ending : Except Failure Unit × World) : Prop where
  result : ∃ code, ending.1 = .error (.manualReview code)
  observations : ending.2.record.observations = before.observations
  outbox : ending.2.record.outbox = before.outbox

def FailsClosed (s : Services) (p : Handler Unit) (envs : Nat → Env) (w : World) : Prop :=
  EndsInReview w.record (execute (perform s) p envs w)

/-- What the upgrade handler looks at before it records: the stored proof, its submission
time, the block and the instant. -/
def Overlooked (s : Services) (r : OrderRecord) (p : ProofVersion) (v : ProofVerification) :
    BitcoinVerification Instant → Prop
  | .unverified _ _ => False
  | .verified e =>
    validateExactProof s.platform r.order.snapshot.manifestDigest p.proofBytes
        (some p.proofSha256) = true ∧
      r.order.calendarSubmittedAt = some p.calendarSubmittedAt ∧
      e.block = v.block ∧ v.verifiedAt ≤ e.verifiedAt

lemma latest_of_watched {r : OrderRecord} {p : ProofVersion} {v : ProofVerification}
    {o : Observation} (watched : Watched r p v o) :
    FulfillmentAdapters.latest r = some (storedProof p r.order.snapshot.orderReference (some v)
      (some o) true) := by
  have shown : (r.order.fulfillmentState == .bitcoinVerified ||
      r.order.fulfillmentState == .delivered) = true := by
    rcases watched.state with state | state <;> rw [state] <;> rfl
  simp only [FulfillmentAdapters.latest, watched.latest, Option.map_some, watched.verification,
    Option.bind_some, watched.observation, shown]

lemma getVerified_of_watched {r : OrderRecord} {p : ProofVersion} {v : ProofVerification}
    {o : Observation} (watched : Watched r p v o) :
    getVerified p.version r = .ok (some (verificationOf v o)) := by
  simp [getVerified, watched.verification, watched.observation, watched.agrees]

/-- A record whose state the monitoring handler accepts. -/
lemma state_accepted {r : OrderRecord} {p : ProofVersion} {v : ProofVerification}
    {o : Observation} (watched : Watched r p v o) :
    ¬(r.order.fulfillmentState ≠ .bitcoinVerified ∧ r.order.fulfillmentState ≠ .delivered) := by
  rintro ⟨notVerified, notDelivered⟩
  exact watched.state.elim notVerified notDelivered

lemma sameReverificationEvidence_iff (v : ProofVerification) (o : Observation)
    (e : Evidence Instant) :
    sameReverificationEvidence (some (verificationOf v o)) e = true ↔
      e.block = v.block ∧ v.verifiedAt ≤ e.verifiedAt := by
  simp only [sameReverificationEvidence, Option.any_some, Bool.and_eq_true, beq_iff_eq,
    decide_eq_true_iff]
  exact Iff.rfl

variable {s : Services} {w : World} {p : ProofVersion} {v : ProofVerification} {o : Observation}
  {result : BitcoinVerification Instant} {envs : Nat → Env}

/-- From the verifier's answer on, the monitoring handler compares with what it read. -/
lemma confirmAgain_fails_closed (r : OrderRecord) (clock : Instant) (tip : Nat)
    (snapshot : OrderSnapshot) (proof : StoredProof Instant)
    (answers : ∀ n, (envs n).verify = .ok result) (behind : Behind v o result) :
    EndsInReview r (execute (perform s)
      (confirmAgain s snapshot proof (verificationOf v o) o) envs ⟨r, clock, tip⟩) := by
  simp only [confirmAgain, verifyBitcoin, verifyExactDigest, call, request_bind, ask_bind, execute,
    perform, answer, answers]
  cases result with
  | unverified => exact ⟨⟨_, rfl⟩, rfl, rfl⟩
  | verified e =>
    simp only [pure_eq, done_bind]
    by_cases same : sameReverificationEvidence (some (verificationOf v o)) e = false
    · rw [if_pos same]
      exact ⟨⟨_, rfl⟩, rfl, rfl⟩
    · have fewer : e.confirmations < o.observedConfirmations := by
        rw [Bool.not_eq_false, sameReverificationEvidence_iff] at same
        exact behind.resolve_left fun differs => differs same.1
      rw [if_neg same, if_pos fewer]
      exact ⟨⟨_, rfl⟩, rfl, rfl⟩

lemma confirmation_fails_closed (watched : Watched w.record p v o)
    (answers : ∀ n, (envs n).verify = .ok result) (behind : Behind v o result) :
    FailsClosed s (confirmationHandler s) envs w := by
  have latest := latest_of_watched watched
  have stored := getVerified_of_watched watched
  have accepted := state_accepted watched
  have observation := watched.observation
  unfold FailsClosed confirmationHandler load
  simp only [request_bind, ask_bind, execute, perform, answer, latest,
    FulfillmentAdapters.getForFulfillment, done_bind, pure_eq, fulfillmentOrder, Order.state,
    if_neg accepted, storedProof, if_true]
  split
  · exact ⟨⟨_, rfl⟩, rfl, rfl⟩
  · simp only [execute, perform, answer, stored, adapter, done_bind, observation]
    refine confirmAgain_fails_closed _ _ _ _ _ ?_ behind
    exact fun n => answers _

/-- Once the upgrade handler records, no end of it is manual review. -/
lemma record_not_review (version : Nat) (e : Evidence Instant) (state : FulfillmentState)
    (key : EventKey) (code : String) (envs : Nat → Env) (w : World) :
    (execute (perform s) (do
      let _ ← recordObservation s version e
      let _ ← transition state key none
      pure () : Handler Unit) envs w).1 ≠ .error (.manualReview code) := by
  simp only [recordObservation, transition, call, request_bind, ask_bind, execute, perform, answer]
  cases recordOnce version (observationEventKey s version e) (.verified e) (envs 0).now
      (envs 0).freshId w.record with
  | error error => simp [commit, adapter, execute]
  | ok recorded =>
    simp only [commit, adapter, done_bind, execute, perform, answer]
    cases transitionFulfillmentOnce s.platform state key none (envs (0 + 1)).now recorded.2 with
    | error error => simp [execute]
    | ok moved => simp [execute]

/-- The upgrade handler on a verified order: it fails closed exactly when one of the things it
looks at is wrong. -/
lemma upgrade_fails_closed_iff (watched : Watched w.record p v o)
    (answers : ∀ n, (envs n).verify = .ok result) :
    FailsClosed s (upgradeHandler s) envs w ↔ ¬Overlooked s w.record p v result := by
  have latest := latest_of_watched watched
  unfold FailsClosed upgradeHandler load
  simp only [request_bind, ask_bind, execute, perform, answer, latest,
    FulfillmentAdapters.getForFulfillment, done_bind, pure_eq, fulfillmentOrder, Order.state,
    storedProof, if_true]
  by_cases intact : validateExactProof s.platform w.record.order.snapshot.manifestDigest
      p.proofBytes (some p.proofSha256) = false
  · rw [if_pos intact]
    refine ⟨fun _ overlooked => ?_, fun _ => ⟨⟨_, rfl⟩, rfl, rfl⟩⟩
    cases result with
    | unverified => exact overlooked
    | verified e => exact absurd (intact.symm.trans overlooked.1) (by decide)
  · rw [if_neg intact]
    by_cases time : w.record.order.calendarSubmittedAt ≠ some p.calendarSubmittedAt
    · rw [if_pos time]
      refine ⟨fun _ overlooked => ?_, fun _ => ⟨⟨_, rfl⟩, rfl, rfl⟩⟩
      cases result with
      | unverified => exact overlooked
      | verified e => exact time overlooked.2.1
    · rw [if_neg time, if_pos watched.state]
      simp only [reverify, verifyBitcoin, verifyExactDigest, call, request_bind, ask_bind, execute,
        perform, answer, answers]
      cases result with
      | unverified => exact ⟨fun _ => id, fun _ => ⟨⟨_, rfl⟩, rfl, rfl⟩⟩
      | verified e =>
        simp only [pure_eq, done_bind]
        by_cases same : sameReverificationEvidence (some (verificationOf v o)) e = false
        · rw [if_pos same]
          refine ⟨fun _ overlooked => ?_, fun _ => ⟨⟨_, rfl⟩, rfl, rfl⟩⟩
          rw [← Bool.not_eq_true, sameReverificationEvidence_iff] at same
          exact same overlooked.2.2
        · rw [if_neg same]
          rw [Bool.not_eq_false, sameReverificationEvidence_iff] at same
          refine ⟨fun closed => ?_, fun overlooked => absurd ⟨Bool.of_not_eq_false intact,
            not_not.1 time, same⟩ overlooked⟩
          obtain ⟨code, ends⟩ := closed.result
          exact absurd ends (record_not_review _ _ _ _ _ _ _)

/-! ## Runs that follow one another -/

inductive HandlerKind where
  | stamp | upgrade | delivery | confirmation
  deriving DecidableEq

def HandlerKind.handler (s : Services) : HandlerKind → Handler Unit
  | stamp => stampHandler s
  | upgrade => upgradeHandler s
  | delivery => deliveryHandler s
  | confirmation => confirmationHandler s

/-- One run of a handler, stopped where its list of environments ends. -/
structure SerialRun where
  kind : HandlerKind
  envs : List Env

def serveRuns (s : Services) : List SerialRun → World → World
  | [], w => w
  | run :: rest, w => serveRuns s rest (serve (perform s) (run.kind.handler s) run.envs w).2

/-- No fewer confirmations than the latest observation of the latest version. -/
def NotBelow (e : Evidence Instant) (r : OrderRecord) : Prop :=
  ∀ p o, r.latestProof = some p → r.latestObservation p.version = some o →
    o.observedConfirmations ≤ e.confirmations

instance (e : Evidence Instant) (r : OrderRecord) : Decidable (NotBelow e r) :=
  decidable_of_iff (∀ o ∈ r.latestProof.bind fun p => r.latestObservation p.version,
    o.observedConfirmations ≤ e.confirmations) (by
      simp only [NotBelow, Option.mem_def, Option.bind_eq_some_iff]
      exact ⟨fun h p o latest observed => h o ⟨p, latest, observed⟩,
        fun h o ⟨p, latest, observed⟩ => h p o latest observed⟩)

/-- The verified answer to a request, if it gets one. -/
def verifiedReply (env : Env) : Request → Option (Evidence Instant)
  | .verifyExactDigest _ _ =>
    match env.verify with
    | .ok (.verified e) => some e
    | _ => none
  | _ => none

/-- A verified answer is younger than everything observed, and an answer to any handler but
the monitoring one is not below the latest observation. -/
def AnswerFits (kind : HandlerKind) (env : Env) (q : Request) (w : World) : Prop :=
  ∀ e ∈ verifiedReply env q, (∀ o ∈ w.record.observations, o.observedAt < e.verifiedAt) ∧
    (kind ≠ .confirmation → NotBelow e w.record)

instance (kind : HandlerKind) (env : Env) (q : Request) (w : World) :
    Decidable (AnswerFits kind env q w) :=
  inferInstanceAs (Decidable (∀ e ∈ verifiedReply env q, _))

def AnswersFit (s : Services) : List SerialRun → World → Prop
  | [], _ => True
  | run :: rest, w => Along (perform s) (AnswerFits run.kind) (run.kind.handler s) run.envs w ∧
    AnswersFit s rest (serve (perform s) (run.kind.handler s) run.envs w).2

/-- Of two observations of one version the later one has at least as many confirmations. -/
def NeverDecreases (r : OrderRecord) : Prop :=
  r.observations.Pairwise fun a b =>
    a.proofVersion = b.proofVersion → a.observedConfirmations ≤ b.observedConfirmations

/-- Observations are recorded in the order of the instants they report, too. -/
def Chronological (r : OrderRecord) : Prop :=
  r.observations.Pairwise fun a b => a.observedAt < b.observedAt ∧
    (a.proofVersion = b.proofVersion → a.observedConfirmations ≤ b.observedConfirmations)

instance (r : OrderRecord) : Decidable (NeverDecreases r) :=
  inferInstanceAs (Decidable (List.Pairwise _ _))

instance (r : OrderRecord) : Decidable (Chronological r) :=
  inferInstanceAs (Decidable (List.Pairwise _ _))

lemma observedAt_le_of_latest {r : OrderRecord} {version : Nat} {l o : Observation}
    (latest : r.latestObservation version = some l) (member : o ∈ r.observations)
    (same : o.proofVersion = version) : o.observedAt ≤ l.observedAt := by
  have le : Observation.order o ≤ Observation.order l :=
    List.le_of_mem_argmax (List.mem_filter.2 ⟨member, by simp [same]⟩) latest
  rcases Prod.Lex.le_iff.1 le with before | ⟨equal, -⟩
  · exact le_of_lt before
  · exact le_of_eq equal

/-- In a chronological record the latest observation is the highest. -/
lemma confirmations_le_latest {r : OrderRecord} (chronological : Chronological r) {version : Nat}
    {l o : Observation} (latest : r.latestObservation version = some l)
    (member : o ∈ r.observations) (same : o.proofVersion = version) :
    o.observedConfirmations ≤ l.observedConfirmations := by
  have present := List.mem_filter.1 (List.argmax_mem latest)
  have version_l : l.proofVersion = version := by simpa using present.2
  obtain ⟨i, hi, rfl⟩ := List.mem_iff_getElem.1 member
  obtain ⟨j, hj, rfl⟩ := List.mem_iff_getElem.1 present.1
  have pairs := List.pairwise_iff_getElem.1 chronological
  rcases Nat.lt_trichotomy i j with before | rfl | after
  · exact (pairs i j hi hj before).2 (same.trans version_l.symm)
  · exact Nat.le_refl _
  · have younger := (pairs j i hj hi after).1
    exact absurd (observedAt_le_of_latest latest member same) (not_le.2 younger)

/-- What the verifier's answer must satisfy in the record where it is recorded. -/
structure Fits (e : Evidence Instant) (r : OrderRecord) : Prop where
  younger : ∀ o ∈ r.observations, o.observedAt < e.verifiedAt
  notBelow : NotBelow e r

lemma fits_of_same {e : Evidence Instant} {r r' : OrderRecord} (fits : Fits e r)
    (observations : r'.observations = r.observations) (proofs : r'.proofs = r.proofs) :
    Fits e r' := by
  constructor
  · rw [observations]
    exact fits.younger
  · intro p o latest observed
    simp only [OrderRecord.latestProof, OrderRecord.latestObservation, observations, proofs]
      at latest observed
    exact fits.notBelow p o latest observed

lemma chronological_append {r : OrderRecord} (chronological : Chronological r) {e : Evidence Instant}
    (fits : Fits e r) {p : ProofVersion} (latest : r.latestProof = some p) (id : Nat)
    (key : ObservationKey) (now : Instant) :
    Chronological { r with
      observations := r.observations ++ [newObservation id p.version key e now] } := by
  refine List.pairwise_append.2 ⟨chronological, List.pairwise_singleton _ _, ?_⟩
  intro o member last isLast
  rw [List.mem_singleton.1 isLast]
  refine ⟨fits.younger o member, fun same => ?_⟩
  have version : o.proofVersion = p.version := same
  cases observed : r.latestObservation p.version with
  | none =>
    have empty := List.argmax_eq_none.1 observed
    exact absurd (List.mem_filter.2 ⟨member, by simp [version]⟩)
      (empty ▸ List.not_mem_nil)
  | some l =>
    exact Nat.le_trans (confirmations_le_latest chronological observed member version)
      (fits.notBelow p l latest observed)

/-! ## Each handler alone -/

/-- Every request but one leaves the observations alone. -/
def LeavesObservations (q : Request) : Prop :=
  ∀ version key verification, q ≠ .recordOnce version key verification

lemma answer_observations (s : Services) (env : Env) {q : Request} (leaves : LeavesObservations q)
    (r : OrderRecord) : (answer s env q r).2.observations = r.observations := by
  cases q with
  | recordOnce version key verification => exact absurd rfl (leaves _ _ _)
  | transitionFulfillmentOnce target key time =>
    refine commit_rule (fun r' => r'.observations = r.observations) rfl fun _ r' done => ?_
    obtain ⟨-, _, -, ⟨rfl, -⟩ | ⟨-, -, -, -, rfl, -⟩⟩ := transitionFulfillmentOnce_ok done <;> rfl
  | append proof =>
    refine commitUnit_rule (fun r' => r'.observations = r.observations) rfl fun r' done => ?_
    obtain ⟨_, -, -, ⟨rfl, -⟩ | ⟨rfl, -⟩⟩ := append_ok done <;> rfl
  | putVerifiedOnce version result =>
    refine commitUnit_rule (fun r' => r'.observations = r.observations) rfl fun r' done => ?_
    obtain ⟨_, _, -, -, -, -, ⟨rfl, -⟩ | ⟨-, rfl⟩⟩ := putVerifiedOnce_ok done <;> rfl
  | putOnce version bundle =>
    refine commitUnit_rule (fun r' => r'.observations = r.observations) rfl fun r' done => ?_
    obtain ⟨-, ⟨rfl, -⟩ | ⟨-, rfl⟩⟩ := putOnce_ok done <;> rfl
  | enqueue message =>
    refine commitUnit_rule (fun r' => r'.observations = r.observations) rfl fun r' done => ?_
    obtain ⟨_, -, rfl | rfl⟩ := enqueue_ok done <;> rfl
  | finish job outcome now retryAt code =>
    simp only [answer]
    split <;> rfl
  | enqueueOnce | recordDispatched | recordDispatchFailure | heartbeat | getForFulfillment
  | latest | stampExactDigest | upgradeExactDigest | verifyExactDigest | getVerified
  | latestObservation | now | dispatchDue | createTask | retryAt => rfl

lemma admits_leaves : Admits LeavesObservations := by
  refine ⟨fun _ _ _ _ => nofun, fun q ordinary version key verification same => ?_⟩
  rw [same] at ordinary
  cases ordinary

abbrev KeepsRun {α : Type} (s : Services) (kind : HandlerKind) (p : Handler α) (w : World) : Prop :=
  Keeps (perform s) (AnswerFits kind) (fun w => Chronological w.record) (fun _ _ => True) p w

section
variable {kind : HandlerKind} {α : Type}

lemma keeps_quiet {p : Handler α} (only : Only LeavesObservations p)
    (chronological : Chronological w.record) : KeepsRun s kind p w := by
  refine keeps_of_only (fun env q w leaves held => ?_) only chronological
  simpa only [Chronological, perform, answer_observations s env leaves w.record] using held

/-- An observation that fits is added at the end, and nothing after it is recorded. -/
lemma keeps_recordObservation {rest : Observation → Handler α} {version : Nat}
    {e : Evidence Instant} (chronological : Chronological w.record) (fits : Fits e w.record)
    (quiet : ∀ o, Only LeavesObservations (rest o)) :
    KeepsRun s kind (recordObservation s version e >>= rest) w := by
  refine ⟨chronological, fun env _ => keeps_quiet (only_bind (only_adapter _) quiet) ?_⟩
  refine commit_rule Chronological chronological fun _ r' done => ?_
  obtain ⟨_, proof, _, same, latest, version, -, -, ⟨rfl, -⟩ | ⟨-, -, rfl, rfl⟩⟩ := recordOnce_ok done
  · exact chronological
  · cases same
    subst version
    exact chronological_append chronological fits latest _ _ _

/-- What the verifier may answer before a program goes on. -/
lemma keeps_verifyBitcoin {f : BitcoinVerification Instant → Handler α} {digest : ManifestDigest}
    {bytes : Bytes} (chronological : Chronological w.record)
    (unverified : ∀ method confirmations clock tip,
      KeepsRun s kind (f (.unverified method confirmations)) ⟨w.record, clock, tip⟩)
    (verified : ∀ e clock tip, (∀ o ∈ w.record.observations, o.observedAt < e.verifiedAt) →
      (kind ≠ .confirmation → NotBelow e w.record) →
        KeepsRun s kind (f (.verified e)) ⟨w.record, clock, tip⟩) :
    KeepsRun s kind (verifyBitcoin digest bytes >>= f) w := by
  refine keeps_bind (keeps_request_bind chronological fun env served => ?_)
  cases reply : env.verify with
  | error failure =>
    simp only [perform, answer, reply]
    cases failure <;> exact ⟨chronological, trivial⟩
  | ok result =>
    cases result with
    | unverified method confirmations =>
      simp only [perform, answer, reply]
      exact ⟨chronological, unverified method confirmations _ _⟩
    | verified e =>
      obtain ⟨younger, notBelow⟩ := served e (by simp [verifiedReply, reply])
      simp only [perform, answer, reply]
      exact ⟨chronological, verified e _ _ younger notBelow⟩

lemma keeps_reverify (order : FulfillmentOrder) (latest : StoredProof Instant)
    (other : kind ≠ .confirmation) (chronological : Chronological w.record) :
    KeepsRun s kind (reverify s order latest) w := by
  refine keeps_verifyBitcoin chronological (fun _ _ _ _ => ?_) fun e _ _ younger fits => ?_
  · exact ⟨chronological, trivial⟩
  · simp only
    split
    · exact ⟨chronological, trivial⟩
    · refine keeps_recordObservation chronological ⟨younger, fits other⟩ ?_
      exact fun _ => only_bind (only_transition admits_leaves _ _ rfl) fun _ => trivial

lemma keeps_confirmUpgrade (digest : ManifestDigest) (latest : StoredProof Instant)
    (other : kind ≠ .confirmation) (chronological : Chronological w.record) :
    KeepsRun s kind (confirmUpgrade s digest latest) w := by
  refine keeps_verifyBitcoin chronological (fun _ _ _ _ => ?_) fun e _ _ younger fits => ?_
  · exact ⟨chronological, trivial⟩
  · refine keeps_request_bind chronological fun env _ => ?_
    have before : Fits e w.record := ⟨younger, fits other⟩
    cases done : putVerifiedOnce latest.version (.verified e) w.record with
    | error failure =>
      simp only [perform, answer, done, commitUnit, adapter]
      exact ⟨chronological, trivial⟩
    | ok r' =>
      have kept : r'.observations = w.record.observations ∧ r'.proofs = w.record.proofs := by
        obtain ⟨_, _, -, -, -, -, ⟨rfl, -⟩ | ⟨-, rfl⟩⟩ := putVerifiedOnce_ok done <;>
          exact ⟨rfl, rfl⟩
      simp only [perform, answer, done, commitUnit, adapter, done_bind]
      refine keeps_recordObservation ?_ (fits_of_same before kept.1 kept.2) ?_
      · simpa only [Chronological, kept.1] using chronological
      · exact fun _ => only_bind (only_transition admits_leaves _ _ rfl) fun _ => trivial

lemma keeps_upgradePending (snapshot : OrderSnapshot) (latest : StoredProof Instant)
    (other : kind ≠ .confirmation) (chronological : Chronological w.record) :
    KeepsRun s kind (upgradePending s snapshot latest) w := by
  refine keeps_request_bind chronological fun env _ => ?_
  cases reply : env.upgrade with
  | error failure =>
    simp only [perform, answer, reply]
    cases failure <;> exact ⟨chronological, trivial⟩
  | ok upgradedBytes =>
    simp only [perform, answer, reply]
    split
    · exact ⟨chronological, trivial⟩
    · split
      · exact keeps_confirmUpgrade _ _ other chronological
      · cases made : makeStoredProof s.platform snapshot.orderReference (latest.version + 1)
            snapshot.manifestDigest upgradedBytes latest.calendarSubmittedAt none with
        | error failure => exact ⟨chronological, trivial⟩
        | ok upgraded =>
          simp only [adapter, done_bind]
          refine keeps_bind ?_
          refine keeps_mono ?_ (keeps_quiet (only_appendOnce admits_leaves.stamping upgraded) chronological)
          intro result w' held _
          cases result with
          | error failure => trivial
          | ok value => exact keeps_confirmUpgrade _ _ other held

lemma keeps_upgradeHandler (other : kind ≠ .confirmation) (chronological : Chronological w.record) :
    KeepsRun s kind (upgradeHandler s) w := by
  refine keeps_bind (keeps_mono ?_ (keeps_quiet (only_load admits_leaves.timeless.passive) chronological))
  intro result w' held _
  cases result with
  | error failure => trivial
  | ok order =>
    refine keeps_request_bind held fun env _ => ?_
    simp only [perform, answer]
    split
    · exact ⟨held, trivial⟩
    · next latest found =>
      split
      · exact ⟨held, trivial⟩
      · split
        · exact ⟨held, trivial⟩
        · split
          · exact keeps_reverify _ _ other held
          · split
            · exact ⟨held, trivial⟩
            · exact keeps_upgradePending _ _ other held

/-- The monitoring handler checks the answer against what it read in the same record. -/
lemma keeps_confirmAgain (snapshot : OrderSnapshot) {proof : StoredProof Instant}
    (stored : Evidence Instant) {previous : Observation} {row : ProofVersion}
    (latest : w.record.latestProof = some row)
    (observed : w.record.latestObservation row.version = some previous)
    (chronological : Chronological w.record) :
    KeepsRun s kind (confirmAgain s snapshot proof stored previous) w := by
  refine keeps_verifyBitcoin chronological (fun _ _ _ _ => ?_) fun e _ _ younger _ => ?_
  · exact ⟨chronological, trivial⟩
  · simp only
    split
    · exact ⟨chronological, trivial⟩
    · split
      · exact ⟨chronological, trivial⟩
      · next enough =>
        have fits : NotBelow e w.record := by
          intro p o found last
          cases latest.symm.trans found
          cases observed.symm.trans last
          exact Nat.le_of_not_lt enough
        refine keeps_recordObservation chronological ⟨younger, fits⟩ ?_
        intro o
        split
        · trivial
        · exact only_enqueueMilestone admits_leaves.timeless _ _ _ _

lemma keeps_confirmationHandler (chronological : Chronological w.record) :
    KeepsRun s kind (confirmationHandler s) w := by
  refine keeps_bind (keeps_mono ?_ (keeps_quiet (only_load admits_leaves.timeless.passive) chronological))
  intro result w' held _
  cases result with
  | error failure => trivial
  | ok order =>
    simp only
    split
    · exact ⟨held, trivial⟩
    · refine keeps_request_bind held fun env _ => ?_
      cases found : w'.record.latestProof with
      | none =>
        simp only [perform, answer, FulfillmentAdapters.latest, found, Option.map_none]
        exact ⟨held, trivial⟩
      | some row =>
        simp only [perform, answer, FulfillmentAdapters.latest, found, Option.map_some]
        split
        · exact ⟨held, trivial⟩
        · refine keeps_request_bind held fun env _ => ?_
          cases read : getVerified row.version w'.record with
          | error failure =>
            simp only [perform, answer, storedProof, read, adapter]
            exact ⟨held, trivial⟩
          | ok stored =>
            simp only [perform, answer, storedProof, read, adapter, done_bind]
            refine keeps_request_bind held fun env _ => ?_
            simp only [perform, answer]
            split
            · next evidence previous observed =>
              exact keeps_confirmAgain _ _ found observed held
            · exact ⟨held, trivial⟩

lemma keeps_handler (kind : HandlerKind) (chronological : Chronological w.record) :
    KeepsRun s kind (kind.handler s) w := by
  cases kind with
  | stamp => exact keeps_quiet (only_stampHandler admits_leaves.stamping) chronological
  | upgrade => exact keeps_upgradeHandler (by decide) chronological
  | delivery => exact keeps_quiet (only_deliveryHandler admits_leaves.timeless) chronological
  | confirmation => exact keeps_confirmationHandler chronological

end

lemma serveRuns_chronological (runs : List SerialRun) {w : World}
    (chronological : Chronological w.record) (fit : AnswersFit s runs w) :
    Chronological (serveRuns s runs w).record := by
  induction runs generalizing w with
  | nil => exact chronological
  | cons run rest ih =>
    exact ih (serve_keeps (keeps_handler run.kind chronological) fit.1) fit.2

lemma neverDecreases_of_chronological {r : OrderRecord} (chronological : Chronological r) :
    NeverDecreases r := chronological.imp And.right

/-- On an answer that falls behind, the handlers fail closed exactly when it does not slip
through the upgrade handler; and when the answers fit, no run of handlers, each stopped
anywhere, ever records fewer confirmations than before. -/
theorem decreased_evidence_fails_closed (s : Services) :
    (∀ (reverifying : Reverifying) (w : World) (p : ProofVersion) (v : ProofVerification)
        (o : Observation) (result : BitcoinVerification Instant) (envs : Nat → Env),
      Watched w.record p v o → (∀ n, (envs n).verify = .ok result) → Behind v o result →
        (FailsClosed s (reverifying.handler s) envs w ↔
          (reverifying = .upgrade → ¬Overlooked s w.record p v result))) ∧
      ∀ (runs : List SerialRun) (w : World), Chronological w.record → AnswersFit s runs w →
        NeverDecreases (serveRuns s runs w).record := by
  refine ⟨?_, fun runs w start fit =>
    neverDecreases_of_chronological (serveRuns_chronological runs start fit)⟩
  intro reverifying w p v o result envs watched answers behind
  cases reverifying with
  | upgrade =>
    exact (upgrade_fails_closed_iff watched answers).trans ⟨fun h _ => h, fun h => h rfl⟩
  | confirmation =>
    exact ⟨fun _ upgrade => (nomatch upgrade),
      fun _ => confirmation_fails_closed watched answers behind⟩

/-! ## An upgrade run that loses confirmations

The order was verified with 101 confirmations; the node that answers the operator's
re-verification reports 50. -/

open VerifiedOrders (sampleServices sampleEnv sampleTime sampleEvidence stampedBytes upgradedBytes
  queuedWorld serveTimes arriveAt)

/-- The stamp job and one upgrade job. -/
def stampAndUpgrade : List (Move Env Arriving) :=
  [arriveAt 1 (.claim "worker-a")] ++ serveTimes 0 13 (sampleEnv 2 2 stampedBytes) ++
  [arriveAt 3 (.claim "worker-a")] ++ serveTimes 1 8 (sampleEnv 4 3 upgradedBytes)

def verifiedWorld : World := ((workerService sampleServices).run stampAndUpgrade queuedWorld).world

def fewer : Evidence Instant :=
  { sampleEvidence (sampleTime 20) with confirmations := 50, confirmed := by decide }

def fewerConfirmations : Env :=
  { sampleEnv 20 9 upgradedBytes with verify := .ok (.verified fewer) }

def moreConfirmations : Env :=
  { sampleEnv 30 10 upgradedBytes with
    verify := .ok (.verified { sampleEvidence (sampleTime 30) with
      confirmations := 102, confirmed := by decide }) }

set_option maxRecDepth 4000 in
theorem monitoring_fails_closed :
    (∃ p v o, Watched verifiedWorld.record p v o ∧ o.observedConfirmations = 101 ∧
      Behind v o (.verified fewer) ∧
      FailsClosed sampleServices (confirmationHandler sampleServices)
        (fun _ => fewerConfirmations) verifiedWorld) ∧
      NeverDecreases (serveRuns sampleServices [⟨.upgrade, List.replicate 5 moreConfirmations⟩]
        verifiedWorld).record := by
  refine ⟨⟨_, _, _, ⟨Or.inl (by decide), rfl, rfl, rfl, by decide⟩, by decide, Or.inr (by decide),
    ?_⟩, ?_⟩
  · exact ((decreased_evidence_fails_closed sampleServices).1 .confirmation verifiedWorld _ _ _
      (.verified fewer) (fun _ => fewerConfirmations)
      ⟨Or.inl (by decide), rfl, rfl, rfl, by decide⟩ (fun _ => rfl) (Or.inr (by decide))).2 nofun
  · exact (decreased_evidence_fails_closed sampleServices).2 _ verifiedWorld (by decide)
      ⟨by decide, trivial⟩

set_option maxRecDepth 4000 in
/-- The upgrade handler records the 50 confirmations after the 101. -/
theorem upgrade_records_fewer_confirmations :
    (∃ p v o, Watched verifiedWorld.record p v o ∧ Behind v o (.verified fewer)) ∧
      fewerConfirmations.verify = .ok (.verified fewer) ∧
      ¬FailsClosed sampleServices (upgradeHandler sampleServices) (fun _ => fewerConfirmations)
        verifiedWorld ∧
      ¬NeverDecreases (serveRuns sampleServices [⟨.upgrade, List.replicate 5 fewerConfirmations⟩]
        verifiedWorld).record :=
  ⟨⟨_, _, _, ⟨Or.inl (by decide), rfl, rfl, rfl, by decide⟩, Or.inr (by decide)⟩, rfl,
    fun closed => absurd closed.observations (by decide), by decide⟩

end DecreasedEvidence
