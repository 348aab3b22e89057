import SpacerocksCoa.HonestRecords

/-!
# Runs that share a healthy order

The four job handlers, the runner around them and the operator's commands, overlapping in
every order and losing their leases at any time, in an honest world. A handler decides
from reads that lie apart, so each of its checks is justified here by what was read before
and by how the world may have moved on since. A handler that still ends in a review has
lost its lease, so its runner does not file the end.

Payments are over: refunds and disputes do not occur.
-/
namespace HonestRuns
open OrderStates ProofRecords OrderRows JobClaims FulfillmentAdapters NotificationAdapters
open FulfillmentHandlers WorkerRuns VerifiedOrders LeaseHolders HonestRecords
open TransactionalPrograms TransactionalPrograms.Prog

def honestDiscipline (s : Services) (chain : Chain) :
    Discipline Request Env (Option ClaimedJob) World where
  inv := Healthy s chain
  rely := Later
  rely_refl := later_refl
  rely_trans := Later.trans
  allowed tag env q w := Honest s chain env q w ∧ Undisturbed s tag w q

/-- A program that asks for a review has lost its lease. -/
def Reviewless {α : Type} (tag : Option ClaimedJob) (post : α → World → Prop) :
    Except Failure α → World → Prop
  | .ok a, w => post a w
  | .error (.manualReview _), w => ∃ job ∈ tag, Lost job w.record.tables
  | .error _, _ => True

section
variable {s : Services} {chain : Chain} {tag : Option ClaimedJob} {α β : Type}
  {post : α → World → Prop} {w : World}

variable (s chain) in
abbrev Guarded (tag : Option ClaimedJob) (post : Except Failure α → World → Prop)
    (p : Handler α) (w : World) : Prop :=
  Safe (perform s) (honestDiscipline s chain) tag post p w

variable (s chain) in
abbrev Runs (tag : Option ClaimedJob) (post : α → World → Prop) (p : Handler α) (w : World) :
    Prop :=
  Guarded s chain tag (Reviewless tag post) p w

/-! ## One request -/

lemma guarded_ask {result : Except Failure α → World → Prop} {q : Request}
    {k : Reply q → Handler α}
    (grounded : ∀ w', Later w w' → Healthy s chain w' → Grounded s chain w' q)
    (next : ∀ w' env, Later w w' → Healthy s chain w' → Honest s chain env q w' →
      Undisturbed s tag w' q → Healthy s chain (perform s env q w').2 →
        Later w' (perform s env q w').2 →
          Guarded s chain tag result (k (perform s env q w').1) (perform s env q w').2) :
    Guarded s chain tag result (ask q k) w := by
  intro w' later healthy env allowed
  obtain ⟨after, moves⟩ :=
    perform_moves healthy allowed.1 allowed.2 (grounded w' later healthy)
  exact ⟨after, moves, next w' env later healthy allowed.1 allowed.2 after moves⟩

/-- A request that only reads goes on in the world it read. -/
lemma guarded_read {result : Except Failure α → World → Prop} {q : Request}
    {k : Reply q → Handler α} (grounded : ∀ w, Grounded s chain w q)
    (next : ∀ w' env, Later w w' → Healthy s chain w' → Undisturbed s tag w' q →
      Guarded s chain tag result (k (answer s env q w'.record).1) w') :
    Guarded s chain tag result (ask q k) w :=
  guarded_ask (fun w' _ _ => grounded w') fun w' env later healthy _ undisturbed _ moves =>
    safe_stable (next w' env later healthy undisturbed) moves

lemma runs_adapter {reply : Except AdapterError α} {β : Type} {after : β → World → Prop}
    {f : α → Handler β} (next : ∀ a, reply = .ok a → Runs s chain tag after (f a) w) :
    Runs s chain tag after (adapter reply >>= f) w := by
  cases reply with
  | ok a => exact next a rfl
  | error e => exact fun _ _ _ => trivial

lemma runs_valueError {reply : Except String α} {β : Type} {after : β → World → Prop}
    {f : α → Handler β} (next : ∀ a, reply = .ok a → Runs s chain tag after (f a) w) :
    Runs s chain tag after (valueError reply >>= f) w := by
  cases reply with
  | ok a => exact next a rfl
  | error code => exact fun _ _ _ => trivial

/-- A check that the world guarantees. -/
lemma runs_check {condition : Prop} [Decidable condition] {code : String} {p : Handler α}
    (holds : ¬condition) (next : Runs s chain tag post p w) :
    Runs s chain tag post (if condition then manualReview code else p) w := by
  rw [if_neg holds]
  exact next

/-- A check that only a run without its lease can fail. -/
lemma runs_checkHeld {job : ClaimedJob} {condition : Prop} [Decidable condition] {code : String}
    {p : Handler α} (lost : condition → Lost job w.record.tables)
    (next : ¬condition → Runs s chain (some job) post p w) :
    Runs s chain (some job) post (if condition then manualReview code else p) w := by
  by_cases failed : condition
  · rw [if_pos failed]
    exact fun w' later _ => ⟨job, rfl, lost_later later.jobs (lost failed)⟩
  · rw [if_neg failed]
    exact next failed

lemma runs_transition {target : FulfillmentState} {key : EventKey} {time : Option Instant}
    {f : FulfillmentOrder → Handler α}
    (grounded : ∀ w', Later w w' → Healthy s chain w' →
      Grounded s chain w' (.transitionFulfillmentOnce target key time))
    (next : ∀ w', Later w w' → Healthy s chain w' →
      target.rank ≤ w'.record.order.fulfillmentState.rank →
        Runs s chain tag post (f (fulfillmentOrder w'.record.order)) w') :
    Runs s chain tag post (transition target key time >>= f) w := by
  refine guarded_ask (k := fun reply => adapter reply >>= f) grounded
    fun w' env later healthy honest undisturbed after moves => ?_
  cases moved : transitionFulfillmentOnce s.platform target key time env.now w'.record with
  | error e =>
    simp only [perform, answer, moved, commit]
    exact fun _ _ _ => trivial
  | ok result =>
    obtain ⟨order, r'⟩ := result
    obtain ⟨-, -, named, reached, -⟩ := transition_moves healthy honest.clock honest.tip moved
      (grounded w' later healthy) undisturbed.1
    simp only [perform, answer, moved, commit] at after moves ⊢
    rw [named]
    exact next _ (later.trans moves) after reached

lemma runs_verify {digest : ManifestDigest} {proofBytes : Bytes}
    {f : BitcoinVerification Instant → Handler α}
    (next : ∀ w' v, Later w w' → Healthy s chain w' →
      chain.Answers w'.clock w'.tip proofBytes (.ok v) → Runs s chain tag post (f v) w') :
    Runs s chain tag post (verifyBitcoin digest proofBytes >>= f) w := by
  refine guarded_ask (q := .verifyExactDigest digest proofBytes) (fun _ _ _ => trivial)
    fun w' env later healthy honest undisturbed after moves => ?_
  have answers := honest.answer
  simp only [HonestAnswer] at answers
  simp only [perform, answer] at after moves ⊢
  cases verified : env.verify with
  | ok v =>
    rw [verified] at answers
    exact next _ v (later.trans moves) after answers
  | error e =>
    rw [verified] at answers
    cases e with
    | unavailable => exact fun _ _ _ => trivial
    | evidenceInvalid => exact absurd rfl answers
    | unexpected => exact fun _ _ _ => trivial

lemma runs_recordObservation {version : Nat} {e : Evidence Instant}
    {f : Observation → Handler α}
    (commits : Commits chain w version e.block)
    (count : e.confirmations + e.blockHeight ≤ w.tip + 1)
    (next : ∀ w' o, Later w w' → Healthy s chain w' → Runs s chain tag post (f o) w') :
    Runs s chain tag post (recordObservation s version e >>= f) w := by
  refine guarded_ask (q := .recordOnce version (observationEventKey s version e) (.verified e))
    (k := fun reply => adapter reply >>= f)
    (fun w' later _ e' same => ?_) fun w' env later healthy _ _ after moves => ?_
  · cases same
    exact ⟨commits_later later commits, count.trans (Nat.succ_le_succ later.tip)⟩
  · exact runs_adapter fun o _ => next _ o (later.trans moves) after

/-- The first transition of a stamp job leaves its holder with an order that is stamping. -/
lemma runs_stampStart {job : ClaimedJob} {f : FulfillmentOrder → Handler α}
    (known : Known job w.record.tables)
    (next : ∀ w', Later w w' → Healthy s chain w' →
      (Holds job w'.record.tables → w'.record.order.fulfillmentState = .stamping) →
        Runs s chain (some job) post (f (fulfillmentOrder w'.record.order)) w') :
    Runs s chain (some job) post (transition .stamping .stampStart none >>= f) w := by
  have grounded : ∀ w' : World, Grounded s chain w'
      (.transitionFulfillmentOnce .stamping .stampStart none) :=
    fun _ => ⟨by decide, fun reached => absurd reached (by decide),
      fun delivered => FulfillmentState.noConfusion delivered⟩
  refine guarded_ask (k := fun reply => adapter reply >>= f) (fun w' _ _ => grounded w')
    fun w' env later healthy honest undisturbed after moves => ?_
  cases moved : transitionFulfillmentOnce s.platform .stamping .stampStart none env.now
      w'.record with
  | error e =>
    simp only [perform, answer, moved, commit]
    exact fun _ _ _ => trivial
  | ok result =>
    obtain ⟨order, r'⟩ := result
    obtain ⟨-, -, named, reached, first⟩ := transition_moves healthy honest.clock honest.tip moved
      (grounded w') undisturbed.1
    simp only [perform, answer, moved, commit] at after moves ⊢
    rw [named]
    refine next _ (later.trans moves) after fun holds => ?_
    by_cases new : (w'.record.stateEvent .stampStart).isSome = false
    · exact first new
    · rw [Bool.not_eq_false] at new
      have held := holds_earlier moves.jobs (known_later later.jobs known) holds
      have early := (undisturbed.2 job rfl).2 rfl held new
      obtain ⟨-, merged, merge, ⟨same, -⟩ | ⟨missing, -⟩⟩ := transitionFulfillmentOnce_ok moved
      · have state : r'.order.fulfillmentState = w'.record.order.fulfillmentState := by
          rw [same]
          exact mergeCalendarTime_state merge
        rw [state] at reached
        change r'.order.fulfillmentState = .stamping
        rw [state]
        revert early reached
        cases w'.record.order.fulfillmentState <;> decide
      · rw [missing] at new
        exact Bool.noConfusion new

/-- An append by the holder of the lease succeeds; one that has lost it may also find exactly
its own proof, or ask for a review. -/
lemma runs_appendOnce {job : ClaimedJob} {proof : StoredProof Instant} {f : Unit → Handler α}
    (known : Known job w.record.tables)
    (grounded : ∀ w', Later w w' → Grounded s chain w' (.append proof))
    (next : ∀ w', Later w w' → Healthy s chain w' → newVersion proof ∈ w'.record.proofs →
      Runs s chain (some job) post (f ()) w') :
    Runs s chain (some job) post (appendOnce proof >>= f) w := by
  refine guarded_ask (q := .append proof) (fun w' later _ => grounded w' later)
    fun w' env later healthy honest undisturbed after moves => ?_
  cases appended : FulfillmentAdapters.append proof w'.record with
  | ok r' =>
    obtain ⟨-, -, member⟩ := append_moves healthy honest.clock honest.tip appended
      (grounded w' later) undisturbed.1
    simp only [perform, answer, appended, commitUnit] at after moves ⊢
    exact next _ (later.trans moves) after member
  | error e =>
    have lost : Lost job w'.record.tables := by
      refine ⟨known_later later.jobs known, fun holds => ?_⟩
      have free := undisturbed.2 job rfl holds
      simp only [conflicts, appended] at free
      exact Bool.noConfusion free
    simp only [perform, answer, appended, commitUnit] at after moves ⊢
    cases e with
    | database => exact fun _ _ _ => trivial
    | value code =>
      refine guarded_read (q := .latest) (fun _ => trivial) fun v env' later' healthy' _ => ?_
      change Runs s chain (some job) post ((if FulfillmentAdapters.latest v.record = some proof
        then pure () else manualReview "proof_append_conflict") >>= f) v
      by_cases same : FulfillmentAdapters.latest v.record = some proof
      · obtain ⟨p, found, shown⟩ := Option.map_eq_some_iff.1 same
        have member := latest_mem found
        have equal : newVersion proof = p := by
          have bare := (healthy'.sound p member).bare
          have unverified := (grounded w' later).2.2
          rw [← shown] at unverified ⊢
          simp only [newVersion, unverified]
          simp only [storedProof, ← bare]
        rw [if_pos same]
        exact next v (later.trans (moves.trans later')) healthy' (equal ▸ member)
      · rw [if_neg same]
        intro v' later'' _
        exact ⟨job, rfl, lost_later (moves.trans (later'.trans later'')).jobs lost⟩

/-! ## Programs that touch nothing a run relies on -/

/-- Every request is harmless, and no review is asked for. -/
def Calm (value : α → Prop) : Handler α → Prop
  | .done a => value a
  | .fail e => ∀ code, e ≠ .manualReview code
  | .ask q k => (∀ s chain w, Grounded s chain w q) ∧ ∀ reply, Calm value (k reply)

lemma calm_bind {P : α → Prop} {value : β → Prop} {p : Handler α} {f : α → Handler β}
    (calm : Calm P p) (next : ∀ a, P a → Calm value (f a)) : Calm value (p >>= f) := by
  induction p with
  | done a => exact next a calm
  | fail e => exact calm
  | ask q k ih => exact ⟨calm.1, fun reply => ih reply (calm.2 reply)⟩

lemma calm_adapter (reply : Except AdapterError α) : Calm (fun _ => True) (adapter reply) := by
  cases reply with
  | ok a => trivial
  | error e => exact fun _ same => nomatch same

lemma calm_valueError (reply : Except String α) : Calm (fun _ => True) (valueError reply) := by
  cases reply with
  | ok a => trivial
  | error e => exact fun _ same => nomatch same

lemma calm_call {q : Request} (harmless : ∀ s chain w, Grounded s chain w q) :
    Calm (fun _ => True) (call q) := ⟨harmless, fun _ => trivial⟩

lemma guarded_of_calm {result : Except Failure α → World → Prop} {value : α → Prop}
    {p : Handler α} (calm : Calm value p) (values : ∀ a w, value a → result (.ok a) w)
    (errors : ∀ e w, (∀ code, e ≠ .manualReview code) → result (.error e) w) :
    Guarded s chain tag result p w := by
  induction p generalizing w with
  | done a => exact fun w' _ _ => values a w' calm
  | fail e => exact fun w' _ _ => errors e w' calm
  | ask q k ih =>
    exact guarded_ask (fun w' _ _ => calm.1 s chain w') fun w' env _ _ _ _ _ _ =>
      ih _ (calm.2 _)

lemma runs_of_calm {value : α → Prop} {p : Handler α} (calm : Calm value p) :
    Runs s chain tag (fun _ _ => True) p w := by
  refine guarded_of_calm calm (fun _ _ _ => trivial) fun e w fine => ?_
  cases e with
  | manualReview code => exact absurd rfl (fine code)
  | _ => trivial

lemma calm_dispatchIf (s : Services) (target : Option (Nat × Nat)) :
    Calm (fun _ => True) (dispatchIf s target) := by
  unfold dispatchIf
  split
  · refine calm_bind (P := fun _ => True) ?_ fun _ _ => trivial
    unfold dispatch
    refine calm_bind (calm_call fun _ _ _ => trivial) fun due _ => ?_
    split
    · refine calm_bind (calm_call fun _ _ _ => trivial) fun created _ => ?_
      split
      · exact calm_call fun _ _ _ => trivial
      · exact calm_bind (calm_call fun _ _ _ => trivial) fun _ _ _ same => nomatch same
    · trivial
  · trivial

lemma runs_enqueueJob {spec : JobSpec} {availableAt : Instant}
    (fits : JobFits w.record.order.fulfillmentState spec.kind) :
    Runs s chain tag (fun _ _ => True) (enqueueJob s spec availableAt) w :=
  guarded_ask (fun _ later _ => jobFits_mono later.progress fits)
    fun _ _ _ _ _ _ _ _ => runs_of_calm (calm_dispatchIf s _)

/-! ## Reading the order and its latest version -/

lemma runs_load {f : FulfillmentOrder → Handler α}
    (next : ∀ w', Later w w' → Healthy s chain w' →
      Runs s chain tag post (f (fulfillmentOrder w'.record.order)) w') :
    Runs s chain tag post (load >>= f) w :=
  guarded_read (q := .getForFulfillment)
    (k := fun reply => (match reply with
      | none => manualReview "order_not_found"
      | some order => pure order) >>= f) (fun _ => trivial)
    fun w' _ later healthy _ => next w' later healthy

lemma runs_latest {f : Option (StoredProof Instant) → Handler α}
    (next : ∀ w', Later w w' → Healthy s chain w' →
      Runs s chain tag post (f (FulfillmentAdapters.latest w'.record)) w') :
    Runs s chain tag post (latestProof >>= f) w :=
  guarded_read (q := .latest) (k := f) (fun _ => trivial)
    fun w' _ later healthy _ => next w' later healthy

/-- The proof that a run read belongs to a version of the order. -/
structure Read (w : World) (proof : StoredProof Instant) : Prop where
  row : ∃ p ∈ w.record.proofs, p.version = proof.version ∧ p.targetDigest = proof.targetDigest ∧
    p.proofBytes = proof.proofBytes ∧ p.proofSha256 = proof.proofSha256 ∧
      p.calendarSubmittedAt = proof.calendarSubmittedAt

lemma read_latest {proof : StoredProof Instant}
    (shown : FulfillmentAdapters.latest w.record = some proof) :
    ∃ p, w.record.latestProof = some p ∧ Read w proof ∧ p.version = proof.version := by
  obtain ⟨p, found, rfl⟩ := Option.map_eq_some_iff.1 shown
  exact ⟨p, found, ⟨p, latest_mem found, rfl, rfl, rfl, rfl, rfl⟩, rfl⟩

lemma read_later {w' : World} (later : Later w w') {proof : StoredProof Instant}
    (read : Read w proof) : Read w' proof := by
  obtain ⟨p, member, same⟩ := read.row
  exact ⟨p, later.proofs.subset member, same⟩

lemma read_sound (healthy : Healthy s chain w) {proof : StoredProof Instant}
    (read : Read w proof) :
    validateExactProof s.platform w.record.order.snapshot.manifestDigest proof.proofBytes
        (some proof.proofSha256) = true ∧
      proof.targetDigest = w.record.order.snapshot.manifestDigest ∧
      w.record.order.calendarSubmittedAt = some proof.calendarSubmittedAt := by
  obtain ⟨p, member, -, target, bytes, sha256, submitted⟩ := read.row
  have sound := healthy.sound p member
  rw [← bytes, ← sha256, ← target, ← submitted]
  exact ⟨sound.valid, sound.target, sound.submitted⟩

/-- An order past stamping has a version, so it stays with one submission time. -/
lemma submitted_of_pending (healthy : Healthy s chain w)
    (pending : FulfillmentState.calendarPending.rank ≤ w.record.order.fulfillmentState.rank) :
    ∃ p ∈ w.record.proofs, w.record.order.calendarSubmittedAt = some p.calendarSubmittedAt := by
  obtain ⟨p, member⟩ := List.exists_mem_of_ne_nil _ (healthy.pending pending)
  exact ⟨p, member, (healthy.sound p member).submitted⟩

lemma latest_isSome (healthy : Healthy s chain w)
    (pending : FulfillmentState.calendarPending.rank ≤ w.record.order.fulfillmentState.rank) :
    ∃ proof, FulfillmentAdapters.latest w.record = some proof := by
  cases shown : FulfillmentAdapters.latest w.record with
  | some proof => exact ⟨proof, rfl⟩
  | none =>
    have empty := healthy.pending pending
    rw [FulfillmentAdapters.latest, Option.map_eq_none_iff, OrderRecord.latestProof,
      List.argmax_eq_none] at shown
    exact absurd shown empty

lemma validate_checksum {p : Platform} {digest : ManifestDigest} {proofBytes : Bytes}
    (valid : validateExactProof p digest proofBytes none = true) :
    validateExactProof p digest proofBytes (some (p.sha256 proofBytes)) = true := by
  simpa [validateExactProof] using valid

/-- A freshly made proof is the one that was asked for. -/
lemma makeStoredProof_valid {p : Platform} {reference : OrderReference} {version : Nat}
    {digest : ManifestDigest} {proofBytes : Bytes} {time : Instant} (positive : 1 ≤ version)
    (valid : validateExactProof p digest proofBytes none = true) :
    makeStoredProof p reference version digest proofBytes time none =
      .ok ⟨reference, version, digest, proofBytes, p.sha256 proofBytes, time, none⟩ := by
  rw [makeStoredProof, if_neg (Nat.not_lt.2 positive), if_neg (by rw [valid]; exact Bool.noConfusion)]

lemma grounded_transition {target : FulfillmentState} {key : EventKey} {time : Option Instant}
    (accepted : target ≠ .manualReview) (delivered : target ≠ .delivered)
    (stored : w.record.proofs ≠ []) :
    Grounded s chain w (.transitionFulfillmentOnce target key time) :=
  ⟨accepted, fun _ => stored, fun last => absurd last delivered⟩

lemma stored_later {w' : World} (later : Later w w') (stored : w.record.proofs ≠ []) :
    w'.record.proofs ≠ [] := by
  intro empty
  have kept := later.proofs
  rw [empty] at kept
  exact stored (List.prefix_nil.1 kept)

/-! ## Stamping -/

/-- Past stamping. -/
def PastStamping (w : World) : Prop :=
  FulfillmentState.calendarPending.rank ≤ w.record.order.fulfillmentState.rank

lemma runs_toPending {key : EventKey} {time : Option Instant} (stored : w.record.proofs ≠ []) :
    Runs s chain tag (fun _ => PastStamping)
      (do let _ ← transition .calendarPending key time
          pure ()) w := by
  refine runs_transition (fun w' later _ => grounded_transition (by decide) (by decide)
    (stored_later later stored)) fun w' _ _ reached => ?_
  exact fun w'' later _ => Nat.le_trans reached later.progress

lemma runs_stampReplay {w₀ : World} (healthy : Healthy s chain w₀) (later : Later w₀ w)
    (healthy' : Healthy s chain w) {latest : StoredProof Instant} (read : Read w latest) :
    Runs s chain tag (fun _ => PastStamping)
      (stampReplay s (fulfillmentOrder w₀.record.order) latest) w := by
  obtain ⟨valid, target, submitted⟩ := read_sound healthy' read
  rw [later.snapshot] at valid target
  have stored : w.record.proofs ≠ [] := by
    obtain ⟨p, member, -⟩ := read.row
    exact List.ne_nil_of_mem member
  have agrees : ¬((fulfillmentOrder w₀.record.order).calendarSubmittedAt.any
      (fun time => time != latest.calendarSubmittedAt)) = true := by
    change ¬(w₀.record.order.calendarSubmittedAt.any _) = true
    cases known : w₀.record.order.calendarSubmittedAt with
    | none => exact Bool.noConfusion
    | some time =>
      have same := later.submitted time known
      rw [submitted] at same
      cases same
      simp
  refine runs_check (fun invalid => ?_) (runs_check (fun differs => differs target)
    (runs_check agrees ?_))
  · change validateExactProof _ w₀.record.order.snapshot.manifestDigest _ _ = false at invalid
    rw [valid] at invalid
    exact Bool.noConfusion invalid
  · split
    · refine runs_transition (fun w' later' _ => grounded_transition (by decide) (by decide)
        (stored_later later' stored)) fun w' later' _ _ => ?_
      exact runs_toPending (stored_later later' stored)
    · split
      · exact runs_toPending stored
      · next queued stamping =>
        refine fun w' later' _ => Nat.le_trans ?_ (later.trans later').progress
        have begun := healthy.begun
        change w₀.record.order.fulfillmentState ≠ .queued at queued
        change w₀.record.order.fulfillmentState ≠ .stamping at stamping
        revert begun queued stamping
        cases w₀.record.order.fulfillmentState <;> decide

/-- From the calendar submission on: a valid answer is stored and the order moves on. -/
lemma runs_stampSubmit {job : ClaimedJob} {snapshot : OrderSnapshot}
    (known : Known job w.record.tables) (named : w.record.order.snapshot = snapshot) :
    Runs s chain (some job) (fun _ => PastStamping) (stampSubmit s snapshot) w := by
  refine guarded_ask (q := .stampExactDigest snapshot.manifestDigest) (fun _ _ _ => trivial)
    fun w₁ env later _ honest _ _ moves => ?_
  have answers := honest.answer
  simp only [HonestAnswer] at answers
  simp only [perform, answer] at moves ⊢
  cases stamped : env.stamp with
  | error e =>
    rw [stamped] at answers
    change e = .unavailable at answers
    rw [answers]
    exact fun _ _ _ => trivial
  | ok pending =>
    rw [stamped] at answers
    change validateExactProof s.platform snapshot.manifestDigest pending.proofBytes none = true
      at answers
    refine runs_check (fun invalid => ?_) ?_
    · rw [answers] at invalid
      exact Bool.noConfusion invalid
    · rw [makeStoredProof_valid le_rfl answers]
      refine runs_appendOnce (known_later (later.trans moves).jobs known)
        (fun w₂ later₂ => ?_) fun w₃ _ _ member => ?_
      · have same : w₂.record.order.snapshot = snapshot :=
          ((later.trans moves).trans later₂).snapshot.trans named
        refine ⟨?_, ?_, rfl⟩
        · rw [same]
        · rw [same]
          exact validate_checksum answers
      · have stored := List.ne_nil_of_mem member
        refine runs_transition (fun w₄ later₄ _ => grounded_transition (by decide) (by decide)
          (stored_later later₄ stored)) fun w₄ later₄ _ _ => ?_
        exact runs_toPending (stored_later later₄ stored)

lemma runs_stampHandler {job : ClaimedJob} (known : Known job w.record.tables) :
    Runs s chain (some job) (fun _ => PastStamping) (stampHandler s) w := by
  refine runs_load fun w₀ later₀ healthy₀ => runs_latest fun w₁ later₁ healthy₁ => ?_
  have known₁ := known_later (later₀.trans later₁).jobs known
  cases shown : FulfillmentAdapters.latest w₁.record with
  | some latest =>
    obtain ⟨p, -, read, -⟩ := read_latest shown
    exact runs_stampReplay healthy₀ later₁ healthy₁ read
  | none =>
    refine runs_check (fun unpaid => unpaid healthy₀.paid) ?_
    by_cases queued : w₀.record.order.fulfillmentState = .queued
    · rw [if_pos (show (fulfillmentOrder w₀.record.order).state.fulfillment = .queued from queued)]
      refine runs_stampStart known₁ fun w₂ later₂ _ stamping => ?_
      have known₂ := known_later later₂.jobs known₁
      exact runs_checkHeld (fun state => ⟨known₂, fun holds => state (stamping holds)⟩)
        fun _ => runs_stampSubmit known₂ rfl
    · rw [if_neg (show ¬(fulfillmentOrder w₀.record.order).state.fulfillment = .queued from queued)]
      have early : ¬FulfillmentState.calendarPending.rank ≤
          w₀.record.order.fulfillmentState.rank := by
        intro pending
        obtain ⟨proof, found⟩ := latest_isSome healthy₁ (Nat.le_trans pending later₁.progress)
        rw [shown] at found
        cases found
      have stamping : w₀.record.order.fulfillmentState = .stamping := by
        have begun := healthy₀.begun
        revert begun queued early
        cases w₀.record.order.fulfillmentState <;> decide
      change Runs s chain (some job) _ (if w₀.record.order.fulfillmentState ≠ .stamping then
        manualReview "stamp_state_invalid" else stampSubmit s w₀.record.order.snapshot) w₁
      exact runs_check (fun other => other stamping) (runs_stampSubmit known₁ later₁.snapshot)

/-! ## Verifying one more time -/

/-- A version that is verified already is verified again, for the same block. -/
lemma answers_verified {version : Nat} {b : BlockEvidence Instant} {proof : StoredProof Instant}
    (healthy : Healthy s chain w) (commits : Commits chain w version b) (read : Read w proof)
    (same : proof.version = version) {v : BitcoinVerification Instant}
    (answers : chain.Answers w.clock w.tip proof.proofBytes (.ok v)) :
    ∃ e, v = .verified e ∧ e.block = b ∧ e.verifiedAt = w.clock ∧
      e.confirmations + b.blockHeight = w.tip + 1 := by
  obtain ⟨p, member, versioned, block⟩ := commits.bytes
  obtain ⟨q, member', versioned', -, bytes, -⟩ := read.row
  have equal : p = q := version_unique healthy member member' (by omega)
  rw [equal, bytes] at block
  cases v with
  | unverified method confirmations =>
    simp only [Chain.Answers, block, Option.all_some, decide_eq_true_eq] at answers
    have := commits.confirmed
    omega
  | verified e =>
    obtain ⟨named, now, count, -⟩ := answers
    rw [block] at named
    cases named
    exact ⟨e, rfl, rfl, now, count⟩

lemma commits_of_answer {proof : StoredProof Instant} (read : Read w proof) {e : Evidence Instant}
    (answers : chain.Answers w.clock w.tip proof.proofBytes (.ok (.verified e))) :
    Commits chain w proof.version e.block ∧ e.confirmations + e.blockHeight ≤ w.tip + 1 ∧
      e.verifiedAt ≤ w.clock := by
  obtain ⟨named, now, count, enough⟩ := answers
  obtain ⟨p, member, versioned, -, bytes, -⟩ := read.row
  refine ⟨⟨⟨p, member, versioned, by rw [bytes]; exact named⟩, ?_⟩, count.le, now.le⟩
  change e.blockHeight + chain.minimum ≤ w.tip + 1
  omega

lemma latest_of_verified (healthy : Healthy s chain w)
    (verified : FulfillmentState.bitcoinVerified.rank ≤ w.record.order.fulfillmentState.rank)
    {proof : StoredProof Instant} (shown : FulfillmentAdapters.latest w.record = some proof) :
    ∃ v o, w.record.verification proof.version = some v ∧
      w.record.latestObservation proof.version = some o ∧
        proof.verification = some (verificationOf v o) := by
  obtain ⟨p, v, found, verification, observed⟩ := complete_iff.1 (healthy.complete verified)
  obtain ⟨o, latest⟩ := Option.isSome_iff_exists.1 (latestObservation_isSome.2 observed)
  have state := state_of_rank verified healthy.accepted
  have shows : (w.record.order.fulfillmentState == .bitcoinVerified ||
      w.record.order.fulfillmentState == .delivered) = true := by
    rcases state with state | state <;> rw [state] <;> rfl
  rw [FulfillmentAdapters.latest, found, Option.map_some] at shown
  cases shown
  refine ⟨v, o, verification, latest, ?_⟩
  simp only [storedProof, shows, verification, Option.bind_some, latest, if_true]

lemma verification_commits (healthy : Healthy s chain w) {version : Nat} {v : ProofVerification}
    (found : w.record.verification version = some v) :
    Commits chain w version v.block ∧ v.verifiedAt ≤ w.clock := by
  have member := List.mem_of_find?_eq_some found
  have same := List.find?_some found
  simp only [beq_iff_eq] at same
  rw [← same]
  exact healthy.verified v member

lemma runs_reverify {w₀ : World} (later : Later w₀ w) (healthy : Healthy s chain w)
    {latest : StoredProof Instant} (shown : FulfillmentAdapters.latest w.record = some latest)
    (state : w₀.record.order.fulfillmentState = .bitcoinVerified ∨
      w₀.record.order.fulfillmentState = .delivered) :
    Runs s chain tag (fun _ _ => True) (reverify s (fulfillmentOrder w₀.record.order) latest) w := by
  have verified : FulfillmentState.bitcoinVerified.rank ≤
      w₀.record.order.fulfillmentState.rank := by
    rcases state with state | state
    · rw [state]
    · rw [state]
      decide
  obtain ⟨v, o, found, -, evidence⟩ :=
    latest_of_verified healthy (Nat.le_trans verified later.progress) shown
  obtain ⟨-, -, read, -⟩ := read_latest shown
  obtain ⟨commits, before⟩ := verification_commits healthy found
  refine runs_verify fun w₁ answer later₁ healthy₁ answers => ?_
  obtain ⟨e, rfl, block, now, count⟩ := answers_verified healthy₁ (commits_later later₁ commits)
    (read_later later₁ read) rfl answers
  have again : sameReverificationEvidence latest.verification e = true := by
    have earlier : v.verifiedAt ≤ e.verifiedAt := by
      rw [now]
      exact before.trans later₁.clock
    rw [evidence]
    simp only [sameReverificationEvidence, Option.any_some, Bool.and_eq_true, beq_iff_eq,
      decide_eq_true_eq]
    exact ⟨block, earlier⟩
  refine runs_check (fun differs => ?_) ?_
  · rw [again] at differs
    exact Bool.noConfusion differs
  · obtain ⟨commits₁, count₁, -⟩ := commits_of_answer (read_later later₁ read) answers
    refine runs_recordObservation commits₁ count₁ fun w₂ _ later₂ _ => ?_
    refine runs_transition (fun w₃ later₃ healthy₃ => ?_) fun w₃ _ _ _ => fun _ _ _ => trivial
    have progress := ((later.trans later₁).trans (later₂.trans later₃)).progress
    refine ⟨?_, fun _ => healthy₃.pending ?_, fun _ => progress⟩
    · change w₀.record.order.fulfillmentState ≠ .manualReview
      rcases state with state | state <;> simp [state]
    · exact Nat.le_trans (Nat.le_trans (by decide) verified) progress

/-! ## Upgrading -/

lemma runs_confirmUpgrade {digest : ManifestDigest} {latest : StoredProof Instant}
    (read : Read w latest) :
    Runs s chain tag (fun _ _ => True) (confirmUpgrade s digest latest) w := by
  refine runs_verify fun w₁ answer later₁ _ answers => ?_
  cases answer with
  | unverified => exact fun _ _ _ => trivial
  | verified e =>
    obtain ⟨commits, count, recent⟩ := commits_of_answer (read_later later₁ read) answers
    refine guarded_ask (q := .putVerifiedOnce latest.version (.verified e))
      (fun w₂ later₂ _ => ?_) fun w₂ env later₂ _ _ _ _ moves => ?_
    · rintro e' same
      cases same
      exact ⟨commits_later later₂ commits, recent.trans later₂.clock⟩
    · have onward := later₂.trans moves
      refine runs_adapter fun _ _ => ?_
      refine runs_recordObservation (commits_later onward commits)
        (count.trans (Nat.succ_le_succ onward.tip)) fun w₃ _ later₃ _ => ?_
      obtain ⟨p, member, -⟩ := read.row
      have stored := stored_later (later₁.trans (onward.trans later₃)) (List.ne_nil_of_mem member)
      exact runs_transition (fun w₄ later₄ _ => grounded_transition (by decide) (by decide)
        (stored_later later₄ stored)) fun _ _ _ _ => fun _ _ _ => trivial

lemma read_of_member {proof : StoredProof Instant} (member : newVersion proof ∈ w.record.proofs) :
    Read w proof := ⟨newVersion proof, member, rfl, rfl, rfl, rfl, rfl⟩

lemma runs_upgradePending {job : ClaimedJob} {snapshot : OrderSnapshot}
    {latest : StoredProof Instant} (known : Known job w.record.tables)
    (named : w.record.order.snapshot = snapshot) (read : Read w latest) :
    Runs s chain (some job) (fun _ _ => True) (upgradePending s snapshot latest) w := by
  refine guarded_ask (q := .upgradeExactDigest snapshot.manifestDigest latest.proofBytes)
    (fun _ _ _ => trivial) fun w₁ env later _ honest _ _ moves => ?_
  have onward := later.trans moves
  have answers := honest.answer
  simp only [HonestAnswer] at answers
  simp only [perform, answer] at moves onward ⊢
  cases upgraded : env.upgrade with
  | error e =>
    rw [upgraded] at answers
    change e = .unavailable at answers
    rw [answers]
    exact fun _ _ _ => trivial
  | ok upgradedBytes =>
    rw [upgraded] at answers
    change validateExactProof s.platform snapshot.manifestDigest upgradedBytes none = true
      at answers
    refine runs_check (fun invalid => ?_) ?_
    · rw [answers] at invalid
      exact Bool.noConfusion invalid
    · by_cases unchanged : upgradedBytes = latest.proofBytes
      · rw [if_pos unchanged]
        exact runs_confirmUpgrade (read_later onward read)
      · rw [if_neg unchanged, makeStoredProof_valid (Nat.succ_pos _) answers]
        refine runs_appendOnce (known_later onward.jobs known) (fun w₂ later₂ => ?_)
          fun w₃ _ _ member => runs_confirmUpgrade (read_of_member member)
        have same : w₂.record.order.snapshot = snapshot :=
          (onward.trans later₂).snapshot.trans named
        refine ⟨?_, ?_, rfl⟩
        · rw [same]
        · rw [same]
          exact validate_checksum answers

lemma runs_upgradeHandler {job : ClaimedJob} (known : Known job w.record.tables)
    (pending : PastStamping w) :
    Runs s chain (some job) (fun _ _ => True) (upgradeHandler s) w := by
  refine runs_load fun w₀ later₀ healthy₀ => runs_latest fun w₁ later₁ healthy₁ => ?_
  have pending₀ : PastStamping w₀ := Nat.le_trans pending later₀.progress
  obtain ⟨latest, shown⟩ := latest_isSome healthy₁ (Nat.le_trans pending₀ later₁.progress)
  obtain ⟨-, -, read, -⟩ := read_latest shown
  obtain ⟨valid, -, submitted⟩ := read_sound healthy₁ read
  rw [later₁.snapshot] at valid
  obtain ⟨p, member, time⟩ := submitted_of_pending healthy₀ pending₀
  have agrees : w₀.record.order.calendarSubmittedAt = some latest.calendarSubmittedAt := by
    rw [time, ← later₁.submitted _ time, submitted]
  rw [shown]
  refine runs_check (fun invalid => ?_) (runs_check (fun differs => differs agrees) ?_)
  · change validateExactProof _ w₀.record.order.snapshot.manifestDigest _ _ = false at invalid
    rw [valid] at invalid
    exact Bool.noConfusion invalid
  · by_cases state : w₀.record.order.fulfillmentState = .bitcoinVerified ∨
        w₀.record.order.fulfillmentState = .delivered
    · rw [if_pos (show (fulfillmentOrder w₀.record.order).state.fulfillment = .bitcoinVerified ∨
        (fulfillmentOrder w₀.record.order).state.fulfillment = .delivered from state)]
      exact runs_reverify later₁ healthy₁ shown state
    · rw [if_neg (show ¬((fulfillmentOrder w₀.record.order).state.fulfillment = .bitcoinVerified ∨
        (fulfillmentOrder w₀.record.order).state.fulfillment = .delivered) from state)]
      refine runs_check (fun other => ?_)
        (runs_upgradePending (known_later (later₀.trans later₁).jobs known) later₁.snapshot read)
      change w₀.record.order.fulfillmentState ≠ .calendarPending at other
      have accepted := healthy₀.accepted
      unfold PastStamping at pending₀
      revert pending₀ state other accepted
      cases w₀.record.order.fulfillmentState <;> decide

/-! ## Delivery -/

lemma calm_enqueueMilestone (kind : NotificationKind) (snapshot : OrderSnapshot)
    (version confirmations : Nat) :
    Calm (fun _ => True) (enqueueMilestone kind snapshot version confirmations) :=
  calm_bind (calm_valueError _) fun _ _ => calm_bind (calm_call fun _ _ _ => trivial)
    fun _ _ => calm_adapter _

/-- The row of the verification with its latest observation, or an error of the adapter. -/
lemma runs_getVerified {version : Nat} {v : ProofVerification}
    {f : Option (Evidence Instant) → Handler α}
    (found : w.record.verification version = some v)
    (next : ∀ w' o, Later w w' → Healthy s chain w' →
      Undisturbed s tag w' (.getVerified version) →
        w'.record.verification version = some v → w'.record.latestObservation version = some o →
          Runs s chain tag post (f (some (verificationOf v o))) w') :
    Runs s chain tag post (getVerifiedRow version >>= fun reply => adapter reply >>= f) w := by
  refine guarded_read (q := .getVerified version) (fun _ => trivial)
    fun w' _ later healthy undisturbed => ?_
  have still := verification_later later found
  change Runs s chain tag post (adapter (getVerified version w'.record) >>= f) w'
  refine runs_adapter fun row got => ?_
  unfold getVerified at got
  rw [still] at got
  cases observed : w'.record.latestObservation version with
  | none =>
    simp only [observed] at got
    cases got
  | some o =>
    simp only [observed] at got
    split at got
    · cases got
    · cases got
      exact next w' o later healthy undisturbed still observed

/-- An observation that is older than a world is in it, and if it is the latest one later it
was the latest one then. -/
lemma latestObservation_of_older {w' : World} (later : Later w w') (healthy : Healthy s chain w')
    {version : Nat} {o o' : Observation} (before : w.record.latestObservation version = some o)
    (after : w'.record.latestObservation version = some o') (older : o'.createdAt < w.clock) :
    o = o' := by
  obtain ⟨more, rows, recent⟩ := later.observations
  obtain ⟨member, same⟩ := mem_of_latestObservation before
  obtain ⟨member', same'⟩ := mem_of_latestObservation after
  have kept : o ∈ w'.record.observations := by
    rw [rows]
    exact List.mem_append_left _ member
  have old : o' ∈ w.record.observations := by
    rw [rows] at member'
    rcases List.mem_append.1 member' with old | new
    · exact old
    · exact absurd (recent o' new) (Int.not_le.2 older)
  have below : o'.order ≤ o.order :=
    List.le_of_mem_argmax (List.mem_filter.2 ⟨old, by simpa using same'⟩) before
  have above : o.order ≤ o'.order :=
    List.le_of_mem_argmax (List.mem_filter.2 ⟨kept, by simpa using same⟩) after
  have equal := le_antisymm below above
  have ids : o'.id = o.id :=
    congrArg (fun order => (ofLex (ofLex order).2).2) equal
  exact List.inj_on_of_nodup_map healthy.identified kept member' ids.symm

lemma runs_deliver {snapshot : OrderSnapshot} {proof : StoredProof Instant}
    (observed : ∃ o ∈ w.record.observations, o.proofVersion = proof.version) :
    Runs s chain tag (fun _ _ => True) (deliver s snapshot proof) w := by
  refine guarded_read (q := .latestObservation proof.version) (fun _ => trivial)
    fun w₁ _ later₁ _ _ => ?_
  obtain ⟨more, rows, -⟩ := later₁.observations
  obtain ⟨o, member, same⟩ := observed
  have kept : o ∈ w₁.record.observations := by
    rw [rows]
    exact List.mem_append_left _ member
  obtain ⟨latest, found⟩ :=
    Option.isSome_iff_exists.1 (latestObservation_isSome.2 ⟨o, kept, same⟩)
  simp only [answer, found]
  refine runs_valueError fun receipt _ => runs_valueError fun bundle _ => ?_
  refine guarded_ask (q := .putOnce proof.version bundle) (fun _ _ _ => trivial)
    fun w₂ env _ _ _ _ _ _ => runs_adapter fun _ _ => ?_
  exact runs_of_calm (calm_enqueueMilestone _ _ _ _)

/-- A delivery attempt that still holds its lease finds at its second read what it saw at
the first. -/
lemma runs_deliveryHandler {job : ClaimedJob} (known : Known job w.record.tables)
    (kind : job.spec.kind = .deliverTimestamp) (begun : started job ≤ w.clock)
    (verified : FulfillmentState.bitcoinVerified.rank ≤ w.record.order.fulfillmentState.rank) :
    Runs s chain (some job) (fun _ _ => True) (deliveryHandler s) w := by
  refine runs_load fun w₀ later₀ healthy₀ => ?_
  have verified₀ := Nat.le_trans verified later₀.progress
  have state := state_of_rank verified₀ healthy₀.accepted
  have pending₀ : PastStamping w₀ := Nat.le_trans (by decide) verified₀
  obtain ⟨p, member, time⟩ := submitted_of_pending healthy₀ pending₀
  refine runs_check (fun other => ?_) (runs_check (fun missing => ?_) ?_)
  · change w₀.record.order.fulfillmentState ≠ .bitcoinVerified ∧
      w₀.record.order.fulfillmentState ≠ .delivered at other
    exact state.elim other.1 other.2
  · change w₀.record.order.calendarSubmittedAt = none at missing
    rw [time] at missing
    cases missing
  · refine runs_latest fun w₁ later₁ healthy₁ => ?_
    have verified₁ := Nat.le_trans verified₀ later₁.progress
    obtain ⟨proof, shown⟩ := latest_isSome healthy₁ (Nat.le_trans pending₀ later₁.progress)
    obtain ⟨-, -, read, -⟩ := read_latest shown
    obtain ⟨-, -, submitted⟩ := read_sound healthy₁ read
    obtain ⟨v, o, found, observed, evidence⟩ := latest_of_verified healthy₁ verified₁ shown
    have agrees : w₀.record.order.calendarSubmittedAt = some proof.calendarSubmittedAt := by
      rw [time, ← later₁.submitted _ time, submitted]
    rw [shown]
    refine runs_check (fun differs => differs agrees.symm) ?_
    refine runs_getVerified found fun w₂ o' later₂ healthy₂ undisturbed _ observed' => ?_
    have known₂ := known_later (later₀.trans (later₁.trans later₂)).jobs known
    refine runs_checkHeld (fun differs => ⟨known₂, fun holds => differs ?_⟩) fun _ => ?_
    · have older : o'.createdAt < w₁.clock :=
        lt_of_lt_of_le (undisturbed job rfl kind holds o' observed')
          (begun.trans (later₀.trans later₁).clock)
      rw [← latestObservation_of_older later₂ healthy₂ observed observed' older]
      exact evidence
    · obtain ⟨member', version⟩ := mem_of_latestObservation observed'
      exact runs_deliver ⟨o', member', version⟩

/-! ## Monitoring -/

lemma runs_confirmAgain {snapshot : OrderSnapshot} {proof : StoredProof Instant}
    {v : ProofVerification} {o previous : Observation} (healthy : Healthy s chain w)
    (read : Read w proof) (found : w.record.verification proof.version = some v)
    (observed : previous ∈ w.record.observations)
    (version : previous.proofVersion = proof.version) :
    Runs s chain tag (fun _ _ => True)
      (confirmAgain s snapshot proof (verificationOf v o) previous) w := by
  obtain ⟨commits, before⟩ := verification_commits healthy found
  refine runs_verify fun w₁ answer later₁ healthy₁ answers => ?_
  have read₁ := read_later later₁ read
  obtain ⟨e, rfl, block, now, count⟩ :=
    answers_verified healthy₁ (commits_later later₁ commits) read₁ rfl answers
  have again : sameReverificationEvidence (some (verificationOf v o)) e = true := by
    have earlier : v.verifiedAt ≤ e.verifiedAt := by
      rw [now]
      exact before.trans later₁.clock
    simp only [sameReverificationEvidence, Option.any_some, Bool.and_eq_true, beq_iff_eq,
      decide_eq_true_eq]
    exact ⟨block, earlier⟩
  have more : previous.observedConfirmations ≤ e.confirmations := by
    obtain ⟨b, commits', -, bound⟩ := healthy.observed previous observed
    obtain ⟨p, member, versioned, known⟩ := commits.bytes
    obtain ⟨p', member', versioned', known'⟩ := commits'.bytes
    have equal : p = p' := version_unique healthy member member' (by omega)
    rw [equal, known'] at known
    cases known
    have higher := later₁.tip
    omega
  refine runs_check (fun differs => ?_) (runs_check (fun fewer => ?_) ?_)
  · rw [again] at differs
    exact Bool.noConfusion differs
  · exact absurd fewer (Nat.not_lt.2 more)
  · obtain ⟨commits₁, count₁, -⟩ := commits_of_answer read₁ answers
    refine runs_recordObservation commits₁ count₁ fun w₂ observation _ _ => ?_
    split
    · exact fun _ _ _ => trivial
    · exact runs_of_calm (calm_enqueueMilestone _ _ _ _)

lemma runs_confirmationHandler
    (verified : FulfillmentState.bitcoinVerified.rank ≤ w.record.order.fulfillmentState.rank) :
    Runs s chain tag (fun _ _ => True) (confirmationHandler s) w := by
  refine runs_load fun w₀ later₀ healthy₀ => ?_
  have verified₀ := Nat.le_trans verified later₀.progress
  have state := state_of_rank verified₀ healthy₀.accepted
  refine runs_check (fun other => ?_) ?_
  · change w₀.record.order.fulfillmentState ≠ .bitcoinVerified ∧
      w₀.record.order.fulfillmentState ≠ .delivered at other
    exact state.elim other.1 other.2
  · refine runs_latest fun w₁ later₁ healthy₁ => ?_
    have verified₁ := Nat.le_trans verified₀ later₁.progress
    obtain ⟨proof, shown⟩ := latest_isSome healthy₁ (Nat.le_trans (by decide) verified₁)
    obtain ⟨-, -, read, -⟩ := read_latest shown
    obtain ⟨valid, -, -⟩ := read_sound healthy₁ read
    rw [later₁.snapshot] at valid
    obtain ⟨v, o, found, -, -⟩ := latest_of_verified healthy₁ verified₁ shown
    rw [shown]
    refine runs_check (fun invalid => ?_) ?_
    · change validateExactProof _ w₀.record.order.snapshot.manifestDigest _ _ = false at invalid
      rw [valid] at invalid
      exact Bool.noConfusion invalid
    · refine runs_getVerified found fun w₂ o' later₂ _ _ _ observed => ?_
      refine guarded_read (q := .latestObservation proof.version) (fun _ => trivial)
        fun w₃ _ later₃ healthy₃ _ => ?_
      obtain ⟨member, version⟩ := mem_of_latestObservation observed
      obtain ⟨more, rows, -⟩ := later₃.observations
      have kept : o' ∈ w₃.record.observations := by
        rw [rows]
        exact List.mem_append_left _ member
      obtain ⟨previous, latest⟩ :=
        Option.isSome_iff_exists.1 (latestObservation_isSome.2 ⟨o', kept, version⟩)
      obtain ⟨member', version'⟩ := mem_of_latestObservation latest
      simp only [answer, latest]
      have onward := later₂.trans later₃
      exact runs_confirmAgain healthy₃ (read_later onward read)
        (verification_later onward found) member' version'

/-! ## Job handlers -/

lemma runs_now {f : Instant → Handler α}
    (next : ∀ w' now, Later w w' → Healthy s chain w' → Runs s chain tag post (f now) w') :
    Runs s chain tag post (call .now >>= f) w :=
  guarded_ask (q := .now) (fun _ _ _ => trivial)
    fun _ env later _ _ _ after moves => next _ env.now (later.trans moves) after

/-- A program that goes on after another, from what that one left. -/
lemma runs_bind {between : α → World → Prop} {after : β → World → Prop} {p : Handler α}
    {f : α → Handler β} (first : Runs s chain tag between p w)
    (next : ∀ a w', Later w w' → Healthy s chain w' → between a w' →
      Runs s chain tag after (f a) w') : Runs s chain tag after (p >>= f) w := by
  refine safe_bind (safe_mono (fun r w' healthy ended => ?_) (safe_rely first))
  cases r with
  | ok a => exact next a w' ended.1 healthy ended.2
  | error e => cases e <;> exact ended.2

lemma runs_orPoll {handler poll after : Handler Unit}
    (handled : Runs s chain tag (fun _ _ => True) handler w)
    (polled : ∀ w', Later w w' → Runs s chain tag (fun _ _ => True) poll w')
    (afterwards : ∀ w', Later w w' → Runs s chain tag (fun _ _ => True) after w') :
    Runs s chain tag (fun _ _ => True) (orPoll handler poll after) w := by
  refine safe_bind (safe_attempt (safe_mono (fun r w' _ ended => ?_) (safe_rely handled)))
  obtain ⟨later, ended⟩ := ended
  cases r with
  | ok _ => exact afterwards w' later
  | error e =>
    cases e with
    | confirmationPending => exact polled w' later
    | manualReview code =>
      obtain ⟨job, same, lost⟩ := ended
      exact fun w'' later' _ => ⟨job, same, lost_later later'.jobs lost⟩
    | retryable | adapter | dispatchUnavailable | unexpected => exact fun _ _ _ => trivial

lemma runs_enqueueLater {spec : Instant → JobSpec} {at_ : Instant → Instant} (kind : JobKind)
    (kinds : ∀ now, (spec now).kind = kind) (fits : JobFits w.record.order.fulfillmentState kind) :
    Runs s chain tag (fun _ _ => True)
      (do let now ← call .now
          enqueueJob s (spec now) (at_ now)) w := by
  refine runs_now fun w' now later _ => runs_enqueueJob ?_
  rw [kinds now]
  exact jobFits_mono later.progress fits

lemma runs_afterUpgrade (orderId : Nat) :
    Runs s chain tag (fun _ _ => True) (afterUpgrade s orderId) w := by
  refine guarded_read (q := .getForFulfillment) (fun _ => trivial) fun w' _ _ _ _ => ?_
  change Runs s chain tag _ (if w'.record.order.fulfillmentState = .bitcoinVerified then _ else _) w'
  split
  · next verified =>
    exact runs_enqueueLater .deliverTimestamp (fun _ => rfl) (by
      rw [verified]
      exact le_rfl)
  · exact fun _ _ _ => trivial

/-- Every handler of a job that its order is ready for. -/
lemma runs_jobHandler {job : ClaimedJob} {handler : Handler Unit}
    (known : Known job w.record.tables) (begun : started job ≤ w.clock)
    (fits : JobFits w.record.order.fulfillmentState job.spec.kind)
    (found : jobHandler s job.spec.orderId job.spec.kind = some handler) :
    Runs s chain (some job) (fun _ _ => True) handler w := by
  cases kind : job.spec.kind with
  | stampManifestDigest =>
    rw [kind] at found
    cases found
    refine runs_bind (runs_stampHandler known) fun _ w' _ _ pending => ?_
    exact runs_enqueueLater .upgradeTimestamp (fun _ => rfl) pending
  | upgradeTimestamp =>
    rw [kind] at found fits
    cases found
    refine runs_orPoll (runs_upgradeHandler known fits) (fun w' later => ?_)
      fun w' _ => runs_afterUpgrade _
    exact runs_enqueueLater .upgradeTimestamp (fun _ => rfl)
      (jobFits_mono later.progress fits)
  | deliverTimestamp =>
    rw [kind] at found fits
    cases found
    refine runs_bind (runs_deliveryHandler known kind begun fits) fun _ w' later _ _ => ?_
    exact runs_enqueueLater .monitorBitcoinConfirmations (fun _ => rfl)
      (jobFits_mono later.progress fits)
  | monitorBitcoinConfirmations =>
    rw [kind] at found fits
    cases found
    refine runs_orPoll (runs_confirmationHandler fits) (fun w' later => ?_)
      fun w' _ => fun _ _ _ => trivial
    exact runs_enqueueLater .monitorBitcoinConfirmations (fun _ => rfl)
      (jobFits_mono later.progress fits)
  | unknown kind' =>
    rw [kind] at fits
    exact fits.elim

/-! ## The runner and the commands -/

/-- The run did not file a review. -/
def Ended (r : Except Failure RunEnd) (_ : World) : Prop := ∀ code, r ≠ .ok (.manualReview code)

lemma ended_error (e : Failure) (w : World) : Ended (.error e) w := fun _ same => nomatch same

lemma guarded_fail (e : Failure) : Guarded s chain tag Ended (fail e) w :=
  fun w' _ _ => ended_error e w'

lemma ended_of_runs {p : Handler RunEnd}
    (runs : Runs s chain tag (fun a _ => ∀ code, a ≠ .manualReview code) p w) :
    Guarded s chain tag Ended p w := by
  refine safe_mono (fun r w' _ ended => ?_) runs
  cases r with
  | ok a =>
    intro code same
    cases same
    exact ended code rfl
  | error e => exact ended_error e w'

lemma calm_finishJob {s : Services} {job : ClaimedJob} {outcome : JobOutcome} {now : Instant}
    {retryAt : Option Instant} {code : Option String} :
    Calm (fun _ => True) (finishJob s job outcome now retryAt code) :=
  calm_bind (calm_call fun _ _ _ => trivial) fun _ _ =>
    calm_bind (calm_adapter _) fun _ _ => calm_dispatchIf s _

lemma guarded_calmEnd {p : Handler RunEnd} (calm : Calm (fun a => ∀ code, a ≠ .manualReview code) p) :
    Guarded s chain tag Ended p w := by
  refine guarded_of_calm calm (fun a _ fine code same => ?_) fun e w _ => ended_error e w
  cases same
  exact fine code rfl

/-- A failed attempt is retried; a failure of the last attempt is not among the steps here. -/
lemma guarded_retryOrExhaust {job : ClaimedJob} {code : String} :
    Guarded s chain (some job) Ended (retryOrExhaust s job code) w := by
  by_cases exhausted : job.spec.maxAttempts ≤ job.attempt
  · rw [retryOrExhaust, if_pos exhausted]
    intro w' later healthy env allowed
    exact absurd ((allowed.2.2 job rfl).1 rfl) (Nat.not_lt.2 exhausted)
  · rw [retryOrExhaust, if_neg exhausted]
    refine guarded_calmEnd (calm_bind (calm_call fun _ _ _ => trivial) fun _ _ =>
      calm_bind (calm_call fun _ _ _ => trivial) fun _ _ => ?_)
    exact calm_bind calm_finishJob fun _ _ _ same => nomatch same

/-- The lease check comes before anything is filed: who lost the lease files nothing, and who
holds it has not asked for a review. -/
lemma guarded_settleIfHeld {job : ClaimedJob} {result : Except Failure Unit}
    (ended : Reviewless (some job) (fun _ _ => True) result w) :
    Guarded s chain (some job) Ended (settleIfHeld s job result) w := by
  refine guarded_ask (q := .now) (fun _ _ _ => trivial) fun w₁ env later₁ _ _ _ _ moves₁ => ?_
  have onward := later₁.trans moves₁
  refine guarded_ask (q := .heartbeat job (env.now + leaseFor)) (fun _ _ _ => trivial)
    fun w₂ env' later₂ _ _ _ _ _ => ?_
  change Guarded s chain (some job) Ended (if (heartbeat job.id job.leaseOwner job.attempt
    (env.now + leaseFor) w₂.record.tables).1 = true then settle s job result
      else pure RunEnd.leaseLost) (perform s env' (.heartbeat job (env.now + leaseFor)) w₂).2
  by_cases held : (heartbeat job.id job.leaseOwner job.attempt (env.now + leaseFor)
      w₂.record.tables).1 = true
  · rw [if_pos held]
    cases result with
    | ok _ =>
      refine guarded_calmEnd (calm_bind (P := fun _ => True) ?_ fun _ _ _ same => nomatch same)
      exact calm_bind (calm_call fun _ _ _ => trivial) fun _ _ => calm_finishJob
    | error e =>
      cases e with
      | manualReview code =>
        obtain ⟨job', same, lost⟩ := ended
        cases same
        exact absurd (holds_of_heartbeat held) (lost_later (onward.trans later₂).jobs lost).2
      | retryable code => exact guarded_retryOrExhaust
      | confirmationPending | adapter | dispatchUnavailable | unexpected =>
        exact guarded_retryOrExhaust
  · rw [if_neg held]
    exact fun _ _ _ _ same => nomatch same

lemma guarded_runClaimed {job : ClaimedJob} (known : Known job w.record.tables)
    (begun : started job ≤ w.clock)
    (fits : JobFits w.record.order.fulfillmentState job.spec.kind) :
    Guarded s chain (some job) Ended (runClaimed s job) w := by
  unfold runClaimed
  split
  · next missing =>
    cases kind : job.spec.kind with
    | unknown kind' =>
      rw [kind] at fits
      exact fits.elim
    | stampManifestDigest | upgradeTimestamp | deliverTimestamp | monitorBitcoinConfirmations =>
      rw [kind] at missing
      cases missing
  · next handler found =>
    refine safe_bind (safe_attempt (safe_mono (fun r w' _ ended => ?_)
      (runs_jobHandler known begun fits found)))
    exact guarded_settleIfHeld ended

lemma guarded_enqueueProofJob {orderId : Nat} {allowed : List FulfillmentState}
    {jobKey : Nat → JobKey}
    (late : ∀ state ∈ allowed, FulfillmentState.calendarPending.rank ≤ state.rank) :
    Guarded s chain none Ended (enqueueProofJob s orderId allowed jobKey) w := by
  refine guarded_read (q := .getForFulfillment) (fun _ => trivial) fun w₁ _ _ _ _ => ?_
  change Guarded s chain none Ended
    (if w₁.record.order.fulfillmentState ∉ allowed then _ else _) w₁
  split
  · exact guarded_fail _
  · next eligible =>
    have pending := late _ (not_not.1 eligible)
    refine guarded_read (q := .latest) (fun _ => trivial) fun w₂ _ later₂ _ _ => ?_
    cases shown : FulfillmentAdapters.latest w₂.record with
    | none =>
      simp only [answer, shown]
      exact guarded_fail _
    | some proof =>
      simp only [answer, shown]
      refine ended_of_runs (runs_now fun w₃ now later₃ _ => ?_)
      refine runs_bind (runs_enqueueJob (Nat.le_trans pending (later₂.trans later₃).progress))
        fun _ _ _ _ _ => fun _ _ _ _ same => RunEnd.noConfusion same

lemma guarded_operatorReverify {orderId : Nat} {requestId : String} :
    Guarded s chain none Ended (operatorReverify s orderId requestId) w := by
  refine guarded_enqueueProofJob ?_
  decide

lemma guarded_operatorUpgrade {orderId : Nat} :
    Guarded s chain none Ended (operatorUpgrade s orderId) w := by
  refine guarded_enqueueProofJob ?_
  decide

lemma guarded_dispatchCommand {target : Option (Nat × Nat)} :
    Guarded s chain tag Ended (dispatchCommand s target) w :=
  guarded_calmEnd (calm_bind (calm_dispatchIf s target) fun _ _ _ same => nomatch same)

/-! ## Every run -/

variable (s chain) in
def honestSteps : StepCondition Request Env Arriving (Option ClaimedJob) World where
  request tag env q w := Honest s chain env q w ∧ Undisturbed s tag w q
  arrival a w := w.clock ≤ a.now ∧ w.tip ≤ a.tip

instance (tag : Option ClaimedJob) (env : Env) (q : Request) (w : World) :
    Decidable ((honestSteps s chain).request tag env q w) := instDecidableAnd

instance (a : Arriving) (w : World) : Decidable ((honestSteps s chain).arrival a w) :=
  instDecidableAnd

lemma guarded_startJob {r : OrderRecord} {now : Instant} {tip : Nat} (workerId : String)
    {claimed : Option (ClaimedJob × JobTables)}
    (unique : (r.tables.jobs.map DurableJob.id).Nodup)
    (jobs : ∀ job ∈ r.tables.jobs, JobFits r.order.fulfillmentState job.kind)
    (leases : ∀ c, claimed = some c → ∃ row ∈ r.tables.jobs,
      c = lease row workerId now leaseFor r.tables) :
    ∀ run ∈ (startJob s r claimed).2,
      Guarded s chain run.tag Ended run.prog ⟨(startJob s r claimed).1, now, tip⟩ := by
  cases claimed with
  | none => exact fun _ none => absurd none List.not_mem_nil
  | some c =>
    obtain ⟨row, member, rfl⟩ := leases c rfl
    intro run started
    cases List.mem_singleton.1 started
    refine guarded_runClaimed (known_lease _ _ _ (job_of_mem unique member)) ?_ (jobs row member)
    exact (Int.add_sub_cancel now leaseFor).le

lemma arrivals_safe : ArrivalsSafe (workerService s) (honestDiscipline s chain) (fun _ => Ended)
    (honestSteps s chain).arrival := by
  rintro ⟨now, tip, a⟩ w healthy ⟨clock, higher⟩
  obtain ⟨after, moves⟩ := arrive_moves healthy clock higher a
  refine ⟨after, moves, ?_⟩
  have none : ∀ w', ∀ run ∈ ([] : List HandlerRun), Guarded s chain run.tag Ended run.prog w' :=
    fun _ _ none => absurd none List.not_mem_nil
  change ∀ run ∈ (arriveRecord s now w.record a).2, Guarded s chain run.tag Ended run.prog
    ⟨(arriveRecord s now w.record a).1, now, tip⟩
  cases a with
  | claim workerId =>
    exact guarded_startJob workerId healthy.unique healthy.jobs fun _ => claim_leases
  | claimSpecific jobId generation workerId =>
    cases claimed : claimSpecific jobId generation workerId now leaseFor w.record.tables with
    | error e =>
      simp only [arriveRecord, claimed]
      exact none _
    | ok c =>
      simp only [arriveRecord, claimed]
      refine guarded_startJob workerId healthy.unique healthy.jobs fun found taken => ?_
      rw [taken] at claimed
      exact claimSpecific_leases claimed
  | operatorReplay jobId =>
    cases replayed : replay jobId now w.record.tables with
    | error e =>
      simp only [arriveRecord, replayed]
      exact none _
    | ok pair =>
      simp only [arriveRecord, replayed]
      intro run started
      cases List.mem_singleton.1 started
      exact guarded_dispatchCommand
  | recoverStale staleGrace limit =>
    cases recovered : recoverStaleDispatched staleGrace limit now w.record.tables with
    | error e =>
      simp only [arriveRecord, recovered]
      exact none _
    | ok pair =>
      simp only [arriveRecord, recovered]
      intro run started
      obtain ⟨target, -, rfl⟩ := List.mem_map.1 started
      exact guarded_dispatchCommand
  | operatorReverify requestId =>
    intro run started
    cases List.mem_singleton.1 started
    exact guarded_operatorReverify
  | operatorUpgrade =>
    intro run started
    cases List.mem_singleton.1 started
    exact guarded_operatorUpgrade
  | reconcile jobId generation =>
    intro run started
    cases List.mem_singleton.1 started
    exact guarded_dispatchCommand
  | heartbeat | resendEvent | senderAccepted => exact none _

end

/-- A paid order with its stamp job and nothing else yet. -/
structure JustPaid (r : OrderRecord) : Prop where
  paid : r.order.paymentState = .paid
  queued : r.order.fulfillmentState = .queued
  events : ∀ e ∈ r.stateEvents, e.fulfillmentState.rank ≤ FulfillmentState.queued.rank
  proofs : r.proofs = []
  verifications : r.verifications = []
  observations : r.observations = []
  unique : (r.tables.jobs.map DurableJob.id).Nodup
  jobs : ∀ job ∈ r.tables.jobs, job.kind = .stampManifestDigest

lemma healthy_of_justPaid {s : Services} {chain : Chain} {w : World} (paid : JustPaid w.record) :
    Healthy s chain w := by
  have early : ∀ state, FulfillmentState.queued.rank < FulfillmentState.rank state →
      ¬state.rank ≤ w.record.order.fulfillmentState.rank := by
    intro state late
    rw [paid.queued]
    exact Nat.not_le.2 late
  constructor
  · exact paid.paid
  · rw [paid.queued]
  · rw [paid.queued]
    exact FulfillmentState.noConfusion
  · rw [paid.queued]
    exact paid.events
  · rw [paid.proofs]
    exact List.Pairwise.nil
  · rw [paid.proofs]
    exact fun _ none => absurd none List.not_mem_nil
  · exact fun late => absurd late (early _ (by decide))
  · rw [paid.verifications]
    exact fun _ none => absurd none List.not_mem_nil
  · rw [paid.observations]
    exact fun _ none => absurd none List.not_mem_nil
  · rw [paid.observations]
    exact List.nodup_nil
  · exact fun late => absurd late (early _ (by decide))
  · exact paid.unique
  · intro job member
    rw [paid.jobs job member]
    trivial

/-- Overlapping runs on a paid order, in an honest world and undisturbed as stated, never
condemn it: the order does not enter review, and no run that held its lease filed one. -/
theorem honest_runs_never_condemn (s : Services) (chain : Chain)
    (c : Config Request Reply Failure RunEnd (Option ClaimedJob) World)
    (paid : JustPaid c.world.record) (idle : c.runs = []) (moves : List (Move Env Arriving))
    (meets : (honestSteps s chain).MeetsAll (workerService s) moves c) :
    ((workerService s).run moves c).world.record.order.fulfillmentState ≠ .manualReview ∧
      ∀ run ∈ ((workerService s).run moves c).runs, ∀ code,
        run.prog ≠ .done (.manualReview code) := by
  have start : Disciplined (workerService s) (honestDiscipline s chain) (fun _ => Ended) c := by
    refine ⟨healthy_of_justPaid paid, ?_⟩
    rw [idle]
    exact fun _ none => absurd none List.not_mem_nil
  have held := run_disciplined arrivals_safe start meets
  refine ⟨held.inv.accepted, fun run member code filed => ?_⟩
  have safe := held.runs run member
  rw [filed] at safe
  exact safe _ (later_refl _) held.inv code rfl

/-! ## Two runs that overlap

The proofs and the services of the run with overlapping upgrades: every proof with an
attestation of the first block commits to it. -/

def sampleChain : Chain where
  block proofBytes :=
    if proofBytes = stampedBytes then none else some (sampleEvidence (sampleTime 0)).block
  minimum := 1

/-- The stamp job runs to its end, an upgrade job verifies the order, and the operator's
re-verification runs while the upgrade job still files its end. -/
def overlappingReverification : List (Move Env Arriving) :=
  [arriveAt 1 (.claim "worker-a")] ++
  serveTimes 0 13 (sampleEnv 2 2 stampedBytes) ++
  [arriveAt 3 (.claim "worker-a")] ++
  serveTimes 1 8 (sampleEnv 4 3 upgradedBytes) ++
  [arriveAt 5 (.operatorReverify "request")] ++
  serveTimes 2 4 (sampleEnv 6 4 upgradedBytes) ++
  [arriveAt 7 (.claim "worker-b")] ++
  serveTimes 3 4 (sampleEnv 8 5 upgradedBytes) ++
  serveTimes 1 7 (sampleEnv 9 6 upgradedBytes) ++
  serveTimes 3 7 (sampleEnv 10 7 upgradedBytes)

lemma queued_justPaid : JustPaid queuedWorld.world.record :=
  ⟨rfl, rfl, fun _ none => absurd none List.not_mem_nil, rfl, rfl, rfl, by decide, by decide⟩

set_option maxRecDepth 8000 in
theorem overlapping_reverification_is_fine :
    ((workerService sampleServices).run overlappingReverification
        queuedWorld).world.record.order.fulfillmentState = .bitcoinVerified ∧
      ∀ run ∈ ((workerService sampleServices).run overlappingReverification queuedWorld).runs,
        ∀ code, run.prog ≠ .done (.manualReview code) :=
  ⟨by decide, (honest_runs_never_condemn sampleServices sampleChain queuedWorld queued_justPaid rfl
    overlappingReverification (by decide)).2⟩

/-- Every step is honest; nothing is said about what the runs do to each other. -/
def honestOnly (s : Services) (chain : Chain) :
    StepCondition Request Env Arriving (Option ClaimedJob) World where
  request _ env q w := Honest s chain env q w
  arrival a w := w.clock ≤ a.now ∧ w.tip ≤ a.tip

instance (s : Services) (chain : Chain) (tag : Option ClaimedJob) (env : Env) (q : Request)
    (w : World) : Decidable ((honestOnly s chain).request tag env q w) :=
  show Decidable (Honest s chain env q w) from inferInstance

instance (s : Services) (chain : Chain) (a : Arriving) (w : World) :
    Decidable ((honestOnly s chain).arrival a w) := instDecidableAnd

/-- An upgrade job and the operator's upgrade job both hold their leases and get different
valid upgrades of version 1; both bring them to the proof store as version 2. -/
def rivalUpgrades : List (Move Env Arriving) :=
  [arriveAt 1 (.claim "worker-a")] ++
  serveTimes 0 13 (sampleEnv 2 2 stampedBytes) ++
  [arriveAt 3 (.claim "worker-a")] ++
  serveTimes 1 3 (sampleEnv 4 3 upgradedBytes) ++
  [arriveAt 5 .operatorUpgrade] ++
  serveTimes 2 4 (sampleEnv 6 4 upgradedBytes) ++
  [arriveAt 7 (.claim "worker-b")] ++
  serveTimes 3 3 (sampleEnv 8 5 secondUpgradeBytes) ++
  serveTimes 1 1 (sampleEnv 9 6 upgradedBytes) ++
  serveTimes 3 7 (sampleEnv 10 7 secondUpgradeBytes)

/-- The environment once another block is there. -/
def grownEnv (seconds : Int) (freshId : Nat) : Env :=
  { sampleEnv seconds freshId upgradedBytes with
    tip := 101
    verify := .ok (.verified
      { sampleEvidence (sampleTime seconds) with
        confirmations := 102, confirmed := Nat.le_add_left 1 101 }) }

/-- The delivery of the verified order holds its lease and reads the latest proof; before it
reads the verification, the operator's re-verification records an observation of one more
confirmation. -/
def observedDuringDelivery : List (Move Env Arriving) :=
  [arriveAt 1 (.claim "worker-a")] ++
  serveTimes 0 13 (sampleEnv 2 2 stampedBytes) ++
  [arriveAt 3 (.claim "worker-a")] ++
  serveTimes 1 15 (sampleEnv 4 3 upgradedBytes) ++
  [arriveAt 5 (.operatorReverify "request")] ++
  serveTimes 2 4 (sampleEnv 6 4 upgradedBytes) ++
  [arriveAt 7 (.claim "worker-a"), arriveAt 7 (.claim "worker-b")] ++
  serveTimes 3 2 (sampleEnv 8 5 upgradedBytes) ++
  serveTimes 4 4 (grownEnv 9 6) ++
  serveTimes 3 6 (grownEnv 10 7)

def filedReview (run : HandlerRun) : Option String :=
  match run.prog with
  | .done (.manualReview code) => some code
  | _ => none

set_option maxRecDepth 8000 in
/-- All calendar answers are valid and every verification is one of the chain, and yet the
second upgrade, which holds its lease, sends the paid order to review; and so does a delivery
between whose reads the order is verified again. -/
theorem rival_upgrades_condemn :
    JustPaid queuedWorld.world.record ∧ queuedWorld.runs = [] ∧
      ((honestOnly sampleServices sampleChain).MeetsAll (workerService sampleServices)
          rivalUpgrades queuedWorld ∧
        ((workerService sampleServices).run rivalUpgrades queuedWorld).runs.map filedReview =
          [none, none, none, some "proof_append_conflict"] ∧
        ((workerService sampleServices).run rivalUpgrades
          queuedWorld).world.record.order.fulfillmentState = .manualReview) ∧
      (honestOnly sampleServices sampleChain).MeetsAll (workerService sampleServices)
          observedDuringDelivery queuedWorld ∧
        ((workerService sampleServices).run observedDuringDelivery
          queuedWorld).runs.map filedReview =
            [none, none, none, some "delivery_proof_metadata_mismatch", none] ∧
        ((workerService sampleServices).run observedDuringDelivery
          queuedWorld).world.record.order.fulfillmentState = .manualReview :=
  ⟨queued_justPaid, rfl, ⟨by decide, by decide, by decide⟩, by decide, by decide, by decide⟩

end HonestRuns
