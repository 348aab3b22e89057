import SpacerocksCoa.DeliveryGuard
import SpacerocksCoa.HandlerRequests

/-!
# When a proof was submitted and when it was verified

One submission time belongs to an order: every version of its proof carries it, and it is
recorded before anything is verified. So with a clock that does not go back no verification is
older than the submission. A handler verifies bytes that it read earlier and records the answer
later; what it relies on in between is that the submission time of the order stays.
-/
namespace SubmissionTimes
open OrderStates ProofRecords OrderRows JobClaims FulfillmentAdapters NotificationAdapters
open FulfillmentHandlers WorkerRuns PaymentWebhooks OrderStateMachine HandlerRequests
open DeliveryGuard (DeliveryArrival deliveryService arriveDelivery)
open TransactionalPrograms TransactionalPrograms.Prog

/-! ## What the clock shows -/

/-- What a datetime can show: the years from 1 to 9999, in microseconds. -/
def Datetime (t : Instant) : Prop := -62135596800000000 ≤ t ∧ t < 253402300800000000

instance (t : Instant) : Decidable (Datetime t) :=
  inferInstanceAs (Decidable (-62135596800000000 ≤ t ∧ t < 253402300800000000))

/-- The clock does not go back, and what a calendar or a verifier dates is dated in the step. -/
structure Ticks (env : Env) (w : World) : Prop where
  clock : w.clock ≤ env.now
  stamp : ∀ pending, env.stamp = .ok pending →
    pending.calendarSubmittedAt ≤ env.now ∧ Datetime pending.calendarSubmittedAt
  verify : ∀ e, env.verify = .ok (.verified e) → w.clock ≤ e.verifiedAt ∧ Datetime e.verifiedAt

def submitted (w : World) : Option Instant := w.record.order.calendarSubmittedAt

/-- The submission time is past, every version carries it, and no verification is older. -/
structure Timely (w : World) : Prop where
  past : ∀ t, submitted w = some t → t ≤ w.clock ∧ Datetime t
  versions : ∀ p ∈ w.record.proofs,
    submitted w = some p.calendarSubmittedAt ∧ p.verificationMetadata = none
  verified : ∀ v ∈ w.record.verifications,
    (∃ t, submitted w = some t ∧ t ≤ v.verifiedAt) ∧ Datetime v.verifiedAt

/-- The clock goes on and a submission time stays. -/
structure Follows (w w' : World) : Prop where
  clock : w.clock ≤ w'.clock
  submitted : ∀ t, submitted w = some t → submitted w' = some t

theorem follows_refl (w : World) : Follows w w := ⟨le_rfl, fun _ known => known⟩

theorem Follows.trans {a b c : World} (first : Follows a b) (second : Follows b c) :
    Follows a c :=
  ⟨first.clock.trans second.clock, fun t known => second.submitted t (first.submitted t known)⟩

/-- What a request must carry: a submission time that is past, and a verification that is not
older than the submission. -/
def Justified (w : World) : Request → Prop
  | .transitionFulfillmentOnce _ _ time => ∀ t, time = some t → t ≤ w.clock ∧ Datetime t
  | .append proof => (proof.calendarSubmittedAt ≤ w.clock ∧ Datetime proof.calendarSubmittedAt) ∧
    proof.verification = none
  | .putVerifiedOnce _ (.verified e) =>
    (∃ t, submitted w = some t ∧ t ≤ e.verifiedAt) ∧ Datetime e.verifiedAt
  | _ => True

def timelyDiscipline : Discipline Request Env (Option ClaimedJob) World where
  inv := Timely
  rely := Follows
  rely_refl := follows_refl
  rely_trans := Follows.trans
  allowed _ env _ w := Ticks env w

/-! ## One step -/

/-- The three things are left as they are. -/
structure Steady (r r' : OrderRecord) : Prop where
  submitted : r'.order.calendarSubmittedAt = r.order.calendarSubmittedAt
  proofs : r'.proofs = r.proofs
  verifications : r'.verifications = r.verifications

theorem steady_refl (r : OrderRecord) : Steady r r := ⟨rfl, rfl, rfl⟩

/-- What a step makes of the submission time and the rows. -/
structure Keeps (w w' : World) : Prop where
  timely : Timely w'
  follows : Follows w w'

theorem keeps_of_steady {w w' : World} (timely : Timely w) (clock : w.clock ≤ w'.clock)
    (steady : Steady w.record w'.record) : Keeps w w' := by
  have same : submitted w' = submitted w := steady.submitted
  refine ⟨⟨?_, ?_, ?_⟩, clock, ?_⟩
  · intro t known
    rw [same] at known
    exact ⟨(timely.past t known).1.trans clock, (timely.past t known).2⟩
  · intro p member
    rw [steady.proofs] at member
    rw [same]
    exact timely.versions p member
  · intro v member
    rw [steady.verifications] at member
    rw [same]
    exact timely.verified v member
  · intro t known
    rw [same]
    exact known

/-- A submission time is merged into the order; the rows stay. -/
theorem keeps_of_merge {w w' : World} {time : Option Instant} (timely : Timely w)
    (clock : w.clock ≤ w'.clock) (past : ∀ t, time = some t → t ≤ w.clock ∧ Datetime t)
    (merged : submitted w' = (submitted w).or time) (proofs : w'.record.proofs = w.record.proofs)
    (verifications : w'.record.verifications = w.record.verifications) : Keeps w w' := by
  have kept : ∀ t, submitted w = some t → submitted w' = some t := by
    intro t known
    rw [merged, known]
    rfl
  refine ⟨⟨?_, ?_, ?_⟩, clock, kept⟩
  · intro t known
    rw [merged] at known
    cases before : submitted w with
    | none =>
      rw [before] at known
      exact ⟨(past t known).1.trans clock, (past t known).2⟩
    | some t' =>
      rw [before] at known
      cases known
      exact ⟨(timely.past _ before).1.trans clock, (timely.past _ before).2⟩
  · intro p member
    rw [proofs] at member
    exact ⟨kept _ (timely.versions p member).1, (timely.versions p member).2⟩
  · intro v member
    rw [verifications] at member
    obtain ⟨⟨t, known, before⟩, shown⟩ := timely.verified v member
    exact ⟨⟨t, kept t known, before⟩, shown⟩

section
variable {s : Services} {env : Env} {w : World}

theorem transition_keeps {target : FulfillmentState} {key : EventKey} {time : Option Instant}
    (timely : Timely w) (ticks : Ticks env w)
    (past : ∀ t, time = some t → t ≤ w.clock ∧ Datetime t) :
    Keeps w (perform s env (.transitionFulfillmentOnce target key time) w).2 := by
  simp only [perform, answer]
  cases done : transitionFulfillmentOnce s.platform target key time env.now w.record with
  | error e => exact keeps_of_steady timely ticks.clock (steady_refl _)
  | ok result =>
    obtain ⟨value, r'⟩ := result
    obtain ⟨-, merged, merge, cases'⟩ := transitionFulfillmentOnce_ok done
    have times := congrArg Order.calendarSubmittedAt (mergeCalendarTime_ok merge).1
    rcases cases' with ⟨rfl, -⟩ | ⟨-, -, -, -, rfl, -⟩
    · exact keeps_of_merge timely ticks.clock past times rfl rfl
    · exact keeps_of_merge timely ticks.clock past times rfl rfl

theorem append_keeps {proof : StoredProof Instant} (timely : Timely w) (ticks : Ticks env w)
    (past : proof.calendarSubmittedAt ≤ w.clock ∧ Datetime proof.calendarSubmittedAt)
    (bare : proof.verification = none) :
    Keeps w (perform s env (.append proof) w).2 := by
  simp only [perform, answer]
  cases done : FulfillmentAdapters.append proof w.record with
  | error e => exact keeps_of_steady timely ticks.clock (steady_refl _)
  | ok r' =>
    obtain ⟨order, merge, -, cases'⟩ := append_ok done
    obtain ⟨merged, agrees⟩ := mergeCalendarTime_ok merge
    have times := congrArg Order.calendarSubmittedAt merged
    have supplied : ∀ t, some proof.calendarSubmittedAt = some t → t ≤ w.clock ∧ Datetime t := by
      rintro _ ⟨⟩
      exact past
    have base : Keeps w ⟨{ w.record with order := order }, env.now, env.tip⟩ :=
      keeps_of_merge timely ticks.clock supplied times rfl rfl
    rcases cases' with ⟨rfl, -⟩ | ⟨rfl, -⟩
    · exact base
    · have stored : order.calendarSubmittedAt = some proof.calendarSubmittedAt := by
        rw [times]
        cases before : w.record.order.calendarSubmittedAt with
        | none => rfl
        | some t =>
          have same := agrees t before
          simp only [Option.all_some, beq_iff_eq] at same
          rw [same]
          rfl
      refine ⟨⟨base.timely.past, ?_, ?_⟩, base.follows.clock, base.follows.submitted⟩
      · intro p member
        rcases List.mem_append.1 member with old | new
        · exact base.timely.versions p old
        · rw [List.mem_singleton.1 new]
          exact ⟨stored, bare⟩
      · intro v member
        simp only [commitUnit, insertProof, bare, Option.map_none, Option.toList_none,
          List.append_nil] at member
        exact base.timely.verified v member

theorem putVerifiedOnce_keeps {version : Nat} {result : BitcoinVerification Instant}
    (timely : Timely w) (ticks : Ticks env w)
    (justified : Justified w (.putVerifiedOnce version result)) :
    Keeps w (perform s env (.putVerifiedOnce version result) w).2 := by
  simp only [perform, answer]
  have base : Keeps w ⟨w.record, env.now, env.tip⟩ :=
    keeps_of_steady timely ticks.clock (steady_refl _)
  cases done : putVerifiedOnce version result w.record with
  | error e => exact base
  | ok r' =>
    obtain ⟨e, _, rfl, -, -, -, cases'⟩ := putVerifiedOnce_ok done
    rcases cases' with ⟨rfl, -⟩ | ⟨-, rfl⟩
    · exact base
    · refine ⟨⟨base.timely.past, base.timely.versions, ?_⟩, base.follows.clock,
        base.follows.submitted⟩
      intro v member
      rcases List.mem_append.1 member with old | new
      · exact base.timely.verified v old
      · rw [List.mem_singleton.1 new]
        exact justified

theorem recordOnce_steady {version : Nat} {key : ObservationKey}
    {verification : BitcoinVerification Instant} {now : Instant} {freshId : Nat}
    (r : OrderRecord) :
    Steady r (commit r (recordOnce version key verification now freshId r)).2 := by
  cases done : recordOnce version key verification now freshId r with
  | error e => exact steady_refl r
  | ok result =>
    obtain ⟨_, _, _, _, _, _, _, _, cases'⟩ := recordOnce_ok done
    rcases cases' with ⟨same, -⟩ | ⟨-, -, -, added⟩
    · rw [commit, same]
      exact steady_refl r
    · rw [commit, added]
      exact ⟨rfl, rfl, rfl⟩

theorem enqueue_steady {message : OutboxMessage} {now : Instant} {freshId : Nat}
    (r : OrderRecord) : Steady r (commitUnit r (enqueue message now freshId r)).2 := by
  cases done : enqueue message now freshId r with
  | error e => exact steady_refl r
  | ok r' =>
    obtain ⟨_, -, same | added⟩ := enqueue_ok done
    · rw [commitUnit, same]
      exact steady_refl r
    · rw [commitUnit, added]
      exact ⟨rfl, rfl, rfl⟩

theorem putOnce_steady {p : Platform} {version : Nat} {bundle : Bytes} (r : OrderRecord) :
    Steady r (commitUnit r (putOnce p version bundle r)).2 := by
  cases done : putOnce p version bundle r with
  | error e => exact steady_refl r
  | ok r' =>
    obtain ⟨-, ⟨same, -⟩ | ⟨-, added⟩⟩ := putOnce_ok done
    · rw [commitUnit, same]
      exact steady_refl r
    · rw [commitUnit, added]
      exact ⟨rfl, rfl, rfl⟩

/-- One request of a handler. -/
theorem perform_keeps {q : Request} (timely : Timely w) (ticks : Ticks env w)
    (justified : Justified w q) : Keeps w (perform s env q w).2 := by
  cases q with
  | transitionFulfillmentOnce target key time => exact transition_keeps timely ticks justified
  | append proof => exact append_keeps timely ticks justified.1 justified.2
  | putVerifiedOnce version result => exact putVerifiedOnce_keeps timely ticks justified
  | recordOnce version key verification =>
    exact keeps_of_steady timely ticks.clock (recordOnce_steady w.record)
  | putOnce version bundle => exact keeps_of_steady timely ticks.clock (putOnce_steady w.record)
  | enqueue message => exact keeps_of_steady timely ticks.clock (enqueue_steady w.record)
  | finish job outcome now retryAt code =>
    refine keeps_of_steady timely ticks.clock ?_
    simp only [perform, answer]
    split
    · exact ⟨rfl, rfl, rfl⟩
    · exact ⟨rfl, rfl, rfl⟩
  | enqueueOnce | recordDispatched | recordDispatchFailure | heartbeat =>
    exact keeps_of_steady timely ticks.clock ⟨rfl, rfl, rfl⟩
  | getForFulfillment | latest | stampExactDigest | upgradeExactDigest | verifyExactDigest
  | getVerified | latestObservation | now | dispatchDue | createTask | retryAt =>
    exact keeps_of_steady timely ticks.clock (steady_refl _)

end

/-! ## Programs -/

section
variable {s : Services} {tag : Option ClaimedJob} {α β : Type} {w : World}

abbrev SafeRun (s : Services) (tag : Option ClaimedJob) (p : Handler α) (w : World) : Prop :=
  Safe (perform s) timelyDiscipline tag (fun _ _ => True) p w

/-- A request that is justified in every later world. -/
theorem safe_ask {q : Request} {k : Reply q → Handler α}
    (justified : ∀ w', Follows w w' → Timely w' → Justified w' q)
    (next : ∀ w' env, Follows w w' → Timely w' → Ticks env w' →
      Keeps w' (perform s env q w').2 →
        SafeRun s tag (k (perform s env q w').1) (perform s env q w').2) :
    SafeRun s tag (ask q k) w := by
  intro w' later timely env ticks
  have keeps := perform_keeps (s := s) timely ticks (justified w' later timely)
  exact ⟨keeps.timely, keeps.follows, next w' env later timely ticks keeps⟩

def Harmless (q : Request) : Prop := ∀ w, Justified w q

theorem harmless_timeless : AdmitsTimeless Harmless := by
  constructor
  · intro target key _ w t none
    cases none
  · intro q timeless w
    cases q with
    | transitionFulfillmentOnce => cases timeless
    | append => cases timeless
    | putVerifiedOnce => cases timeless
    | _ => trivial

theorem harmless_observations : AdmitsObservations Harmless := fun _ _ _ _ => trivial

/-- A program of harmless requests, and then another one. -/
theorem safe_then {p : Handler α} {f : α → Handler β} (only : Only Harmless p)
    (next : ∀ a w', Follows w w' → SafeRun s tag (f a) w') : SafeRun s tag (p >>= f) w := by
  induction p generalizing w with
  | done a => exact next a w (follows_refl w)
  | fail e => exact fun _ _ _ => trivial
  | ask q k ih =>
    refine safe_ask (fun w' _ _ => only.1 w') fun w' env later _ _ keeps => ?_
    exact ih _ (only.2 _) fun a w'' onward => next a w'' ((later.trans keeps.follows).trans onward)

theorem safe_only {p : Handler α} (only : Only Harmless p) : SafeRun s tag p w := by
  induction p generalizing w with
  | done a => exact fun _ _ _ => trivial
  | fail e => exact fun _ _ _ => trivial
  | ask q k ih =>
    exact safe_ask (fun w' _ _ => only.1 w') fun w' env _ _ _ _ => ih _ (only.2 _)

theorem safe_adapter {reply : Except AdapterError α} {f : α → Handler β}
    (next : ∀ a, reply = .ok a → SafeRun s tag (f a) w) :
    SafeRun s tag (adapter reply >>= f) w := by
  cases reply with
  | ok a => exact next a rfl
  | error e => exact fun _ _ _ => trivial

theorem past_later {t : Instant} {w' : World} (past : t ≤ w.clock ∧ Datetime t)
    (later : Follows w w') : t ≤ w'.clock ∧ Datetime t :=
  ⟨past.1.trans later.clock, past.2⟩

/-- A transition with a submission time that is past. -/
theorem safe_transition {target : FulfillmentState} {key : EventKey} {t : Instant}
    {f : FulfillmentOrder → Handler α} (past : t ≤ w.clock ∧ Datetime t)
    (next : ∀ order w', Follows w w' → SafeRun s tag (f order) w') :
    SafeRun s tag (transition target key (some t) >>= f) w := by
  refine safe_ask (q := .transitionFulfillmentOnce target key (some t))
    (k := fun reply => adapter reply >>= f) ?_ fun w' env later _ _ keeps =>
      safe_adapter fun order _ => next order _ (later.trans keeps.follows)
  rintro w' later _ _ ⟨⟩
  exact past_later past later

theorem safe_appendOnce {proof : StoredProof Instant} {f : Unit → Handler α}
    (past : proof.calendarSubmittedAt ≤ w.clock ∧ Datetime proof.calendarSubmittedAt)
    (bare : proof.verification = none) (next : ∀ w', Follows w w' → SafeRun s tag (f ()) w') :
    SafeRun s tag (appendOnce proof >>= f) w := by
  refine safe_ask (q := .append proof)
    (fun w' later _ => ⟨past_later past later, bare⟩) fun w' env later _ _ keeps => ?_
  have onward := later.trans keeps.follows
  cases appended : FulfillmentAdapters.append proof w'.record with
  | ok r' =>
    simp only [perform, answer, appended, commitUnit] at onward ⊢
    exact next _ onward
  | error e =>
    simp only [perform, answer, appended, commitUnit] at onward ⊢
    cases e with
    | database => exact fun _ _ _ => trivial
    | value code =>
      refine safe_ask (q := .latest) (fun _ _ _ => trivial) fun w₂ env₂ later₂ _ _ keeps₂ => ?_
      change SafeRun s tag ((if FulfillmentAdapters.latest w₂.record = some proof
        then pure () else manualReview "proof_append_conflict") >>= f) _
      split
      · exact next _ (onward.trans (later₂.trans keeps₂.follows))
      · exact fun _ _ _ => trivial

/-! ## Stamping -/

theorem known_of_latest {proof : StoredProof Instant} (timely : Timely w)
    (shown : FulfillmentAdapters.latest w.record = some proof) :
    submitted w = some proof.calendarSubmittedAt := by
  obtain ⟨p, found, rfl⟩ := Option.map_eq_some_iff.1 shown
  exact (timely.versions p (List.argmax_mem found)).1

theorem safe_stampReplay {order : FulfillmentOrder} {latest : StoredProof Instant}
    (past : latest.calendarSubmittedAt ≤ w.clock ∧ Datetime latest.calendarSubmittedAt) :
    SafeRun s tag (stampReplay s order latest) w := by
  unfold stampReplay
  split
  · exact fun _ _ _ => trivial
  split
  · exact fun _ _ _ => trivial
  split
  · exact fun _ _ _ => trivial
  split
  · refine safe_transition past fun _ w₁ later₁ => ?_
    exact safe_transition (past_later past later₁) fun _ _ _ _ _ _ => trivial
  split
  · exact safe_transition past fun _ _ _ _ _ _ => trivial
  · exact fun _ _ _ => trivial

theorem makeStoredProof_times {p : Platform} {reference : OrderReference} {version : Nat}
    {digest : ManifestDigest} {proofBytes : Bytes} {time : Instant} {stored : StoredProof Instant}
    (made : makeStoredProof p reference version digest proofBytes time none = .ok stored) :
    stored.calendarSubmittedAt = time ∧ stored.verification = none := by
  unfold makeStoredProof at made
  split at made
  · cases made
  · split at made
    · cases made
    · cases made
      exact ⟨rfl, rfl⟩

theorem safe_stampSubmit {snapshot : OrderSnapshot} :
    SafeRun s tag (stampSubmit s snapshot) w := by
  refine safe_ask (q := .stampExactDigest snapshot.manifestDigest) (fun _ _ _ => trivial)
    fun w₁ env _ _ ticks _ => ?_
  cases stamped : env.stamp with
  | error e =>
    simp only [perform, answer, stamped]
    cases e <;> exact fun _ _ _ => trivial
  | ok pending =>
    simp only [perform, answer, stamped]
    have past := ticks.stamp pending stamped
    change SafeRun s tag (if validateExactProof s.platform snapshot.manifestDigest
      pending.proofBytes none = false then _ else _) _
    split
    · exact fun _ _ _ => trivial
    · refine safe_adapter fun stored made => ?_
      obtain ⟨time, bare⟩ := makeStoredProof_times made
      refine safe_appendOnce (time ▸ past) bare fun w₂ later₂ => ?_
      have known : pending.calendarSubmittedAt ≤ w₂.clock ∧ Datetime pending.calendarSubmittedAt :=
        ⟨past.1.trans later₂.clock, past.2⟩
      refine safe_transition known fun _ w₃ later₃ => ?_
      exact safe_transition (past_later known later₃) fun _ _ _ _ _ _ => trivial

theorem safe_stampHandler : SafeRun s tag (stampHandler s) w := by
  refine safe_then (only_load harmless_timeless.passive) fun order w₁ _ => ?_
  refine safe_ask (q := .latest) (fun _ _ _ => trivial) fun w₂ env _ timely _ keeps => ?_
  cases shown : FulfillmentAdapters.latest w₂.record with
  | some latest =>
    simp only [perform, answer, shown, Prog.bind]
    have known := known_of_latest timely shown
    exact safe_stampReplay (past_later (timely.past _ known) keeps.follows)
  | none =>
    simp only [perform, answer, shown, Prog.bind]
    split
    · exact fun _ _ _ => trivial
    · split
      · refine safe_then (only_untimed harmless_timeless _ rfl) fun order' w₃ _ => ?_
        split
        · exact fun _ _ _ => trivial
        · exact safe_stampSubmit
      · change SafeRun s tag (if order.state.fulfillment ≠ .stamping then _ else _) _
        split
        · exact fun _ _ _ => trivial
        · exact safe_stampSubmit

/-! ## Upgrading -/

theorem safe_confirmUpgrade {digest : ManifestDigest} {latest : StoredProof Instant} {t : Instant}
    (known : submitted w = some t) : SafeRun s tag (confirmUpgrade s digest latest) w := by
  refine safe_ask (q := .verifyExactDigest digest latest.proofBytes) (fun _ _ _ => trivial)
    fun w₁ env later timely ticks keeps => ?_
  have still : submitted w₁ = some t := later.submitted t known
  cases verified : env.verify with
  | error e =>
    simp only [perform, answer, verified]
    cases e <;> exact fun _ _ _ => trivial
  | ok result =>
    simp only [perform, answer, verified] at keeps ⊢
    cases result with
    | unverified => exact fun _ _ _ => trivial
    | verified e =>
      have after : t ≤ e.verifiedAt :=
        (timely.past t still).1.trans (ticks.verify e verified).1
      refine safe_ask (q := .putVerifiedOnce latest.version (.verified e)) ?_
        fun w₂ env₂ _ _ _ _ => ?_
      · intro w₂ onward _
        exact ⟨⟨t, onward.submitted t (keeps.follows.submitted t still), after⟩,
          (ticks.verify e verified).2⟩
      · refine safe_adapter fun _ _ => ?_
        exact safe_only (only_bind (only_recordObservation harmless_observations _ _) fun _ =>
          only_bind (only_untimed harmless_timeless _ rfl) fun _ => trivial)

theorem safe_upgradePending {snapshot : OrderSnapshot} {latest : StoredProof Instant}
    (known : submitted w = some latest.calendarSubmittedAt) :
    SafeRun s tag (upgradePending s snapshot latest) w := by
  refine safe_ask (q := .upgradeExactDigest snapshot.manifestDigest latest.proofBytes)
    (fun _ _ _ => trivial) fun w₁ env later timely ticks keeps => ?_
  have still := later.submitted _ known
  have past := past_later (timely.past _ still) keeps.follows
  have after := keeps.follows.submitted _ still
  cases upgraded : env.upgrade with
  | error e =>
    simp only [perform, answer, upgraded]
    cases e <;> exact fun _ _ _ => trivial
  | ok upgradedBytes =>
    simp only [perform, answer, upgraded] at past after ⊢
    change SafeRun s tag (if validateExactProof s.platform snapshot.manifestDigest
      upgradedBytes none = false then _ else _) _
    split
    · exact fun _ _ _ => trivial
    split
    · exact safe_confirmUpgrade after
    · refine safe_adapter fun stored made => ?_
      obtain ⟨time, bare⟩ := makeStoredProof_times made
      refine safe_appendOnce (time ▸ past) bare fun w₂ later₂ => ?_
      exact safe_confirmUpgrade (later₂.submitted _ after)

theorem safe_upgradeHandler : SafeRun s tag (upgradeHandler s) w := by
  refine safe_then (only_load harmless_timeless.passive) fun order w₁ _ => ?_
  refine safe_ask (q := .latest) (fun _ _ _ => trivial) fun w₂ env _ timely _ keeps => ?_
  cases shown : FulfillmentAdapters.latest w₂.record with
  | none =>
    simp only [perform, answer, shown, Prog.bind]
    exact fun _ _ _ => trivial
  | some latest =>
    simp only [perform, answer, shown, Prog.bind]
    have known := keeps.follows.submitted _ (known_of_latest timely shown)
    split
    · exact fun _ _ _ => trivial
    split
    · exact fun _ _ _ => trivial
    split
    · exact safe_only (only_reverify harmless_timeless harmless_observations _ _)
    split
    · exact fun _ _ _ => trivial
    · exact safe_upgradePending known

/-! ## The runner -/

theorem safe_seq {p : Handler α} {f : α → Handler β} (first : SafeRun s tag p w)
    (next : ∀ a w', SafeRun s tag (f a) w') : SafeRun s tag (p >>= f) w := by
  refine safe_bind (safe_mono ?_ first)
  intro result w' _ _
  cases result with
  | ok a => exact next a w'
  | error e => trivial

theorem safe_attempt_then {p : Handler α} {f : Except Failure α → Handler β}
    (first : SafeRun s tag p w) (next : ∀ result w', SafeRun s tag (f result) w') :
    SafeRun s tag (p.attempt >>= f) w :=
  safe_bind (safe_attempt (safe_mono (fun result w' _ _ => next result w') first))

theorem safe_orPoll {handler poll after : Handler Unit} (first : SafeRun s tag handler w)
    (polls : ∀ w', SafeRun s tag poll w') (goes : ∀ w', SafeRun s tag after w') :
    SafeRun s tag (orPoll handler poll after) w := by
  refine safe_attempt_then first fun result w' => ?_
  cases result with
  | ok value => exact goes w'
  | error e =>
    cases e with
    | confirmationPending => exact polls w'
    | _ => exact fun _ _ _ => trivial

theorem safe_jobHandler {orderId : Nat} {jobKind : JobKind} {handler : Handler Unit}
    (known : jobHandler s orderId jobKind = some handler) : SafeRun s tag handler w := by
  cases jobKind with
  | stampManifestDigest =>
    cases known
    refine safe_seq safe_stampHandler fun _ _ => ?_
    exact safe_only (only_bind (only_request (harmless_timeless.other _ rfl)) fun _ =>
      only_enqueueJob harmless_timeless _ _)
  | upgradeTimestamp =>
    cases known
    refine safe_orPoll safe_upgradeHandler (fun _ => safe_only ?_) fun _ => safe_only ?_
    · exact only_bind (only_request (harmless_timeless.other _ rfl)) fun _ =>
        only_enqueueJob harmless_timeless _ _
    · exact only_afterUpgrade harmless_timeless orderId
  | deliverTimestamp =>
    cases known
    exact safe_only (only_bind (only_deliveryHandler harmless_timeless) fun _ =>
      only_confirmationPoll harmless_timeless orderId)
  | monitorBitcoinConfirmations =>
    cases known
    exact safe_only (only_orPoll
      (only_confirmationHandler harmless_timeless harmless_observations)
      (only_confirmationPoll harmless_timeless orderId) trivial)
  | unknown name => cases known

theorem safe_runClaimed (job : ClaimedJob) : SafeRun s tag (runClaimed s job) w := by
  unfold runClaimed
  split
  · exact safe_only (only_manualReviewEnd harmless_timeless _ _)
  · next handler known =>
    refine safe_attempt_then (safe_jobHandler known) fun result w' => safe_only ?_
    refine only_bind (only_request (harmless_timeless.other _ rfl)) fun _ =>
      only_bind (only_request (harmless_timeless.other _ rfl)) fun held => ?_
    split
    · exact only_settle harmless_timeless _ _
    · trivial

end

/-! ## Arrivals -/

section
variable {s : Services}

theorem messages_steady {p : Platform} {r r' : OrderRecord}
    (changed : OnlyMessages r r' ∨ Delivers p r r') : Steady r r' := by
  rcases changed with messages | ⟨-, -, _, _, moved⟩
  · unfold OnlyMessages at messages
    rw [messages]
    exact ⟨rfl, rfl, rfl⟩
  · rw [moved]
    exact ⟨rfl, rfl, rfl⟩

theorem startJob_steady (r : OrderRecord) (claimed : Option (ClaimedJob × JobTables)) :
    Steady r (startJob s r claimed).1 := by
  cases claimed with
  | none => exact steady_refl r
  | some claimed => exact ⟨rfl, rfl, rfl⟩

theorem arriveRecord_steady (now : Instant) (r : OrderRecord) (a : Arrival) :
    Steady r (arriveRecord s now r a).1 := by
  cases a with
  | claim workerId => exact startJob_steady r _
  | claimSpecific jobId generation workerId =>
    simp only [arriveRecord]
    split
    · exact startJob_steady r _
    · exact steady_refl r
  | operatorReplay jobId =>
    simp only [arriveRecord]
    split <;> exact ⟨rfl, rfl, rfl⟩
  | recoverStale staleGrace limit =>
    simp only [arriveRecord]
    split <;> exact ⟨rfl, rfl, rfl⟩
  | resendEvent event payload =>
    simp only [arriveRecord]
    cases done : processEvent s.platform event payload now r with
    | error e => exact steady_refl r
    | ok result => exact messages_steady (processEvent_ok done)
  | senderAccepted message acceptance =>
    simp only [arriveRecord]
    cases done : recordAccepted s.platform message acceptance now r with
    | error e => exact steady_refl r
    | ok r' => exact messages_steady (recordAccepted_ok done)
  | heartbeat | operatorReverify | operatorUpgrade | reconcile => exact ⟨rfl, rfl, rfl⟩

theorem adoptIntent_time (order : Order) (canonical : CanonicalCheckout) :
    (adoptIntent order canonical).calendarSubmittedAt = order.calendarSubmittedAt := by
  unfold adoptIntent
  split <;> rfl

theorem settleOrder_time (order : Order) :
    (settleOrder order).calendarSubmittedAt = order.calendarSubmittedAt := by
  unfold settleOrder
  split <;> rfl

theorem enqueueFulfillment_steady (order : Order) (now : Instant) (jobId messageId : Nat)
    (r : OrderRecord) : Steady r (enqueueFulfillment order now jobId messageId r) := by
  unfold enqueueFulfillment
  split <;> exact ⟨rfl, rfl, rfl⟩

theorem applyToRecord_steady (event : ProviderEvent) (canonical : CanonicalCheckout)
    (now : Instant) (jobId messageId : Nat) (r : OrderRecord) :
    Steady r (applyToRecord event canonical now jobId messageId r) := by
  unfold applyToRecord
  cases applied : applyEvent r.order event canonical with
  | none => exact ⟨adoptIntent_time _ _, rfl, rfl⟩
  | some changed =>
    obtain ⟨target, -, moved⟩ := Option.bind_eq_some_iff.1 applied
    obtain ⟨change, -, -⟩ := transitionPayment_some moved
    have time := (settleOrder_time _).trans (adoptIntent_time changed canonical)
    rw [change] at time
    have rows := enqueueFulfillment_steady (settleOrder (adoptIntent changed canonical)) now jobId
      messageId r
    simp only
    split
    · exact ⟨change ▸ time, rows.proofs, rows.verifications⟩
    · exact ⟨change ▸ time, rfl, rfl⟩

theorem performPayment_steady (settings : PaymentSettings) (env : PaymentEnv)
    (q : PaymentRequest) (r : OrderRecord) : Steady r (performPayment settings env q r).2 := by
  refine performPayment_of_events settings env q (Steady r) (steady_refl r)
    (fun _ => ⟨rfl, rfl, rfl⟩) fun event checkout _ => ?_
  obtain ⟨time, proofs, verifications⟩ :=
    applyToRecord_steady event checkout env.now env.jobId env.messageId r
  exact ⟨time, proofs, verifications⟩

theorem arrival_runs {tag : Option ClaimedJob} {now : Instant} {r : OrderRecord} {w : World}
    (a : Arrival) : ∀ run ∈ (arriveRecord s now r a).2, SafeRun s tag run.prog w := by
  intro run started
  have claimed : ∀ claimed : Option (ClaimedJob × JobTables),
      run ∈ (startJob s r claimed).2 → SafeRun s tag run.prog w := by
    intro claimed member
    cases claimed with
    | none => cases member
    | some claimed =>
      rw [List.mem_singleton.1 member]
      exact safe_runClaimed _
  cases a with
  | claim workerId => exact claimed _ started
  | claimSpecific jobId generation workerId =>
    simp only [arriveRecord] at started
    split at started
    · exact claimed _ started
    · cases started
  | operatorReverify requestId =>
    rw [List.mem_singleton.1 started]
    exact safe_only (only_operatorReverify harmless_timeless _ _)
  | operatorUpgrade =>
    rw [List.mem_singleton.1 started]
    exact safe_only (only_operatorUpgrade harmless_timeless _)
  | operatorReplay jobId =>
    simp only [arriveRecord] at started
    split at started
    · rw [List.mem_singleton.1 started]
      exact safe_only (only_dispatchCommand harmless_timeless _)
    · cases started
  | recoverStale staleGrace limit =>
    simp only [arriveRecord] at started
    split at started
    · obtain ⟨target, -, rfl⟩ := List.mem_map.1 started
      exact safe_only (only_dispatchCommand harmless_timeless _)
    · cases started
  | reconcile jobId generation =>
    rw [List.mem_singleton.1 started]
    exact safe_only (only_dispatchCommand harmless_timeless _)
  | heartbeat | resendEvent | senderAccepted => cases started

/-- An arrival at the worker does not turn the clock back. -/
def Arrives : OrderArrival → World → Prop
  | .worker arriving, w => w.clock ≤ arriving.now
  | _, _ => True

theorem arrivals_safe (settings : PaymentSettings) :
    ArrivalsSafe (orderService s settings) timelyDiscipline (fun _ _ _ => True) Arrives := by
  intro a w timely arrives
  cases a with
  | worker arriving =>
    have keeps : Keeps w ((workerService s).arrive arriving w).1 :=
      keeps_of_steady timely arrives (arriveRecord_steady arriving.now w.record arriving.arrival)
    exact ⟨keeps.timely, keeps.follows, fun run started => arrival_runs _ run started⟩
  | payment env q =>
    have keeps : Keeps w ⟨(performPayment settings env q w.record).2, w.clock, w.tip⟩ :=
      keeps_of_steady timely le_rfl (performPayment_steady settings env q w.record)
    exact ⟨keeps.timely, keeps.follows, fun _ started => absurd started List.not_mem_nil⟩
  | bindSession sessionId =>
    simp only [orderService, arriveOrder]
    cases bound : bindSession sessionId w.record with
    | error message =>
      exact ⟨timely, follows_refl w, fun _ started => absurd started List.not_mem_nil⟩
    | ok r =>
      have steady : Steady w.record r := by
        rw [bindSession_ok bound]
        exact ⟨rfl, rfl, rfl⟩
      have keeps : Keeps w ⟨r, w.clock, w.tip⟩ := keeps_of_steady timely le_rfl steady
      exact ⟨keeps.timely, keeps.follows, fun _ started => absurd started List.not_mem_nil⟩

/-- An arrival at the service with its sender does not turn the clock back. -/
def ArrivesLater : DeliveryArrival → World → Prop
  | .order arrival, w => Arrives arrival w
  | .sender _, _ => True

theorem deliveries_safe (settings : PaymentSettings) :
    ArrivalsSafe (deliveryService s settings) timelyDiscipline (fun _ _ _ => True)
      ArrivesLater := by
  intro a w timely arrives
  cases a with
  | order arrival =>
    simp only [deliveryService, arriveDelivery]
    split
    · exact arrivals_safe settings arrival w timely arrives
    · exact ⟨timely, follows_refl w, fun _ started => absurd started List.not_mem_nil⟩
  | sender arrival =>
    have keeps : Keeps w { w with record := DeliveryGuard.send s.platform w.record arrival } :=
      keeps_of_steady timely le_rfl ⟨rfl, rfl, rfl⟩
    exact ⟨keeps.timely, keeps.follows, fun _ started => absurd started List.not_mem_nil⟩

/-! ## Every run -/

/-- The clock of a run: no step turns it back, and its answers are dated by it. -/
def clocked : StepCondition Request Env DeliveryArrival (Option ClaimedJob) World :=
  ⟨timelyDiscipline.allowed, ArrivesLater⟩

theorem start_disciplined (settings : PaymentSettings) {w : World} (start : Timely w) :
    Disciplined (deliveryService s settings) timelyDiscipline (fun _ _ _ => True) ⟨w, []⟩ :=
  ⟨start, fun _ none => absurd none List.not_mem_nil⟩

/-- From an order without proofs on, no verification is older than the submission. -/
theorem run_timely (settings : PaymentSettings) {w : World} (start : Timely w)
    {moves : List (Move Env DeliveryArrival)}
    (meets : clocked.MeetsAll (deliveryService s settings) moves ⟨w, []⟩) :
    Timely ((deliveryService s settings).run moves ⟨w, []⟩).world :=
  (run_disciplined (deliveries_safe settings) (start_disciplined settings start) meets).inv

/-- A longer beginning of a run is later. -/
theorem run_follows (settings : PaymentSettings) {w : World} (start : Timely w)
    {moves : List (Move Env DeliveryArrival)}
    (meets : clocked.MeetsAll (deliveryService s settings) moves ⟨w, []⟩) {i j : Nat}
    (before : i ≤ j) :
    Follows ((deliveryService s settings).run (moves.take i) ⟨w, []⟩).world
      ((deliveryService s settings).run (moves.take j) ⟨w, []⟩).world :=
  run_take_rely (deliveries_safe settings) (start_disciplined settings start) meets before

end

end SubmissionTimes
