import SpacerocksCoa.StageHandover

/-!
# The runs of a job and what they leave

A run that finishes its job has left what the job's kind calls for. Each handler is read once:
what it knows of its job when it begins lasts, and its last transaction makes the rest.
-/
namespace StageRuns
open OrderStates ProofRecords OrderRows JobClaims FulfillmentAdapters NotificationAdapters
open FulfillmentHandlers WorkerRuns PaymentWebhooks OrderStateMachine HandlerRequests
open JobSuccession BatonInvariant StageHandover
open TransactionalPrograms TransactionalPrograms.Prog

section
variable {s : Services} {tag : Option ClaimedJob} {α β : Type} {w w₀ : World}
  {goal middle : World → Prop}

/-- A run that ends normally ends in a world as described. -/
def Reaching (goal : World → Prop) : Except Failure α → World → Prop
  | .ok _, w => goal w
  | .error _, _ => True

abbrev SafeRun (s : Services) (tag : Option ClaimedJob) (goal : World → Prop) (p : Handler α)
    (w : World) : Prop :=
  Safe (perform s) handoverDiscipline tag (Reaching goal) p w

/-! ## Rules -/

theorem safe_fail (e : Failure) : SafeRun s tag goal (fail e : Handler α) w := fun _ _ _ => trivial

theorem safe_done {a : α} (lasts : ∀ w', Onward w w' → Baton w' → goal w') :
    SafeRun s tag goal (done a : Handler α) w := lasts

theorem safe_weaken {p : Handler α}
    (weaken : ∀ w', Onward w w' → Baton w' → middle w' → goal w')
    (safe : SafeRun s tag middle p w) : SafeRun s tag goal p w := by
  refine safe_mono (fun result w' baton reached => ?_) (safe_rely safe)
  cases result with
  | ok a => exact weaken w' reached.1 baton reached.2
  | error e => trivial

/-- A request that is justified in every later world. -/
theorem safe_ask {q : Request} {k : Reply q → Handler α}
    (justified : ∀ w', Onward w w' → Baton w' → Justified w' q)
    (next : ∀ w' env, Onward w w' → Baton w' → Ticks env q w' →
      Keeps w' (perform s env q w').2 →
        SafeRun s tag goal (k (perform s env q w').1) (perform s env q w').2) :
    SafeRun s tag goal (ask q k) w := by
  intro w' later baton env ticks
  have keeps := @perform_keeps s env w' q baton ticks (justified w' later baton)
  exact ⟨keeps.baton, keeps.onward, next w' env later baton ticks keeps⟩

theorem safe_seq {p : Handler α} {f : α → Handler β} (first : SafeRun s tag middle p w)
    (next : ∀ a w', Onward w w' → Baton w' → middle w' → SafeRun s tag goal (f a) w') :
    SafeRun s tag goal (p >>= f) w := by
  refine safe_bind (safe_mono (fun result w' baton reached => ?_) (safe_rely first))
  cases result with
  | ok a => exact next a w' reached.1 baton reached.2
  | error e => trivial

/-- What may be asked for in every world after this one. -/
def Justifies (w : World) (q : Request) : Prop := ∀ w', Onward w w' → Justified w' q

/-- A program of such requests, and then another one. -/
theorem safe_then {p : Handler α} {f : α → Handler β} (since : Onward w₀ w)
    (only : Only (Justifies w₀) p)
    (next : ∀ a w', Onward w w' → SafeRun s tag goal (f a) w') :
    SafeRun s tag goal (p >>= f) w := by
  induction p generalizing w with
  | done a => exact next a w (onward_refl w)
  | fail e => exact safe_fail e
  | ask q k ih =>
    refine safe_ask (fun w' later _ => only.1 w' (since.trans later))
      fun w' env later _ _ keeps => ?_
    have after := later.trans keeps.onward
    exact ih _ (since.trans after) (only.2 _) fun a w'' onward => next a w'' (after.trans onward)

theorem safe_only {p : Handler α} (since : Onward w₀ w) (only : Only (Justifies w₀) p)
    (lasts : ∀ w', Onward w w' → goal w') : SafeRun s tag goal p w := by
  induction p generalizing w with
  | done a => exact fun w' later _ => lasts w' later
  | fail e => exact safe_fail e
  | ask q k ih =>
    refine safe_ask (fun w' later _ => only.1 w' (since.trans later))
      fun w' env later _ _ keeps => ?_
    have after := later.trans keeps.onward
    exact ih _ (since.trans after) (only.2 _) fun w'' onward => lasts w'' (after.trans onward)

theorem safe_adapter {reply : Except AdapterError α} {f : α → Handler β}
    (next : ∀ a, reply = .ok a → SafeRun s tag goal (f a) w) :
    SafeRun s tag goal (adapter reply >>= f) w := by
  cases reply with
  | ok a => exact next a rfl
  | error e => exact safe_fail _

theorem safe_valueError {reply : Except String α} {f : α → Handler β}
    (next : ∀ a, reply = .ok a → SafeRun s tag goal (f a) w) :
    SafeRun s tag goal (valueError reply >>= f) w := by
  cases reply with
  | ok a => exact next a rfl
  | error e => exact safe_fail _

theorem passive_justifies : AdmitsPassive (Justifies w) := by
  intro q passive w' _
  cases q <;> trivial

theorem observations_justify : AdmitsObservations (Justifies w) := fun _ _ _ _ _ => trivial

theorem stamping_justifies (settled : Settled w.record.order.paymentState) :
    AdmitsStamping (Justifies w) := by
  have early : ∀ {target : FulfillmentState}, target ≠ .queued → target.rank ≤ 3 →
      ∀ key time, Justifies w (.transitionFulfillmentOnce target key time) :=
    fun named before _ _ _ later =>
      ⟨later.settled settled, named, fun late => absurd (late.trans before) (by decide)⟩
  exact ⟨passive_justifies, fun _ _ _ => trivial,
    fun key time _ => early (by decide) (by decide) key time,
    fun key time _ => early (by decide) (by decide) key time⟩

/-! ## Transitions -/

theorem safe_transition {target : FulfillmentState} {key : EventKey} {time : Option Instant}
    (settled : Settled w.record.order.paymentState) (named : target ≠ .queued)
    (upgrade : 4 ≤ target.rank → target.rank ≤ 5 → HasJob w.record .upgradeTimestamp) :
    SafeRun s tag (fun w' => target.rank ≤ stage w'.record) (transition target key time) w := by
  refine safe_ask (fun w' later _ => ⟨later.settled settled, named,
    fun verified alive => later.hasJob (upgrade verified alive)⟩) fun w' env _ baton _ _ => ?_
  simp only [perform, answer]
  cases done : transitionFulfillmentOnce s.platform target key time env.now w'.record with
  | error e => exact safe_fail _
  | ok result =>
    have reached := transition_reaches baton.logged done
    exact safe_done fun w'' onward _ => reached.trans onward.ahead

/-! ## Enqueueing -/

/-- There is a row under the key. -/
def Named (key : JobKey) (w : World) : Prop := ∃ row ∈ w.record.tables.jobs, row.jobKey = key

theorem named_later {w w' : World} (onward : Onward w w') {key : JobKey} (named : Named key w) :
    Named key w' := by
  obtain ⟨row, member, own⟩ := named
  obtain ⟨row', member', same⟩ := onward.jobs row member
  exact ⟨row', member', same.key.trans own⟩

theorem hasJob_of_named {key : JobKey} {kind : JobKind} (baton : Baton w) (named : Named key w)
    (own : kindOf key = kind) : HasJob w.record kind := by
  obtain ⟨row, member, rfl⟩ := named
  exact ⟨row, member, (baton.keyed row member).trans own⟩

theorem laterPoll_of_named {key own : JobKey} {seconds : Int} (baton : Baton w)
    (named : Named key w) (poll : pollSecond key = some seconds)
    (beyond : ∀ t, pollSecond own = some t → t < seconds) :
    LaterPoll w.record (kindOf key) own := by
  obtain ⟨row, member, rfl⟩ := named
  exact ⟨row, member, baton.keyed row member, seconds, poll, beyond⟩

/-- A job that is no poll. -/
theorem enqueue_justified {spec : JobSpec} {availableAt : Instant}
    (settled : Settled w.record.order.paymentState) (kind : spec.kind = kindOf spec.jobKey)
    (unpolled : pollSecond spec.jobKey = none)
    (delivering : spec.kind = .deliverTimestamp → 4 ≤ stage w.record) :
    Justifies w (.enqueueOnce spec availableAt) := by
  refine fun w' onward => ⟨onward.settled settled, kind, fun seconds poll => ?_, fun own => ?_⟩
  · rw [unpolled] at poll
    cases poll
  · exact (delivering own).trans onward.ahead

theorem safe_enqueueJob {spec : JobSpec} {availableAt : Instant}
    (justified : Justifies w (.enqueueOnce spec availableAt)) :
    SafeRun s tag (Named spec.jobKey) (enqueueJob s spec availableAt) w := by
  refine safe_ask (fun w' later _ => justified w' later) fun w' env _ _ ticks _ => ?_
  have named : Named spec.jobKey (perform s env (.enqueueOnce spec availableAt) w').2 :=
    enqueueOnce_named ticks.2
  exact safe_only (onward_refl _) (only_dispatchIf passive_justifies _) fun w'' onward =>
    named_later onward named

/-- The poll of a kind at an interval that starts after the job fell due. -/
theorem safe_poll {job : ClaimedJob} (given : Given job w) {interval : Instant}
    (whole : second ≤ interval) {key : Int → JobKey} {kind : JobKind} {orderId : Nat}
    (kinds : ∀ t, kindOf (key t) = kind) (polls : ∀ t, pollSecond (key t) = some t)
    (other : kind ≠ .deliverTimestamp) :
    SafeRun s tag (fun w' => LaterPoll w'.record kind job.spec.jobKey)
      (call .now >>= fun now => enqueueJob s
        { jobKey := key ((now + interval) / second), kind := kind, orderId := orderId }
        (now + interval)) w := by
  refine safe_ask (fun _ _ _ => trivial) fun w₁ env later _ ticks keeps => ?_
  have still := given.later (later.trans keeps.onward)
  have beyond : ∀ t, pollSecond job.spec.jobKey = some t → t < (env.now + interval) / second :=
    fun t own => second_later ((given.due t own).trans (later.clock.trans ticks.1)) whole
  refine safe_weaken (fun w' _ baton named => ?_) (safe_enqueueJob fun w' onward => ?_)
  · have left := laterPoll_of_named baton named (polls _) beyond
    rw [kinds] at left
    exact left
  · refine ⟨onward.settled still.settled, (kinds _).symm, fun t own => ?_,
      fun wrong => absurd wrong other⟩
    cases (polls _).symm.trans own
    exact second_le _

end

/-! ## Stamping -/

section
variable {s : Services} {tag : Option ClaimedJob} {w : World} {job : ClaimedJob}

theorem safe_stampJobHandler (given : Given job w) (orderId : Nat) :
    SafeRun s tag (fun w' => HasJob w'.record .upgradeTimestamp) (stampJobHandler s orderId) w := by
  refine safe_then (onward_refl w) (only_stampHandler (stamping_justifies given.settled))
    fun _ w₁ later => ?_
  refine safe_then (onward_refl w₁) (only_request (passive_justifies _ rfl))
    fun now w₂ later₂ => ?_
  refine safe_weaken (fun w' _ baton named => hasJob_of_named baton named rfl) (safe_enqueueJob ?_)
  exact enqueue_justified (given.later (later.trans later₂)).settled rfl rfl
    fun wrong => JobKind.noConfusion wrong

/-! ## Upgrading -/

/-- The last request of a run that found the order verified, or verifies it. -/
theorem safe_verifiedBy {target : FulfillmentState} {key : EventKey} (given : Given job w)
    (own : job.spec.kind = .upgradeTimestamp) (late : 4 ≤ target.rank) :
    SafeRun s tag (fun w' => 4 ≤ stage w'.record)
      (transition target key none >>= fun _ => (pure () : Handler Unit)) w := by
  have named : target ≠ .queued := by
    intro queued
    rw [queued] at late
    exact absurd late (by decide)
  refine safe_seq (safe_transition given.settled named fun _ _ => own ▸ given.hasJob)
    fun _ w' _ _ reached => ?_
  exact safe_done fun w'' onward _ => (late.trans reached).trans onward.ahead

theorem safe_reverify {order : FulfillmentOrder} {latest : StoredProof Instant}
    (given : Given job w) (own : job.spec.kind = .upgradeTimestamp)
    (late : 4 ≤ order.state.fulfillment.rank) :
    SafeRun s tag (fun w' => 4 ≤ stage w'.record) (reverify s order latest) w := by
  refine safe_then (onward_refl w) (only_verifyBitcoin passive_justifies _ _)
    fun verification w₁ later => ?_
  cases verification with
  | unverified => exact safe_fail _
  | verified e =>
    simp only
    split
    · exact safe_fail _
    · refine safe_then (onward_refl w₁) (only_recordObservation observations_justify _ _)
        fun _ w₂ later₂ => ?_
      exact safe_verifiedBy (given.later (later.trans later₂)) own late

theorem safe_confirmUpgrade {digest : ManifestDigest} {latest : StoredProof Instant}
    (given : Given job w) (own : job.spec.kind = .upgradeTimestamp) :
    SafeRun s tag (fun w' => 4 ≤ stage w'.record) (confirmUpgrade s digest latest) w := by
  refine safe_then (onward_refl w) (only_verifyBitcoin passive_justifies _ _)
    fun verification w₁ later => ?_
  cases verification with
  | unverified => exact safe_fail _
  | verified e =>
    refine safe_then (onward_refl w₁) (only_request fun _ _ => trivial) fun reply w₂ later₂ => ?_
    refine safe_adapter fun _ _ => ?_
    refine safe_then (onward_refl w₂) (only_recordObservation observations_justify _ _)
      fun _ w₃ later₃ => ?_
    exact safe_verifiedBy (given.later ((later.trans later₂).trans later₃)) own (by decide)

theorem safe_upgradePending {snapshot : OrderSnapshot} {latest : StoredProof Instant}
    (given : Given job w) (own : job.spec.kind = .upgradeTimestamp) :
    SafeRun s tag (fun w' => 4 ≤ stage w'.record) (upgradePending s snapshot latest) w := by
  refine safe_then (onward_refl w) (only_request (passive_justifies _ rfl))
    fun reply w₁ later => ?_
  cases reply with
  | error e => cases e <;> exact safe_fail _
  | ok upgradedBytes =>
    simp only
    split
    · exact safe_fail _
    split
    · exact safe_confirmUpgrade (given.later later) own
    · refine safe_adapter fun upgraded _ => ?_
      refine safe_then (onward_refl w₁) (only_appendOnce (stamping_justifies
        (given.later later).settled) _) fun _ w₂ later₂ => ?_
      exact safe_confirmUpgrade (given.later (later.trans later₂)) own

theorem safe_upgradeHandler (given : Given job w) (own : job.spec.kind = .upgradeTimestamp) :
    SafeRun s tag (fun w' => 4 ≤ stage w'.record) (upgradeHandler s) w := by
  refine safe_then (onward_refl w) (only_load passive_justifies) fun order w₁ later => ?_
  refine safe_then (onward_refl w₁) (only_request (passive_justifies _ rfl))
    fun latest w₂ later₂ => ?_
  have still := given.later (later.trans later₂)
  cases latest with
  | none => exact safe_fail _
  | some latest =>
    simp only
    split
    · exact safe_fail _
    split
    · exact safe_fail _
    split
    · next verified =>
      refine safe_reverify still own ?_
      rcases verified with state | state <;> rw [state] <;> decide
    split
    · exact safe_fail _
    · exact safe_upgradePending still own

/-- After the upgrade the order is verified, and a delivery is enqueued unless it is past that. -/
theorem safe_afterUpgrade (given : Given job w) (verified : 4 ≤ stage w.record) (orderId : Nat) :
    SafeRun s tag (fun w' => HandedOn w'.record job.spec.jobKey .upgradeTimestamp)
      (afterUpgrade s orderId) w := by
  refine safe_ask (fun _ _ _ => trivial) fun w₁ env later _ _ keeps => ?_
  have reached := verified.trans later.ahead
  change SafeRun s tag _ (if w₁.record.order.fulfillmentState = .bitcoinVerified then _ else _) _
  split
  · refine safe_then (onward_refl _) (only_request (passive_justifies _ rfl))
      fun now w₂ later₂ => ?_
    have onward := keeps.onward.trans later₂
    refine safe_weaken (fun w' _ baton named => Or.inr (Or.inl (hasJob_of_named baton named rfl)))
      (safe_enqueueJob ?_)
    exact enqueue_justified (given.later (later.trans onward)).settled rfl rfl
      fun _ => reached.trans onward.ahead
  · next other =>
    have past : 5 ≤ stage w₁.record := by
      unfold stage at reached ⊢
      revert reached other
      cases w₁.record.order.fulfillmentState <;> decide
    exact safe_done fun w' onward _ => Or.inl (past.trans (keeps.onward.trans onward).ahead)

/-! ## Delivery and monitoring -/

theorem safe_enqueueMilestone {kind : NotificationKind} {snapshot : OrderSnapshot}
    {version confirmations : Nat}
    (delivery : kind = .initialConfirmation → HasJob w.record .deliverTimestamp) :
    SafeRun s tag (fun w' => HasNotice w'.record kind)
      (enqueueMilestone kind snapshot version confirmations) w := by
  refine safe_valueError fun message made => ?_
  have template : message.template = kind := by
    unfold notificationMessage at made
    split at made
    · cases made
    · cases made
      rfl
  refine safe_ask (fun w' later _ wanted => later.hasJob (delivery (template ▸ wanted)))
    fun w' env _ _ _ _ => ?_
  simp only [perform, answer]
  cases done : enqueue message env.now env.freshId w'.record with
  | error e => exact safe_fail _
  | ok r' =>
    have notice : HasNotice r' kind := template ▸ enqueue_notice done
    exact safe_done fun w'' onward _ => onward.hasNotice notice

theorem safe_deliver {snapshot : OrderSnapshot} {proof : StoredProof Instant}
    (delivery : HasJob w.record .deliverTimestamp) :
    SafeRun s tag (fun w' => HasNotice w'.record .initialConfirmation) (deliver s snapshot proof)
      w := by
  refine safe_then (onward_refl w) (only_request (passive_justifies _ rfl))
    fun observation w₁ later => ?_
  cases observation with
  | none => exact safe_fail _
  | some observation =>
    refine safe_valueError fun receipt _ => safe_valueError fun bundle _ => ?_
    refine safe_then (onward_refl w₁) (only_request fun _ _ => trivial) fun reply w₂ later₂ => ?_
    refine safe_adapter fun _ _ => ?_
    exact safe_enqueueMilestone fun _ => (later.trans later₂).hasJob delivery

theorem safe_deliveryHandler (delivery : HasJob w.record .deliverTimestamp) :
    SafeRun s tag (fun w' => HasNotice w'.record .initialConfirmation) (deliveryHandler s) w := by
  refine safe_then (onward_refl w) (only_load passive_justifies) fun order w₁ later => ?_
  split
  · exact safe_fail _
  split
  · exact safe_fail _
  refine safe_then (onward_refl w₁) (only_request (passive_justifies _ rfl))
    fun latest w₂ later₂ => ?_
  cases latest with
  | none => exact safe_fail _
  | some proof =>
    simp only
    split
    · exact safe_fail _
    refine safe_then (onward_refl w₂) (only_request (passive_justifies _ rfl))
      fun reply w₃ later₃ => ?_
    refine safe_adapter fun stored _ => ?_
    cases stored with
    | none => exact safe_fail _
    | some verification =>
      simp only
      split
      · exact safe_fail _
      · exact safe_deliver (((later.trans later₂).trans later₃).hasJob delivery)

theorem safe_confirmAgain {snapshot : OrderSnapshot} {proof : StoredProof Instant}
    {stored : Evidence Instant} {previous : Observation} :
    SafeRun s tag (fun w' => HasNotice w'.record .finalConfirmation)
      (confirmAgain s snapshot proof stored previous) w := by
  refine safe_then (onward_refl w) (only_verifyBitcoin passive_justifies _ _)
    fun verification w₁ _ => ?_
  cases verification with
  | unverified => exact safe_fail _
  | verified current =>
    simp only
    split
    · exact safe_fail _
    split
    · exact safe_fail _
    refine safe_then (onward_refl w₁) (only_recordObservation observations_justify _ _)
      fun observation w₂ _ => ?_
    split
    · exact safe_fail _
    · exact safe_enqueueMilestone fun initial => by cases initial

theorem safe_confirmationHandler :
    SafeRun s tag (fun w' => HasNotice w'.record .finalConfirmation) (confirmationHandler s) w := by
  refine safe_then (onward_refl w) (only_load passive_justifies) fun order w₁ _ => ?_
  split
  · exact safe_fail _
  refine safe_then (onward_refl w₁) (only_request (passive_justifies _ rfl)) fun latest w₂ _ => ?_
  cases latest with
  | none => exact safe_fail _
  | some proof =>
    simp only
    split
    · exact safe_fail _
    refine safe_then (onward_refl w₂) (only_request (passive_justifies _ rfl))
      fun reply w₃ _ => ?_
    refine safe_adapter fun stored _ => ?_
    refine safe_then (onward_refl w₃) (only_request (passive_justifies _ rfl))
      fun previous w₄ _ => ?_
    split
    · exact safe_confirmAgain
    · exact safe_fail _

/-! ## The four job handlers -/

theorem safe_orPoll {goal middle : World → Prop} {handler poll after : Handler Unit}
    (first : SafeRun s tag middle handler w)
    (polls : ∀ w', Onward w w' → SafeRun s tag goal poll w')
    (goes : ∀ w', Onward w w' → middle w' → SafeRun s tag goal after w') :
    SafeRun s tag goal (orPoll handler poll after) w := by
  refine safe_bind (safe_attempt (safe_mono (fun result w' _ reached => ?_) (safe_rely first)))
  cases result with
  | ok value => exact goes w' reached.1 reached.2
  | error e =>
    cases e with
    | confirmationPending => exact polls w' reached.1
    | _ => exact safe_fail _

theorem safe_jobHandler {handler : Handler Unit} (given : Given job w)
    (known : jobHandler s job.spec.orderId job.spec.kind = some handler) :
    SafeRun s tag (fun w' => HandedOn w'.record job.spec.jobKey job.spec.kind) handler w := by
  cases own : job.spec.kind with
  | stampManifestDigest =>
    rw [own] at known
    cases known
    exact safe_stampJobHandler given _
  | upgradeTimestamp =>
    rw [own] at known
    cases known
    refine safe_orPoll (safe_upgradeHandler given own) (fun w' later => ?_)
      fun w' later verified => ?_
    · exact safe_weaken (fun _ _ _ left => Or.inr (Or.inr left)) (safe_poll (given.later later)
        (by decide) (fun _ => rfl) (fun _ => rfl) (by decide))
    · exact safe_afterUpgrade (given.later later) verified _
  | deliverTimestamp =>
    rw [own] at known
    cases known
    refine safe_seq (safe_deliveryHandler (own ▸ given.hasJob)) fun _ w' later _ notice => ?_
    refine safe_weaken (fun w'' onward _ left => ⟨onward.hasNotice notice, ?_⟩)
      (safe_poll (given.later later) (by decide) (fun _ => rfl) (fun _ => rfl) (by decide))
    obtain ⟨row, member, kind, -⟩ := left
    exact ⟨row, member, kind⟩
  | monitorBitcoinConfirmations =>
    rw [own] at known
    cases known
    refine safe_orPoll safe_confirmationHandler (fun w' later => ?_) fun w' later notice => ?_
    · exact safe_weaken (fun _ _ _ left => Or.inr left) (safe_poll (given.later later)
        (by decide) (fun _ => rfl) (fun _ => rfl) (by decide))
    · exact safe_done fun w'' onward _ => Or.inl (onward.hasNotice notice)
  | unknown name =>
    rw [own] at known
    cases known

/-! ## The runner -/

theorem Concluded.later {w w' : World} {outcome : JobOutcome} (concluded : Concluded w job outcome)
    (onward : Onward w w') : Concluded w' job outcome := by
  cases outcome with
  | complete => exact onward.handedOn concluded
  | retry => exact concluded
  | manualReview => exact onward.condemned concluded
  | deadLetter => exact onward.condemned concluded

def Anywhere : World → Prop := fun _ => True

theorem safe_finishJob {outcome : JobOutcome} {now : Instant} {retryAt : Option Instant}
    {code : Option String} (given : Given job w) (concluded : Concluded w job outcome) :
    SafeRun s tag Anywhere (finishJob s job outcome now retryAt code) w := by
  refine safe_ask (fun w' later _ => ⟨given.later later, Concluded.later concluded later⟩)
    fun w' env _ _ _ _ => ?_
  refine safe_adapter fun target _ => ?_
  exact safe_only (onward_refl _) (only_dispatchIf passive_justifies _) fun _ _ => trivial

theorem safe_finishNow {outcome : JobOutcome} {code : Option String} (given : Given job w)
    (concluded : Concluded w job outcome) :
    SafeRun s tag Anywhere (finishNow s job outcome code) w := by
  refine safe_ask (fun _ _ _ => trivial) fun w' env later _ _ keeps => ?_
  have onward := later.trans keeps.onward
  exact safe_finishJob (given.later onward) (Concluded.later concluded onward)

theorem safe_terminalFailure {code : String} (given : Given job w) :
    SafeRun s tag (fun w' => stage w'.record = 6) (terminalFailure code) w := by
  refine safe_seq (safe_transition given.settled (by decide)
    fun _ alive => absurd alive (by decide)) fun _ w' _ _ reached => ?_
  exact safe_done fun w'' onward _ => le_antisymm (stage_le _) (reached.trans onward.ahead)

/-- The order goes to an operator, and then the job ends. -/
theorem safe_giveUp {outcome : JobOutcome} {code : String} {ending : RunEnd} (given : Given job w)
    (gives : ∀ w', stage w'.record = 6 → Concluded w' job outcome) :
    SafeRun s tag Anywhere (do
      terminalFailure code
      finishNow s job outcome (some code)
      pure ending) w := by
  refine safe_seq (safe_terminalFailure given) fun _ w' later _ condemned => ?_
  refine safe_seq (safe_finishNow (given.later later) (gives w' condemned)) fun _ _ _ _ _ => ?_
  exact safe_done fun _ _ _ => trivial

theorem safe_retryOrExhaust {code : String} (given : Given job w) :
    SafeRun s tag Anywhere (retryOrExhaust s job code) w := by
  unfold retryOrExhaust
  split
  · exact safe_giveUp given fun _ condemned => condemned
  · next left =>
    refine safe_then (onward_refl w) (only_request (passive_justifies _ rfl))
      fun retryAt w₁ later => ?_
    refine safe_then (onward_refl w₁) (only_request (passive_justifies _ rfl))
      fun now w₂ later₂ => ?_
    have early : Concluded w₂ job .retry := not_le.1 left
    refine safe_seq (safe_finishJob (given.later (later.trans later₂)) early) fun _ _ _ _ _ => ?_
    exact safe_done fun _ _ _ => trivial

theorem safe_settle {result : Except Failure Unit} (given : Given job w)
    (handed : result = .ok () → HandedOn w.record job.spec.jobKey job.spec.kind) :
    SafeRun s tag Anywhere (settle s job result) w := by
  unfold settle
  split
  · refine safe_seq (safe_finishNow given (handed rfl)) fun _ _ _ _ _ => ?_
    exact safe_done fun _ _ _ => trivial
  · exact safe_giveUp given fun _ condemned => condemned
  · exact safe_retryOrExhaust given
  · exact safe_retryOrExhaust given

theorem safe_runClaimed (given : Given job w) : SafeRun s tag Anywhere (runClaimed s job) w := by
  unfold runClaimed
  split
  · exact safe_giveUp given fun _ condemned => condemned
  · next handler known =>
    refine safe_bind (safe_attempt (safe_mono (fun result w₁ _ reached => ?_)
      (safe_rely (safe_jobHandler given known))))
    have handed : result = .ok () → HandedOn w₁.record job.spec.jobKey job.spec.kind := by
      rintro rfl
      exact reached.2
    refine safe_then (onward_refl w₁) (only_request (passive_justifies _ rfl))
      fun now w₂ later => ?_
    refine safe_then (onward_refl w₂) (only_request fun _ _ => trivial) fun held w₃ later₂ => ?_
    have onward := later.trans later₂
    split
    · exact safe_settle (given.later (reached.1.trans onward)) fun ok => onward.handedOn (handed ok)
    · exact safe_done fun _ _ _ => trivial

/-! ## Operator commands -/

theorem safe_enqueueProofJob {orderId : Nat} {allowed : List FulfillmentState}
    {jobKey : Nat → JobKey} (later : .awaitingPayment ∉ allowed)
    (kinds : ∀ v, kindOf (jobKey v) = .upgradeTimestamp)
    (polls : ∀ v, pollSecond (jobKey v) = none) :
    SafeRun s tag Anywhere (enqueueProofJob s orderId allowed jobKey) w := by
  refine safe_ask (fun _ _ _ => trivial) fun w₁ env _ baton _ keeps => ?_
  change SafeRun s tag _ (if w₁.record.order.fulfillmentState ∉ allowed then _ else _) _
  split
  · exact safe_fail _
  · next permitted =>
    have settled : Settled w₁.record.order.paymentState := by
      by_contra unsettled
      rw [(baton.coupled unsettled).1] at permitted
      exact permitted later
    refine safe_then (onward_refl _) (only_request (passive_justifies _ rfl))
      fun proof w₂ later₂ => ?_
    cases proof with
    | none => exact safe_fail _
    | some proof =>
      refine safe_then (onward_refl w₂) (only_request (passive_justifies _ rfl))
        fun now w₃ later₃ => ?_
      have still := (keeps.onward.trans (later₂.trans later₃)).settled settled
      refine safe_seq (safe_enqueueJob (enqueue_justified still (kinds _).symm (polls _)
        fun wrong => JobKind.noConfusion wrong)) fun _ _ _ _ _ => ?_
      exact safe_done fun _ _ _ => trivial

theorem safe_operatorReverify {orderId : Nat} {requestId : String} :
    SafeRun s tag Anywhere (operatorReverify s orderId requestId) w := by
  unfold operatorReverify
  exact safe_enqueueProofJob (by decide) (fun _ => rfl) fun _ => rfl

theorem safe_operatorUpgrade {orderId : Nat} :
    SafeRun s tag Anywhere (operatorUpgrade s orderId) w := by
  unfold operatorUpgrade
  exact safe_enqueueProofJob (by decide) (fun _ => rfl) fun _ => rfl

theorem safe_dispatchCommand {target : Option (Nat × Nat)} :
    SafeRun s tag Anywhere (dispatchCommand s target) w := by
  refine safe_then (onward_refl w) (only_dispatchIf passive_justifies _) fun _ _ _ => ?_
  exact safe_done fun _ _ _ => trivial

end

end StageRuns
