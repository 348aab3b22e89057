import SpacerocksCoa.WorkerRuns

/-!
# What the programs of the worker ask for

Which requests the handlers, the runner and the operator's commands can make at all,
whatever the replies. Two kinds matter elsewhere: the transitions name only keys of the
worker, and the observations are recorded by two handlers only. Every other request is
admitted without looking at it.
-/
namespace HandlerRequests
open OrderStates ProofRecords OrderRows JobClaims FulfillmentAdapters NotificationAdapters
open FulfillmentHandlers WorkerRuns TransactionalPrograms TransactionalPrograms.Prog

/-- Which part of the service records an event under the key. -/
def EventKey.writer : EventKey → EventSource
  | .stampReplayStart _ => .fulfillmentWorker
  | .stampReplay _ => .fulfillmentWorker
  | .stampStart => .fulfillmentWorker
  | .stampResponse => .fulfillmentWorker
  | .stampPersisted => .fulfillmentWorker
  | .bitcoinReverified _ _ => .fulfillmentWorker
  | .bitcoinVerified _ => .fulfillmentWorker
  | .workerTerminal _ => .fulfillmentWorker
  | .stripe _ => .stripeWebhook
  | .resendDelivered _ => .resendWebhook
  | .checkout _ => .checkout
  | .download _ => .customerDownload

/-- Neither a transition of the order nor an observation. -/
def Request.ordinary : Request → Bool
  | .transitionFulfillmentOnce _ _ _ => false
  | .recordOnce _ _ _ => false
  | _ => true

/-- A kind of request that takes in transitions under the worker's keys and everything that
neither moves the order nor records an observation. -/
structure Admits (kind : Request → Prop) : Prop where
  transition : ∀ target key time, EventKey.writer key = .fulfillmentWorker →
    kind (.transitionFulfillmentOnce target key time)
  other : ∀ q, Request.ordinary q = true → kind q

/-- Whether a request can leave the proofs, their verifications and the submission time of the
order as they are whatever it carries. -/
def Request.timeless : Request → Bool
  | .transitionFulfillmentOnce _ _ _ => false
  | .recordOnce _ _ _ => false
  | .append _ => false
  | .putVerifiedOnce _ _ => false
  | _ => true

/-- Whether a request writes nothing but the state of a cloud task. -/
def Request.passive : Request → Bool
  | .getForFulfillment => true
  | .latest => true
  | .stampExactDigest _ => true
  | .upgradeExactDigest _ _ => true
  | .verifyExactDigest _ _ => true
  | .getVerified _ => true
  | .latestObservation _ => true
  | .now => true
  | .retryAt _ => true
  | .dispatchDue _ _ => true
  | .createTask _ _ => true
  | .recordDispatched _ _ => true
  | .recordDispatchFailure _ _ => true
  | _ => false

def AdmitsPassive (kind : Request → Prop) : Prop := ∀ q, Request.passive q = true → kind q

/-- What stamping asks for: reading, storing the proof and the two transitions. -/
structure AdmitsStamping (kind : Request → Prop) : Prop where
  passive : AdmitsPassive kind
  append : ∀ proof, kind (.append proof)
  stamping : ∀ key time, EventKey.writer key = .fulfillmentWorker →
    kind (.transitionFulfillmentOnce .stamping key time)
  pending : ∀ key time, EventKey.writer key = .fulfillmentWorker →
    kind (.transitionFulfillmentOnce .calendarPending key time)

/-- The part of it that most programs need: the transitions without a submission time. -/
structure AdmitsTimeless (kind : Request → Prop) : Prop where
  transition : ∀ target key, EventKey.writer key = .fulfillmentWorker →
    kind (.transitionFulfillmentOnce target key none)
  other : ∀ q, Request.timeless q = true → kind q

lemma Admits.timeless {kind : Request → Prop} (admits : Admits kind) : AdmitsTimeless kind := by
  refine ⟨fun target key mine => admits.transition target key none mine, fun q plain => ?_⟩
  cases q <;> first | exact admits.other _ rfl | exact Bool.noConfusion plain

lemma AdmitsTimeless.passive {kind : Request → Prop} (timeless : AdmitsTimeless kind) :
    AdmitsPassive kind := by
  intro q plain
  cases q <;> first | exact timeless.other _ rfl | exact Bool.noConfusion plain

lemma Admits.stamping {kind : Request → Prop} (admits : Admits kind) : AdmitsStamping kind :=
  ⟨admits.timeless.passive, fun _ => admits.other _ rfl,
    fun key time mine => admits.transition _ key time mine,
    fun key time mine => admits.transition _ key time mine⟩

/-- The observations are taken in, too. -/
def AdmitsObservations (kind : Request → Prop) : Prop :=
  ∀ version key result, kind (.recordOnce version key result)

section
variable {s : Services} {kind : Request → Prop}

lemma only_adapter {α : Type} (reply : Except AdapterError α) : Only kind (adapter reply) := by
  cases reply <;> trivial

lemma only_valueError {α : Type} (reply : Except String α) : Only kind (valueError reply) := by
  cases reply <;> trivial

/-! ## Passive programs -/

section
variable (passive : AdmitsPassive kind)
include passive

lemma only_load : Only kind load :=
  ⟨passive _ rfl, fun reply => by cases reply <;> trivial⟩

lemma only_verifyBitcoin (digest : ManifestDigest) (proofBytes : Bytes) :
    Only kind (verifyBitcoin digest proofBytes) := by
  refine only_bind (only_request (passive _ rfl)) fun reply => ?_
  match reply with
  | .ok verification => trivial
  | .error .unavailable => trivial
  | .error .evidenceInvalid => trivial
  | .error .unexpected => trivial

lemma only_dispatch (jobId generation : Nat) : Only kind (dispatch jobId generation) := by
  refine only_bind (only_request (passive _ rfl)) fun due => ?_
  split
  · refine only_bind (only_request (passive _ rfl)) fun created => ?_
    split
    · exact only_request (passive _ rfl)
    · exact only_bind (only_request (passive _ rfl)) fun _ => trivial
  · trivial

lemma only_dispatchIf (target : Option (Nat × Nat)) : Only kind (dispatchIf s target) := by
  unfold dispatchIf
  split
  · exact only_bind (only_dispatch passive _ _) fun _ => trivial
  · trivial

end

/-! ## Programs that submit nothing -/

section
variable (timeless : AdmitsTimeless kind)
include timeless

lemma only_untimed (target : FulfillmentState) {key : EventKey}
    (mine : EventKey.writer key = .fulfillmentWorker) : Only kind (transition target key none) :=
  ⟨timeless.transition _ _ mine, fun reply => only_adapter reply⟩

lemma only_enqueueMilestone (template : NotificationKind) (snapshot : OrderSnapshot)
    (version confirmations : Nat) :
    Only kind (enqueueMilestone template snapshot version confirmations) :=
  only_bind (only_valueError _) fun _ =>
    only_bind (only_request (timeless.other _ rfl)) fun reply => only_adapter reply

lemma only_deliver (snapshot : OrderSnapshot) (proof : StoredProof Instant) :
    Only kind (deliver s snapshot proof) := by
  refine only_bind (only_request (timeless.other _ rfl)) fun observation => ?_
  cases observation with
  | none => trivial
  | some observation =>
    refine only_bind (only_valueError _) fun receipt => only_bind (only_valueError _) fun bundle => ?_
    refine only_bind (only_request (timeless.other _ rfl)) fun reply =>
      only_bind (only_adapter reply) fun _ => ?_
    exact only_enqueueMilestone timeless _ _ _ _

lemma only_deliveryHandler : Only kind (deliveryHandler s) := by
  refine only_bind (only_load timeless.passive) fun order => ?_
  split
  · trivial
  · split
    · trivial
    · refine only_bind (only_request (timeless.other _ rfl)) fun latest => ?_
      cases latest with
      | none => trivial
      | some proof =>
        simp only
        split
        · trivial
        · refine only_bind (only_request (timeless.other _ rfl)) fun reply =>
            only_bind (only_adapter reply) fun stored => ?_
          cases stored with
          | none => trivial
          | some verification =>
            simp only
            split
            · trivial
            · exact only_deliver timeless _ _

lemma only_enqueueJob (spec : JobSpec) (availableAt : Instant) :
    Only kind (enqueueJob s spec availableAt) :=
  only_bind (only_request (timeless.other _ rfl)) fun _ => only_dispatchIf timeless.passive _

lemma only_confirmationPoll (orderId : Nat) : Only kind (confirmationPoll s orderId) :=
  only_bind (only_request (timeless.other _ rfl)) fun _ => only_enqueueJob timeless _ _

omit timeless in
lemma only_orPoll {handler poll after : Handler Unit} (first : Only kind handler)
    (polls : Only kind poll) (afterwards : Only kind after) :
    Only kind (orPoll handler poll after) := by
  refine only_bind (only_attempt first) fun result => ?_
  split
  · exact afterwards
  · exact polls
  · trivial

lemma only_afterUpgrade (orderId : Nat) : Only kind (afterUpgrade s orderId) := by
  refine only_bind (only_request (timeless.other _ rfl)) fun order => ?_
  cases order with
  | none => trivial
  | some order =>
    simp only
    split
    · exact only_bind (only_request (timeless.other _ rfl)) fun _ =>
        only_enqueueJob timeless _ _
    · trivial

lemma only_terminalFailure (safeCode : String) : Only kind (terminalFailure safeCode) :=
  only_bind (only_untimed timeless _ rfl) fun _ => trivial

lemma only_finishJob (job : ClaimedJob) (outcome : JobOutcome) (now : Instant)
    (retryAt : Option Instant) (code : Option String) :
    Only kind (finishJob s job outcome now retryAt code) :=
  only_bind (only_request (timeless.other _ rfl)) fun reply =>
    only_bind (only_adapter reply) fun _ => only_dispatchIf timeless.passive _

lemma only_finishNow (job : ClaimedJob) (outcome : JobOutcome) (code : Option String) :
    Only kind (finishNow s job outcome code) :=
  only_bind (only_request (timeless.other _ rfl)) fun _ => only_finishJob timeless _ _ _ _ _

lemma only_manualReviewEnd (job : ClaimedJob) (safeCode : String) :
    Only kind (manualReviewEnd s job safeCode) :=
  only_bind (only_terminalFailure timeless _) fun _ =>
    only_bind (only_finishNow timeless _ _ _) fun _ => trivial

lemma only_retryOrExhaust (job : ClaimedJob) (safeCode : String) :
    Only kind (retryOrExhaust s job safeCode) := by
  unfold retryOrExhaust
  split
  · exact only_bind (only_terminalFailure timeless _) fun _ =>
      only_bind (only_finishNow timeless _ _ _) fun _ => trivial
  · exact only_bind (only_request (timeless.other _ rfl)) fun _ =>
      only_bind (only_request (timeless.other _ rfl)) fun _ =>
        only_bind (only_finishJob timeless _ _ _ _ _) fun _ => trivial

lemma only_settle (job : ClaimedJob) (result : Except Failure Unit) :
    Only kind (settle s job result) := by
  unfold settle
  split
  · exact only_bind (only_finishNow timeless _ _ _) fun _ => trivial
  · exact only_manualReviewEnd timeless _ _
  · exact only_retryOrExhaust timeless _ _
  · exact only_retryOrExhaust timeless _ _

lemma only_enqueueProofJob (orderId : Nat) (allowed : List FulfillmentState)
    (jobKey : Nat → JobKey) : Only kind (enqueueProofJob s orderId allowed jobKey) := by
  refine only_bind (only_request (timeless.other _ rfl)) fun order => ?_
  cases order with
  | none => trivial
  | some order =>
    simp only
    split
    · trivial
    · refine only_bind (only_request (timeless.other _ rfl)) fun proof => ?_
      cases proof with
      | none => trivial
      | some proof =>
        exact only_bind (only_request (timeless.other _ rfl)) fun _ =>
          only_bind (only_enqueueJob timeless _ _) fun _ => trivial

lemma only_operatorReverify (orderId : Nat) (requestId : String) :
    Only kind (operatorReverify s orderId requestId) := by
  unfold operatorReverify
  exact only_enqueueProofJob timeless _ _ _

lemma only_operatorUpgrade (orderId : Nat) : Only kind (operatorUpgrade s orderId) := by
  unfold operatorUpgrade
  exact only_enqueueProofJob timeless _ _ _

lemma only_dispatchCommand (target : Option (Nat × Nat)) :
    Only kind (dispatchCommand s target) :=
  only_bind (only_dispatchIf timeless.passive _) fun _ => trivial

variable (observations : AdmitsObservations kind)
include observations

omit timeless in
lemma only_recordObservation (version : Nat) (e : Evidence Instant) :
    Only kind (recordObservation s version e) :=
  ⟨observations _ _ _, fun reply => only_adapter reply⟩

lemma only_reverify (order : FulfillmentOrder) (latest : StoredProof Instant) :
    Only kind (reverify s order latest) := by
  refine only_bind (only_verifyBitcoin timeless.passive _ _) fun verification => ?_
  cases verification with
  | unverified => trivial
  | verified e =>
    simp only
    split
    · trivial
    · exact only_bind (only_recordObservation observations _ _) fun _ =>
        only_bind (only_untimed timeless _ rfl) fun _ => trivial

lemma only_confirmAgain (snapshot : OrderSnapshot) (proof : StoredProof Instant)
    (stored : Evidence Instant) (previous : Observation) :
    Only kind (confirmAgain s snapshot proof stored previous) := by
  refine only_bind (only_verifyBitcoin timeless.passive _ _) fun verification => ?_
  cases verification with
  | unverified => trivial
  | verified e =>
    simp only
    iterate 2 (split; · trivial)
    refine only_bind (only_recordObservation observations _ _) fun observation => ?_
    split
    · trivial
    · exact only_enqueueMilestone timeless _ _ _ _

lemma only_confirmationHandler : Only kind (confirmationHandler s) := by
  refine only_bind (only_load timeless.passive) fun order => ?_
  split
  · trivial
  · refine only_bind (only_request (timeless.other _ rfl)) fun latest => ?_
    cases latest with
    | none => trivial
    | some proof =>
      simp only
      split
      · trivial
      · refine only_bind (only_request (timeless.other _ rfl)) fun reply =>
          only_bind (only_adapter reply) fun stored =>
            only_bind (only_request (timeless.other _ rfl)) fun previous => ?_
        split
        · exact only_confirmAgain timeless observations _ _ _ _
        · trivial

end

/-! ## Stamping -/

section
variable (stamping : AdmitsStamping kind)
include stamping

lemma only_begin {key : EventKey} (time : Option Instant)
    (mine : EventKey.writer key = .fulfillmentWorker) : Only kind (transition .stamping key time) :=
  ⟨stamping.stamping _ _ mine, fun reply => only_adapter reply⟩

lemma only_pend {key : EventKey} (time : Option Instant)
    (mine : EventKey.writer key = .fulfillmentWorker) :
    Only kind (transition .calendarPending key time) :=
  ⟨stamping.pending _ _ mine, fun reply => only_adapter reply⟩

lemma only_appendOnce (proof : StoredProof Instant) : Only kind (appendOnce proof) := by
  refine only_bind (only_request (stamping.append proof)) fun reply => ?_
  match reply with
  | .ok () => trivial
  | .error .database => trivial
  | .error (.value _) =>
    refine only_bind (only_request (stamping.passive _ rfl)) fun replay => ?_
    split <;> trivial

lemma only_stampReplay (order : FulfillmentOrder) (latest : StoredProof Instant) :
    Only kind (stampReplay s order latest) := by
  unfold stampReplay
  iterate 3 (split; · trivial)
  split
  · exact only_bind (only_begin stamping _ rfl) fun _ =>
      only_bind (only_pend stamping _ rfl) fun _ => trivial
  · split
    · exact only_bind (only_pend stamping _ rfl) fun _ => trivial
    · trivial

lemma only_stampSubmit (snapshot : OrderSnapshot) : Only kind (stampSubmit s snapshot) := by
  refine only_bind (only_request (stamping.passive _ rfl)) fun reply => ?_
  match reply with
  | .error .proofInvalid => trivial
  | .error .unavailable => trivial
  | .ok pending =>
    simp only
    split
    · trivial
    · refine only_bind (only_adapter _) fun stored =>
        only_bind (only_appendOnce stamping stored) fun _ => ?_
      exact only_bind (only_begin stamping _ rfl) fun _ =>
        only_bind (only_pend stamping _ rfl) fun _ => trivial

lemma only_stampHandler : Only kind (stampHandler s) := by
  refine only_bind (only_load stamping.passive) fun order =>
    only_bind (only_request (stamping.passive _ rfl)) fun latest => ?_
  cases latest with
  | some latest => exact only_stampReplay stamping order latest
  | none =>
    simp only
    split
    · trivial
    · have submit : ∀ order : FulfillmentOrder, Only kind
          (if order.state.fulfillment ≠ .stamping then manualReview "stamp_state_invalid"
            else stampSubmit s order.state.snapshot) := by
        intro order
        split
        · trivial
        · exact only_stampSubmit stamping _
      split
      · exact only_bind (only_begin stamping _ rfl) submit
      · exact submit order

end

/-! ## Upgrading -/

variable (admits : Admits kind)
include admits

lemma only_transition (target : FulfillmentState) {key : EventKey} (time : Option Instant)
    (mine : EventKey.writer key = .fulfillmentWorker) : Only kind (transition target key time) :=
  ⟨admits.transition _ _ _ mine, fun reply => only_adapter reply⟩

lemma only_stampJobHandler (orderId : Nat) : Only kind (stampJobHandler s orderId) :=
  only_bind (only_stampHandler admits.stamping) fun _ =>
    only_bind (only_request (admits.other _ rfl)) fun _ => only_enqueueJob admits.timeless _ _

variable (observations : AdmitsObservations kind)
include observations

lemma only_confirmUpgrade (digest : ManifestDigest) (latest : StoredProof Instant) :
    Only kind (confirmUpgrade s digest latest) := by
  refine only_bind (only_verifyBitcoin admits.timeless.passive _ _) fun verification => ?_
  cases verification with
  | unverified => trivial
  | verified e =>
    refine only_bind (only_request (admits.other _ rfl)) fun reply =>
      only_bind (only_adapter reply) fun _ => ?_
    exact only_bind (only_recordObservation observations _ _) fun _ =>
      only_bind (only_transition admits _ _ rfl) fun _ => trivial

lemma only_upgradePending (snapshot : OrderSnapshot) (latest : StoredProof Instant) :
    Only kind (upgradePending s snapshot latest) := by
  refine only_bind (only_request (admits.other _ rfl)) fun reply => ?_
  match reply with
  | .error .proofInvalid => trivial
  | .error .unavailable => trivial
  | .ok upgradedBytes =>
    simp only
    split
    · trivial
    · split
      · exact only_confirmUpgrade admits observations _ _
      · exact only_bind (only_adapter _) fun upgraded =>
          only_bind (only_appendOnce admits.stamping upgraded) fun _ =>
            only_confirmUpgrade admits observations _ _

lemma only_upgradeHandler : Only kind (upgradeHandler s) := by
  refine only_bind (only_load admits.timeless.passive) fun order =>
    only_bind (only_request (admits.other _ rfl)) fun latest => ?_
  cases latest with
  | none => trivial
  | some proof =>
    simp only
    iterate 2 (split; · trivial)
    split
    · exact only_reverify admits.timeless observations _ _
    · split
      · trivial
      · exact only_upgradePending admits observations _ _

/-! ## The runner and the arrivals -/

lemma only_jobHandler (orderId : Nat) {jobKind : JobKind} {handler : Handler Unit}
    (known : jobHandler s orderId jobKind = some handler) : Only kind handler := by
  cases jobKind with
  | stampManifestDigest =>
    cases known
    exact only_stampJobHandler admits orderId
  | upgradeTimestamp =>
    cases known
    exact only_orPoll (only_upgradeHandler admits observations)
      (only_bind (only_request (admits.other _ rfl)) fun _ => only_enqueueJob admits.timeless _ _)
      (only_afterUpgrade admits.timeless orderId)
  | deliverTimestamp =>
    cases known
    exact only_bind (only_deliveryHandler admits.timeless) fun _ =>
      only_confirmationPoll admits.timeless orderId
  | monitorBitcoinConfirmations =>
    cases known
    exact only_orPoll (only_confirmationHandler admits.timeless observations)
      (only_confirmationPoll admits.timeless orderId) trivial
  | unknown name => cases known

lemma only_runClaimed (job : ClaimedJob) : Only kind (runClaimed s job) := by
  unfold runClaimed
  split
  · exact only_manualReviewEnd admits.timeless _ _
  · next handler known =>
    refine only_bind (only_attempt (only_jobHandler admits observations _ known)) fun result => ?_
    refine only_bind (only_request (admits.other _ rfl)) fun _ =>
      only_bind (only_request (admits.other _ rfl)) fun held => ?_
    split
    · exact only_settle admits.timeless _ _
    · trivial

lemma only_startJob (r : OrderRecord) (claimed : Option (ClaimedJob × JobTables)) :
    ∀ run ∈ (startJob s r claimed).2, Only kind run.prog := by
  intro run started
  cases claimed with
  | none => cases started
  | some claimed =>
    rw [List.mem_singleton.1 started]
    exact only_runClaimed admits observations _

/-- Whatever arrives, the runs it starts ask only for requests of the kind. -/
lemma only_arrival (now : Instant) (r : OrderRecord) (a : Arrival) :
    ∀ run ∈ (arriveRecord s now r a).2, Only kind run.prog := by
  intro run started
  cases a with
  | claim workerId => exact only_startJob admits observations _ _ run started
  | claimSpecific jobId generation workerId =>
    simp only [arriveRecord] at started
    split at started
    · exact only_startJob admits observations _ _ run started
    · cases started
  | operatorReverify requestId =>
    rw [List.mem_singleton.1 started]
    exact only_operatorReverify admits.timeless _ _
  | operatorUpgrade =>
    rw [List.mem_singleton.1 started]
    exact only_operatorUpgrade admits.timeless _
  | operatorReplay jobId =>
    simp only [arriveRecord] at started
    split at started
    · rw [List.mem_singleton.1 started]
      exact only_dispatchCommand admits.timeless _
    · cases started
  | recoverStale staleGrace limit =>
    simp only [arriveRecord] at started
    split at started
    · obtain ⟨target, -, rfl⟩ := List.mem_map.1 started
      exact only_dispatchCommand admits.timeless _
    · cases started
  | reconcile jobId generation =>
    rw [List.mem_singleton.1 started]
    exact only_dispatchCommand admits.timeless _
  | heartbeat | resendEvent | senderAccepted => cases started

end

end HandlerRequests
