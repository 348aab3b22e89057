import Mathlib.Data.List.Find
import SpacerocksCoa.VerifiedOrders

/-!
# Resend events around the acceptance of a message

The events of one message arrive before and after its sender records the acceptance,
once or several times each. Events and acceptance are transactions of the notification
adapters. A delivery may also overlap the acceptance: it looks for the message before
the acceptance is committed, finds none, and commits afterwards.

What becomes of the message and of the order is decided by which events are noticed. A
delivered event is noticed by the acceptance, by its own delivery or by a later replay,
and only while the order is verified or delivered. A bounce, a failure or a complaint is
noticed by its own first delivery only, whatever the state of the order. Other changes of
the order while the events arrive are not considered.
-/
namespace ResendEvents
open OrderStates ProofRecords OrderRows FulfillmentAdapters NotificationAdapters WorkerRuns
open VerifiedOrders (Verified)

/-! ## Deliveries and schedules -/

/-- Which searches for the message came before the acceptance was committed. A new event is
followed by one search; where the event is stored meanwhile, there is a second one. -/
inductive Searches where
  | late
  | firstEarly
  | allEarly
  deriving DecidableEq

/-- One delivery of a signed event; an early search finds no message to lock. -/
structure Delivery where
  event : VerifiedResendEvent
  payloadSha256 : Sha256
  now : Instant
  searches : Searches
  deriving DecidableEq

structure Schedule where
  before : List Delivery
  acceptedAt : Instant
  after : List Delivery

def Schedule.deliveries (s : Schedule) : List Delivery := s.before ++ s.after

/-- The rest of a delivery whose first search, or every search, came to nothing. -/
def processUnmatched (p : Platform) (searches : Searches) (event : VerifiedResendEvent)
    (payloadSha256 : Sha256) (now : Instant) (r : OrderRecord) :
    Except AdapterError (WebhookProcessResult × OrderRecord) :=
  match r.resendEvents.find? (fun e => e.svixEventId == event.svixEventId) with
  | some existing =>
    if validReplay existing event payloadSha256 then
      if searches = .allEarly then .ok ({ duplicate := true }, r)
      else reconcileReplayedEvent p existing now r
    else .error (.value "resend_webhook_replay_conflict")
  | none =>
    .ok ({ duplicate := false },
      { r with resendEvents := r.resendEvents ++ [storedEvent event payloadSha256 now] })

def processDelivery (p : Platform) (searches : Searches) (event : VerifiedResendEvent)
    (payloadSha256 : Sha256) (now : Instant) (r : OrderRecord) :
    Except AdapterError (WebhookProcessResult × OrderRecord) :=
  if searches = .late then processEvent p event payloadSha256 now r
  else processUnmatched p searches event payloadSha256 now r

def deliver (p : Platform) (r : OrderRecord) (d : Delivery) : OrderRecord :=
  (commit r (processDelivery p d.searches d.event d.payloadSha256 d.now r)).2

def accept (p : Platform) (message : ClaimedNotification) (acceptance : ProviderAcceptance)
    (now : Instant) (r : OrderRecord) : OrderRecord :=
  (commitUnit r (recordAccepted p message acceptance now r)).2

def Schedule.run (p : Platform) (message : ClaimedNotification)
    (acceptance : ProviderAcceptance) (s : Schedule) (r : OrderRecord) : OrderRecord :=
  s.after.foldl (deliver p) (accept p message acceptance s.acceptedAt (s.before.foldl (deliver p) r))

/-- The state of the message and the fulfillment state of the order. -/
def outcome (id : Nat) (r : OrderRecord) : Option OutboxState × FulfillmentState :=
  ((r.outbox.find? (fun m => m.id == id)).map OutboxRecord.state, r.order.fulfillmentState)

/-- The message is being sent, its evidence is in place and no event of it is stored yet. The
row of the order satisfies its check constraint. -/
structure Ready (p : Platform) (acceptance : ProviderAcceptance) (record : OutboxRecord)
    (r : OrderRecord) : Prop where
  status : acceptance.responseStatus = 200
  safe : safeProviderId acceptance.messageId = true
  fresh : ∀ m ∈ r.outbox, m.providerMessageId ≠ some acceptance.messageId
  unseen : ∀ e ∈ r.resendEvents, e.providerMessageId ≠ acceptance.messageId
  evidence : deliveryEvidenceMatches p r (markAccepted acceptance.messageId 0 record) = true
  paid : paidBeforeWork r.order = true

/-- The lease is held when the acceptance is recorded, and the events are the provider's own
for this message: what arrives twice is the same both times. -/
structure Schedule.Authentic (message : ClaimedNotification) (acceptance : ProviderAcceptance)
    (record : OutboxRecord) (r : OrderRecord) (s : Schedule) : Prop where
  leased : activeLease message s.acceptedAt r = .ok record
  provider : ∀ d ∈ s.deliveries, d.event.providerMessageId = acceptance.messageId
  unknown : ∀ d ∈ s.deliveries, ∀ e ∈ r.resendEvents, e.svixEventId ≠ d.event.svixEventId
  replays : ∀ d ∈ s.deliveries, ∀ d' ∈ s.deliveries,
    d.event.svixEventId = d'.event.svixEventId →
      d.event = d'.event ∧ d.payloadSha256 = d'.payloadSha256

/-! ## What is noticed -/

/-- The event of the delivery has arrived before. -/
def Delivery.Repeats (d : Delivery) (arrived : List Delivery) : Prop :=
  ∃ earlier ∈ arrived, earlier.event.svixEventId = d.event.svixEventId

instance (d : Delivery) (arrived : List Delivery) : Decidable (d.Repeats arrived) :=
  inferInstanceAs (Decidable (∃ earlier ∈ arrived, _))

/-- After the acceptance a delivered event is applied to a verified order, by a delivery that
looks for the message once more. -/
def Delivery.Delivers (r : OrderRecord) (d : Delivery) (arrived : List Delivery) : Prop :=
  Verified r ∧ d.event.eventType = .delivered ∧
    (d.searches = .late ∨ d.searches = .firstEarly ∧ d.Repeats arrived)

/-- After the acceptance a negative event is applied when it is new and its search is late. -/
def Delivery.Fails (d : Delivery) (arrived : List Delivery) : Prop :=
  ResendEventType.negative d.event.eventType = true ∧ d.searches = .late ∧ ¬d.Repeats arrived

instance (r : OrderRecord) (d : Delivery) (arrived : List Delivery) :
    Decidable (d.Delivers r arrived) := instDecidableAnd

instance (d : Delivery) (arrived : List Delivery) : Decidable (d.Fails arrived) :=
  instDecidableAnd

/-- Some delivery of the list satisfies a condition on it and on what arrived before it. -/
def Happens (condition : Delivery → List Delivery → Prop) (arrived deliveries : List Delivery) :
    Prop :=
  ∃ earlier d later, deliveries = earlier ++ d :: later ∧ condition d (arrived ++ earlier)

/-- A delivered event is noticed: by the acceptance, or by a delivery after it. -/
def DeliveryNoticed (r : OrderRecord) (s : Schedule) : Prop :=
  (Verified r ∧ ∃ d ∈ s.before, d.event.eventType = .delivered) ∨
    Happens (Delivery.Delivers r) s.before s.after

def FailureNoticed (s : Schedule) : Prop := Happens Delivery.Fails s.before s.after

lemma happens_nil (condition : Delivery → List Delivery → Prop) (arrived : List Delivery) :
    ¬Happens condition arrived [] := by
  rintro ⟨earlier, d, later, split, -⟩
  exact List.append_ne_nil_of_right_ne_nil _ (List.cons_ne_nil _ _) split.symm

lemma happens_cons (condition : Delivery → List Delivery → Prop) (arrived rest : List Delivery)
    (d : Delivery) :
    Happens condition arrived (d :: rest) ↔
      condition d arrived ∨ Happens condition (arrived ++ [d]) rest := by
  constructor
  · rintro ⟨earlier, found, later, split, holds⟩
    cases earlier with
    | nil =>
      cases split
      exact Or.inl (by simpa using holds)
    | cons first earlier =>
      cases split
      exact Or.inr ⟨earlier, found, later, rfl, by simpa using holds⟩
  · rintro (holds | ⟨earlier, found, later, rfl, holds⟩)
    · exact ⟨[], d, rest, rfl, by simpa using holds⟩
    · exact ⟨d :: earlier, found, later, rfl, by simpa using holds⟩

/-! ## The life of an accepted message -/

/-- How one delivery after the acceptance moves the message. -/
def nextState (r : OrderRecord) (d : Delivery) (arrived : List Delivery) (state : OutboxState) :
    OutboxState :=
  if d.Delivers r arrived then .delivered
  else if d.Fails arrived ∧ state ≠ .delivered then .failed
  else state

def finalState (r : OrderRecord) :
    List Delivery → OutboxState → List Delivery → OutboxState
  | _, state, [] => state
  | arrived, state, d :: rest => finalState r (arrived ++ [d]) (nextState r d arrived state) rest

lemma finalState_delivered (r : OrderRecord) (arrived deliveries : List Delivery) :
    finalState r arrived .delivered deliveries = .delivered := by
  induction deliveries generalizing arrived with
  | nil => rfl
  | cons d rest ih =>
    have stays : nextState r d arrived .delivered = .delivered := by
      simp [nextState]
    rw [finalState, stays]
    exact ih _

/-- A message that is accepted or failed ends delivered, failed or as it was, as the noticed
deliveries say. -/
lemma finalState_cases (r : OrderRecord) (arrived deliveries : List Delivery)
    (state : OutboxState) :
    (Happens (Delivery.Delivers r) arrived deliveries →
        finalState r arrived state deliveries = .delivered) ∧
      (¬Happens (Delivery.Delivers r) arrived deliveries → state ≠ .delivered →
        (Happens Delivery.Fails arrived deliveries →
            finalState r arrived state deliveries = .failed) ∧
          (¬Happens Delivery.Fails arrived deliveries →
            finalState r arrived state deliveries = state)) := by
  induction deliveries generalizing arrived state with
  | nil =>
    exact ⟨fun h => absurd h (happens_nil _ _),
      fun _ _ => ⟨fun h => absurd h (happens_nil _ _), fun _ => rfl⟩⟩
  | cons d rest ih =>
    have later := ih (arrived ++ [d]) (nextState r d arrived state)
    simp only [happens_cons, finalState]
    by_cases delivers : d.Delivers r arrived
    · have moved : nextState r d arrived state = .delivered := by
        rw [nextState, if_pos delivers]
      refine ⟨fun _ => ?_, fun none => absurd (Or.inl delivers) none⟩
      rw [moved]
      exact finalState_delivered _ _ _
    · refine ⟨fun noticed => later.1 (noticed.resolve_left delivers), fun none undelivered => ?_⟩
      rw [or_iff_right delivers] at none
      by_cases fails : d.Fails arrived
      · have moved : nextState r d arrived state = .failed := by
          rw [nextState, if_neg delivers, if_pos ⟨fails, undelivered⟩]
        have rest_cases := later.2 none (by rw [moved]; decide)
        refine ⟨fun _ => ?_, fun quiet => absurd (Or.inl fails) quiet⟩
        by_cases again : Happens Delivery.Fails (arrived ++ [d]) rest
        · exact rest_cases.1 again
        · rw [rest_cases.2 again, moved]
      · have stayed : nextState r d arrived state = state := by
          rw [nextState, if_neg delivers, if_neg fun failing => fails failing.1]
        rw [or_iff_right fails]
        rw [stayed] at later ⊢
        exact later.2 none undelivered

/-! ## Stored events -/

def Matches (e : ResendWebhookEvent) (d : Delivery) : Prop :=
  e.svixEventId = d.event.svixEventId ∧ validReplay e d.event d.payloadSha256 = true

/-- The stored events are the earlier ones and those of the deliveries so far. -/
structure Stored (earlier : List ResendWebhookEvent) (arrived : List Delivery)
    (events : List ResendWebhookEvent) : Prop where
  kept : ∀ d ∈ arrived, ∃ e ∈ events, Matches e d
  only : ∀ e ∈ events, e ∈ earlier ∨ ∃ d ∈ arrived, Matches e d

lemma matches_storedEvent (d : Delivery) :
    Matches (storedEvent d.event d.payloadSha256 d.now) d := by
  simp [Matches, storedEvent, validReplay]

lemma type_of_matches {e : ResendWebhookEvent} {d : Delivery} (h : Matches e d) :
    e.eventType = d.event.eventType ∧ e.providerMessageId = d.event.providerMessageId := by
  simp only [Matches, validReplay, Bool.and_eq_true, beq_iff_eq] at h
  exact ⟨h.2.1.1.1, h.2.1.1.2⟩

section
variable {earlier : List ResendWebhookEvent} {arrived : List Delivery}
  {events : List ResendWebhookEvent} {d : Delivery}

lemma stored_repeat (stored : Stored earlier arrived events) {e : ResendWebhookEvent}
    (member : e ∈ events) (same : Matches e d) : Stored earlier (arrived ++ [d]) events where
  kept d' arrives := by
    rcases List.mem_append.1 arrives with old | new
    · exact stored.kept d' old
    · cases List.mem_singleton.1 new
      exact ⟨e, member, same⟩
  only e' stays := by
    rcases stored.only e' stays with old | ⟨d', arrives, same'⟩
    · exact Or.inl old
    · exact Or.inr ⟨d', List.mem_append_left _ arrives, same'⟩

lemma stored_insert (stored : Stored earlier arrived events) :
    Stored earlier (arrived ++ [d])
      (events ++ [storedEvent d.event d.payloadSha256 d.now]) where
  kept d' arrives := by
    rcases List.mem_append.1 arrives with old | new
    · obtain ⟨e, member, same⟩ := stored.kept d' old
      exact ⟨e, List.mem_append_left _ member, same⟩
    · cases List.mem_singleton.1 new
      exact ⟨_, List.mem_append_right _ (List.mem_singleton.2 rfl), matches_storedEvent d⟩
  only e member := by
    rcases List.mem_append.1 member with old | new
    · rcases stored.only e old with first | ⟨d', arrives, same⟩
      · exact Or.inl first
      · exact Or.inr ⟨d', List.mem_append_left _ arrives, same⟩
    · cases List.mem_singleton.1 new
      exact Or.inr ⟨d, List.mem_append_right _ (List.mem_singleton.2 rfl), matches_storedEvent d⟩

/-- A repeated delivery finds its own event, a new one finds nothing. -/
lemma stored_lookup (stored : Stored earlier arrived events)
    (unknown : ∀ e ∈ earlier, e.svixEventId ≠ d.event.svixEventId)
    (replays : ∀ d' ∈ arrived, d'.event.svixEventId = d.event.svixEventId →
      d'.event = d.event ∧ d'.payloadSha256 = d.payloadSha256) :
    (d.Repeats arrived → ∃ e ∈ events, Matches e d ∧
        events.find? (fun e => e.svixEventId == d.event.svixEventId) = some e) ∧
      (¬d.Repeats arrived →
        events.find? (fun e => e.svixEventId == d.event.svixEventId) = none) := by
  constructor
  · rintro ⟨first, arrives, same⟩
    obtain ⟨e, member, known, -⟩ := stored.kept first arrives
    have present : (events.find? (fun e => e.svixEventId == d.event.svixEventId)).isSome :=
      List.find?_isSome.2 ⟨e, member, by simpa using known.trans same⟩
    obtain ⟨found, lookup⟩ := Option.isSome_iff_exists.1 present
    have here := List.mem_of_find?_eq_some lookup
    have svix : found.svixEventId = d.event.svixEventId := by
      simpa using List.find?_some lookup
    refine ⟨found, here, ?_, lookup⟩
    rcases stored.only found here with old | ⟨d', arrives', matching⟩
    · exact absurd svix (unknown found old)
    · obtain ⟨event, payload⟩ := replays d' arrives' (matching.1.symm.trans svix)
      exact ⟨svix, event ▸ payload ▸ matching.2⟩
  · intro new
    refine List.find?_eq_none.2 fun e member svix => ?_
    have known : e.svixEventId = d.event.svixEventId := by simpa using svix
    rcases stored.only e member with old | ⟨d', arrives, matching⟩
    · exact unknown e old known
    · exact new ⟨d', arrives, matching.1.symm.trans known⟩

end

/-! ## Before the acceptance -/

/-- Nothing but the stored events differs from the start. -/
def Waiting (start : OrderRecord) (arrived : List Delivery) (r : OrderRecord) : Prop :=
  r = { start with resendEvents := r.resendEvents } ∧
    Stored start.resendEvents arrived r.resendEvents

lemma waiting_start (start : OrderRecord) : Waiting start [] start :=
  ⟨rfl, fun _ arrives => absurd arrives (List.not_mem_nil), fun _ member => Or.inl member⟩

lemma reconcile_waiting {p : Platform} {e : ResendWebhookEvent} {now : Instant} {r : OrderRecord}
    (unmatched : messageOfProvider e.providerMessageId r = none) :
    reconcileReplayedEvent p e now r = .ok ({ duplicate := true }, r) := by
  unfold reconcileReplayedEvent
  split
  · rfl
  · rw [unmatched]

lemma deliver_waiting {p : Platform} {start r : OrderRecord} {arrived : List Delivery}
    {d : Delivery} (waiting : Waiting start arrived r)
    (unmatched : messageOfProvider d.event.providerMessageId r = none)
    (unknown : ∀ e ∈ start.resendEvents, e.svixEventId ≠ d.event.svixEventId)
    (replays : ∀ d' ∈ arrived, d'.event.svixEventId = d.event.svixEventId →
      d'.event = d.event ∧ d'.payloadSha256 = d.payloadSha256) :
    Waiting start (arrived ++ [d]) (deliver p r d) := by
  obtain ⟨same, stored⟩ := waiting
  obtain ⟨repeated, new⟩ := stored_lookup stored unknown replays
  by_cases again : d.Repeats arrived
  · obtain ⟨e, member, matching, found⟩ := repeated again
    have unchanged : deliver p r d = r := by
      have reconciled : reconcileReplayedEvent p e d.now r = .ok ({ duplicate := true }, r) :=
        reconcile_waiting ((type_of_matches matching).2 ▸ unmatched)
      simp only [deliver, processDelivery, processUnmatched, processEvent, found, matching.2,
        if_true, reconciled, commit, ite_self]
    rw [unchanged]
    exact ⟨same, stored_repeat stored member matching⟩
  · have inserted : deliver p r d = { r with
        resendEvents := r.resendEvents ++ [storedEvent d.event d.payloadSha256 d.now] } := by
      simp only [deliver, processDelivery, processUnmatched, processEvent, new again, unmatched,
        commit, ite_self]
    rw [inserted]
    refine ⟨?_, stored_insert stored⟩
    rw [same]

lemma run_waiting {p : Platform} {start : OrderRecord} {messageId : String}
    (fresh : ∀ m ∈ start.outbox, m.providerMessageId ≠ some messageId)
    (deliveries : List Delivery) (arrived : List Delivery) {r : OrderRecord}
    (waiting : Waiting start arrived r)
    (provider : ∀ d ∈ deliveries, d.event.providerMessageId = messageId)
    (unknown : ∀ d ∈ deliveries, ∀ e ∈ start.resendEvents, e.svixEventId ≠ d.event.svixEventId)
    (replays : ∀ d ∈ arrived ++ deliveries, ∀ d' ∈ arrived ++ deliveries,
      d.event.svixEventId = d'.event.svixEventId →
        d.event = d'.event ∧ d.payloadSha256 = d'.payloadSha256) :
    Waiting start (arrived ++ deliveries) (deliveries.foldl (deliver p) r) := by
  induction deliveries generalizing arrived r with
  | nil => simpa using waiting
  | cons d rest ih =>
    have unmatched : messageOfProvider d.event.providerMessageId r = none := by
      rw [provider d List.mem_cons_self, waiting.1]
      exact List.find?_eq_none.2 fun m member => by simpa using fresh m member
    have next := deliver_waiting (p := p) waiting unmatched (unknown d List.mem_cons_self)
      fun d' arrives => replays d' (List.mem_append_left _ arrives) d
        (List.mem_append_right _ List.mem_cons_self)
    have rest_waiting := ih (arrived ++ [d]) next
      (fun d' later => provider d' (List.mem_cons_of_mem _ later))
      (fun d' later => unknown d' (List.mem_cons_of_mem _ later))
      (by simpa using replays)
    simpa using rest_waiting

/-! ## From the acceptance on -/

/-- The rows that a delivered message has to agree with are the same. -/
structure SameEvidence (r r' : OrderRecord) : Prop where
  snapshot : r'.order.snapshot = r.order.snapshot
  proofs : r'.proofs = r.proofs
  verifications : r'.verifications = r.verifications
  bundles : r'.bundles = r.bundles
  observations : r'.observations = r.observations

/-- The order follows an initial confirmation that is delivered. -/
def orderState (kind : OutboxKind) (state : OutboxState) (before : FulfillmentState) :
    FulfillmentState :=
  if state = .delivered ∧ kind ≠ .notification .finalConfirmation then .delivered else before

/-- The accepted row in its present state. -/
def AcceptedRow (messageId : String) (acceptedAt : Instant) (record : OutboxRecord)
    (state : OutboxState) (m : OutboxRecord) : Prop :=
  m = { markAccepted messageId acceptedAt record with
    state := state
    deliveredAt := m.deliveredAt
    safeErrorCode := m.safeErrorCode }

/-- What one transaction after another keeps once the message is accepted. -/
structure Following (messageId : String) (acceptedAt : Instant) (record : OutboxRecord)
    (start : OrderRecord) (arrived : List Delivery) (state : OutboxState) (r : OrderRecord) :
    Prop where
  stored : Stored start.resendEvents arrived r.resendEvents
  same : SameEvidence start r
  order : r.order = { start.order with
    fulfillmentState := orderState record.kind state start.order.fulfillmentState }
  row : ∃ m, r.outbox.find? (fun m => m.id == record.id) = some m ∧
    messageOfProvider messageId r = some m ∧ AcceptedRow messageId acceptedAt record state m
  live : state = .accepted ∨ state = .failed ∨ state = .delivered

section
variable {p : Platform} {messageId : String} {acceptedAt : Instant} {record : OutboxRecord}
  {start r after : OrderRecord} {arrived : List Delivery} {state : OutboxState} {m : OutboxRecord}

lemma proofEvidence_of_same (same : SameEvidence start r)
    (version count observationId threshold : Nat) :
    proofEvidenceMatches p r version count observationId threshold =
      proofEvidenceMatches p start version count observationId threshold := by
  simp only [proofEvidenceMatches, notificationObservationMatches, OrderRecord.latestProof,
    OrderRecord.verification, OrderRecord.bundle, OrderRecord.observation,
    OrderRecord.latestObservation, same.proofs, same.verifications, same.bundles,
    same.observations, same.snapshot]

/-- The evidence stays in place while the message is accepted or failed. -/
lemma evidence_of_same (same : SameEvidence start r)
    (evidence : deliveryEvidenceMatches p start (markAccepted messageId 0 record) = true)
    (row : AcceptedRow messageId acceptedAt record state m)
    (sendable : state = .accepted ∨ state = .failed) :
    deliveryEvidenceMatches p r m = true := by
  have allowed : (state == .accepted || state == .failed) = true := by
    rcases sendable with accepted | failed
    · rw [accepted]
      rfl
    · rw [failed]
      rfl
  rw [AcceptedRow] at row
  rw [row]
  simp only [deliveryEvidenceMatches, markAccepted, proofEvidence_of_same same, same.snapshot,
    allowed] at evidence ⊢
  exact evidence

lemma kind_of_evidence (evidence : deliveryEvidenceMatches p r m = true) :
    ∃ kind version, m.kind = .notification kind ∧ m.proofVersion = some version ∧
      ∃ count observationId, m.confirmationCount = some count ∧
        m.confirmationObservationId = some observationId ∧
        kind.minimumConfirmations ≤ count ∧
        m.messageKey = .milestone ⟨kind, version, r.order.snapshot.orderReference⟩ ∧
        proofEvidenceMatches p r version count observationId kind.minimumConfirmations =
          true := by
  simp only [deliveryEvidenceMatches, Bool.and_eq_true] at evidence
  obtain ⟨-, fields⟩ := evidence
  split at fields
  · next kind version count observationId is_kind is_version is_count is_observation =>
    simp only [Bool.and_eq_true, beq_iff_eq, decide_eq_true_eq] at fields
    exact ⟨kind, version, is_kind, is_version, count, observationId, is_count, is_observation,
      fields.1.1.1.1, fields.1.1.1.2, fields.2⟩
  · cases fields

lemma proofEvidence_parts {version count observationId threshold : Nat}
    (evidence : proofEvidenceMatches p r version count observationId threshold = true) :
    ∃ proof v bundle, r.latestProof = some proof ∧ proof.version = version ∧
      r.verification version = some v ∧ r.bundle version = some bundle ∧
      notificationObservationMatches r version count observationId v threshold = true := by
  unfold proofEvidenceMatches at evidence
  split at evidence
  · cases evidence
  · next proof latest =>
    split at evidence
    · next v bundle verified bundled =>
      simp only [Bool.and_eq_true, beq_iff_eq] at evidence
      obtain ⟨⟨⟨⟨⟨same, -⟩, -⟩, observed⟩, -⟩, -⟩ := evidence
      exact ⟨proof, v, bundle, latest, same, verified, bundled, observed⟩
    · cases evidence

/-- The trigger accepts a delivered initial confirmation whose evidence is in place. -/
lemma sender_of_evidence {version count observationId : Nat} {v : ProofVerification}
    {event : ResendWebhookEvent} (same : SameEvidence r after)
    (kind : m.kind = .notification .initialConfirmation)
    (is_version : m.proofVersion = some version) (is_count : m.confirmationCount = some count)
    (is_observation : m.confirmationObservationId = some observationId) (enough : 1 ≤ count)
    (key : m.messageKey =
      .milestone ⟨.initialConfirmation, version, r.order.snapshot.orderReference⟩)
    (observed : notificationObservationMatches r version count observationId v 1 = true)
    (provider : m.providerMessageId = some event.providerMessageId)
    (accepted : m.acceptedAt.isSome = true) (stored : event ∈ after.resendEvents)
    (delivered : event.eventType = .delivered) :
    senderEvidence after version v (markDelivered event m) = true := by
  have signed : after.resendEvents.any (fun e =>
      some e.providerMessageId == some event.providerMessageId && e.eventType == .delivered) =
        true :=
    List.any_eq_true.2 ⟨event, stored, by simp [delivered]⟩
  simp only [notificationObservationMatches, Bool.and_eq_true, OrderRecord.observation,
    OrderRecord.latestObservation] at observed
  simp only [senderEvidence, markDelivered, key, kind, is_version, is_count, is_observation,
    provider, accepted, signed, same.snapshot, Option.any_some, Option.isSome_some,
    Option.bind_some, beq_self_eq_true, Bool.and_true, Bool.true_and, Bool.and_eq_true,
    decide_eq_true_eq, OrderRecord.observation, OrderRecord.latestObservation,
    same.observations]
  exact ⟨⟨enough, by simpa using observed.1⟩, by simpa using observed.2⟩

/-- The trigger lets the order move when its initial confirmation becomes delivered. -/
lemma guard_of_evidence {event : ResendWebhookEvent} (same : SameEvidence r after)
    (evidence : deliveryEvidenceMatches p r m = true)
    (initial : m.kind ≠ .notification .finalConfirmation)
    (verified : r.order.fulfillmentState = .bitcoinVerified)
    (paid : paidBeforeWork r.order = true)
    (provider : m.providerMessageId = some event.providerMessageId)
    (accepted : m.acceptedAt.isSome = true)
    (order : after.order = { r.order with fulfillmentState := .delivered })
    (member : markDelivered event m ∈ after.outbox) (stored : event ∈ after.resendEvents)
    (delivered : event.eventType = .delivered) :
    enforceOrderStateTransition r.order after = true := by
  obtain ⟨kind, version, is_kind, is_version, count, observationId, is_count, is_observation,
    enough, key, proofs⟩ := kind_of_evidence evidence
  obtain ⟨proof, v, bundle, latest, current, verification, bundled, observed⟩ :=
    proofEvidence_parts proofs
  have first : kind = .initialConfirmation := by
    cases kind with
    | initialConfirmation => rfl
    | finalConfirmation => exact absurd is_kind initial
  subst first
  have sender := sender_of_evidence same is_kind is_version is_count is_observation enough key
    observed provider accepted stored delivered
  have evidenced : latestDelivered after = true := by
    have latest_after : after.latestProof = some proof := by
      rw [OrderRecord.latestProof, same.proofs]
      exact latest
    have verification_after : after.verification proof.version = some v := by
      rw [OrderRecord.verification, same.verifications, current]
      exact verification
    have bundled_after : after.bundle proof.version = some bundle := by
      rw [OrderRecord.bundle, same.bundles, current]
      exact bundled
    simp only [latestDelivered, latest_after, verification_after, bundled_after,
      Option.isSome_some, Bool.true_and]
    rw [current]
    exact List.any_eq_true.2 ⟨_, member, sender⟩
  have settled : Settled r.order.paymentState := by
    simpa [paidBeforeWork, verified] using paid
  have edge : FulfillmentEdge r.order.fulfillmentState .delivered := by
    rw [verified]
    decide
  simp [enforceOrderStateTransition, order, evidenced, edge, paidBeforeWork, settled, PaymentEdge]

lemma row_modify {f : OutboxRecord → OutboxRecord} (keepsId : ∀ m, (f m).id = m.id)
    (keepsProvider : ∀ m, (f m).providerMessageId = m.providerMessageId)
    (found : r.outbox.find? (fun m => m.id == record.id) = some m)
    (matched : messageOfProvider messageId r = some m) :
    (modifyMessage m.id f r).outbox.find? (fun m => m.id == record.id) = some (f m) ∧
      messageOfProvider messageId (modifyMessage m.id f r) = some (f m) := by
  have ids : ((fun x : OutboxRecord => x.id == record.id) ∘ fun x => if x.id = m.id then f x else x) =
      fun x => x.id == record.id := by
    funext x
    simp only [Function.comp]
    split
    · rw [keepsId]
    · rfl
  have providers : ((fun x : OutboxRecord => x.providerMessageId == some messageId) ∘
      fun x => if x.id = m.id then f x else x) = fun x => x.providerMessageId == some messageId := by
    funext x
    simp only [Function.comp]
    split
    · rw [keepsProvider]
    · rfl
  constructor
  · simp only [modifyMessage, List.find?_map, ids, found, Option.map_some, if_true]
  · unfold messageOfProvider at matched ⊢
    simp only [modifyMessage, List.find?_map, providers, matched, Option.map_some, if_true]

lemma following_insert {d : Delivery}
    (following : Following messageId acceptedAt record start arrived state r) :
    Following messageId acceptedAt record start (arrived ++ [d]) state
      { r with resendEvents := r.resendEvents ++ [storedEvent d.event d.payloadSha256 d.now] } :=
  ⟨stored_insert following.stored, ⟨following.same.snapshot, following.same.proofs,
    following.same.verifications, following.same.bundles, following.same.observations⟩,
    following.order, following.row, following.live⟩

lemma following_failed {type : ResendEventType}
    (following : Following messageId acceptedAt record start arrived state r)
    (found : r.outbox.find? (fun m => m.id == record.id) = some m)
    (matched : messageOfProvider messageId r = some m)
    (row : AcceptedRow messageId acceptedAt record state m) :
    Following messageId acceptedAt record start arrived
      (if state = .delivered then .delivered else .failed)
      (modifyMessage m.id (markFailed type) r) := by
  have current : m.state = state := by rw [row]
  obtain ⟨found', matched'⟩ := row_modify (f := markFailed type)
    (fun x => by unfold markFailed; split <;> rfl) (fun x => by unfold markFailed; split <;> rfl)
    found matched
  refine ⟨following.stored, ⟨following.same.snapshot, following.same.proofs,
    following.same.verifications, following.same.bundles, following.same.observations⟩, ?_,
    ⟨_, found', matched', ?_⟩, ?_⟩
  · by_cases done : state = .delivered
    · simp only [if_pos done]
      rw [← done]
      exact following.order
    · simp only [if_neg done]
      have same := following.order
      rw [orderState, if_neg fun both => done both.1] at same
      exact same
  · by_cases done : state = .delivered
    · rw [markFailed, if_pos (current.trans done), if_pos done, ← done]
      exact row
    · rw [markFailed, if_neg fun same => done (current.symm.trans same), if_neg done]
      rw [AcceptedRow] at row ⊢
      rw [row]
  · by_cases done : state = .delivered
    · exact Or.inr (Or.inr (if_pos done))
    · exact Or.inr (Or.inl (if_neg done))

/-- The record once an initial confirmation moved its order. -/
def moveToDelivered (event : ResendWebhookEvent) (now : Instant) (m : OutboxRecord)
    (r : OrderRecord) : OrderRecord :=
  { modifyMessage m.id (markDelivered event) r with
    order := { r.order with fulfillmentState := .delivered }
    stateEvents := r.stateEvents ++ [newStateEvent r (.resendDelivered event.svixEventId)
      .resendWebhook { r.order with fulfillmentState := .delivered } now] }

/-- A stored delivered event of an accepted message takes effect while the order is verified. -/
lemma apply_verified {event : ResendWebhookEvent} (now : Instant)
    (following : Following messageId acceptedAt record start arrived state r)
    (evidence : deliveryEvidenceMatches p start (markAccepted messageId 0 record) = true)
    (verified : Verified start) (paid : paidBeforeWork start.order = true)
    (found : r.outbox.find? (fun m => m.id == record.id) = some m)
    (matched : messageOfProvider messageId r = some m)
    (row : AcceptedRow messageId acceptedAt record state m)
    (stored : event ∈ r.resendEvents) (provider : event.providerMessageId = messageId)
    (delivered : event.eventType = .delivered) :
    ∃ result r', applyDeliveredEvent p m event now r = .ok (result, r') ∧
      Following messageId acceptedAt record start arrived .delivered r' := by
  have current : m.state = state := by rw [row]
  have accepted : m.acceptedAt.isSome = true := by rw [row]; rfl
  have provided : m.providerMessageId = some event.providerMessageId := by rw [row, provider]; rfl
  have kind : m.kind = record.kind := by rw [row]; rfl
  by_cases done : state = .delivered
  · refine ⟨{ duplicate := false }, r, ?_, done ▸ following⟩
    simp [applyDeliveredEvent, deliverable, current, done]
  · have sendable : state = .accepted ∨ state = .failed := by
      rcases following.live with accepted | failed | gone
      · exact Or.inl accepted
      · exact Or.inr failed
      · exact absurd gone done
    have kept := evidence_of_same (p := p) following.same evidence row sendable
    have order : r.order = start.order := by
      have same := following.order
      rwa [orderState, if_neg fun both => done both.1] at same
    have able : deliverable p r m event = true := by
      have undelivered : (m.state != .delivered) = true := by
        rw [current]
        simpa using done
      have fulfilled : (r.order.fulfillmentState == .bitcoinVerified ||
          r.order.fulfillmentState == .delivered) = true := by
        rw [order]
        simpa [Verified] using verified
      simp only [deliverable, undelivered, accepted, provided, delivered, kept, fulfilled,
        beq_self_eq_true, Bool.and_self]
    obtain ⟨found', matched'⟩ := row_modify (f := markDelivered event)
      (fun _ => rfl) (fun _ => rfl) found matched
    have row' : AcceptedRow messageId acceptedAt record .delivered (markDelivered event m) := by
      rw [AcceptedRow] at row ⊢
      rw [row]
      rfl
    have same : SameEvidence start (modifyMessage m.id (markDelivered event) r) :=
      ⟨following.same.snapshot, following.same.proofs, following.same.verifications,
        following.same.bundles, following.same.observations⟩
    rw [applyDeliveredEvent, if_neg (by rw [able]; exact Bool.noConfusion)]
    by_cases stays : m.kind = .notification .finalConfirmation ∨
        r.order.fulfillmentState = .delivered
    · refine ⟨_, _, if_pos stays, following.stored, same, ?_, ⟨_, found', matched', row'⟩,
        Or.inr (Or.inr rfl)⟩
      rcases stays with final | delivered_before
      · rw [orderState, if_neg fun both => both.2 (kind ▸ final)]
        exact order
      · rw [order] at delivered_before
        have unchanged : orderState record.kind .delivered start.order.fulfillmentState =
            start.order.fulfillmentState := by
          rw [orderState, delivered_before, ite_self]
        rw [unchanged]
        exact order
    · rw [not_or] at stays
      have moving : r.order.fulfillmentState = .bitcoinVerified :=
        (congrArg Order.fulfillmentState order).trans
          (verified.resolve_right fun same => stays.2 (order ▸ same))
      have passes : enforceOrderStateTransition r.order (moveToDelivered event now m r) = true :=
        guard_of_evidence (r := r) ⟨rfl, rfl, rfl, rfl, rfl⟩ kept stays.1 moving (order ▸ paid)
          provided accepted rfl (List.mem_of_find?_eq_some found') stored delivered
      refine ⟨{ duplicate := false, notificationDelivered := true, orderTransitioned := true },
        moveToDelivered event now m r, ?_, following.stored, ⟨same.snapshot, same.proofs,
        same.verifications, same.bundles, same.observations⟩, ?_, ⟨_, found', matched', row'⟩,
        Or.inr (Or.inr rfl)⟩
      · rw [if_neg (not_or.2 stays)]
        simp only [moveToDelivered] at passes
        simp only [guarded, passes, Bool.not_true, Bool.and_false, Bool.false_eq_true, if_false]
        rfl
      · rw [orderState, if_pos ⟨rfl, fun final => stays.1 (kind.trans final)⟩, ← order]
        rfl

/-- Otherwise it changes nothing. -/
lemma apply_unverified {event : ResendWebhookEvent} (now : Instant)
    (following : Following messageId acceptedAt record start arrived state r)
    (row : AcceptedRow messageId acceptedAt record state m) (unverified : ¬Verified start) :
    applyDeliveredEvent p m event now r = .ok ({ duplicate := false }, r) := by
  have current : m.state = state := by rw [row]
  have idle : deliverable p r m event = false := by
    by_cases done : state = .delivered
    · simp [deliverable, current, done]
    · have order : r.order = start.order := by
        have same := following.order
        rwa [orderState, if_neg fun both => done both.1] at same
      rw [Verified, not_or] at unverified
      simp [deliverable, order, unverified.1, unverified.2]
  rw [applyDeliveredEvent, if_pos idle]

lemma apply_following {event : ResendWebhookEvent} (now : Instant)
    (following : Following messageId acceptedAt record start arrived state r)
    (evidence : deliveryEvidenceMatches p start (markAccepted messageId 0 record) = true)
    (paid : paidBeforeWork start.order = true)
    (found : r.outbox.find? (fun m => m.id == record.id) = some m)
    (matched : messageOfProvider messageId r = some m)
    (row : AcceptedRow messageId acceptedAt record state m)
    (stored : event ∈ r.resendEvents) (provider : event.providerMessageId = messageId)
    (delivered : event.eventType = .delivered) :
    ∃ result r', applyDeliveredEvent p m event now r = .ok (result, r') ∧
      Following messageId acceptedAt record start arrived
        (if Verified start then .delivered else state) r' := by
  by_cases verified : Verified start
  · rw [if_pos verified]
    exact apply_verified now following evidence verified paid found matched row stored provider
      delivered
  · rw [if_neg verified]
    exact ⟨_, _, apply_unverified now following row verified, following⟩

end

/-! ## Whole schedules -/

section
variable {p : Platform} {acceptance : ProviderAcceptance} {record : OutboxRecord}
  {acceptedAt : Instant} {start r : OrderRecord} {arrived : List Delivery} {state : OutboxState}
  {d : Delivery}

/-- The row is found by the provider's identifier, and it is accepted. -/
lemma matched_row
    (following : Following acceptance.messageId acceptedAt record start arrived state r) :
    ∃ m, r.outbox.find? (fun m => m.id == record.id) = some m ∧
      messageOfProvider acceptance.messageId r = some m ∧ m.acceptedAt.isNone = false ∧
      AcceptedRow acceptance.messageId acceptedAt record state m := by
  obtain ⟨m, found, matched, row⟩ := following.row
  refine ⟨m, found, matched, ?_, row⟩
  rw [AcceptedRow] at row
  rw [row]
  rfl

lemma repeat_following (ready : Ready p acceptance record start)
    (following : Following acceptance.messageId acceptedAt record start (arrived ++ [d]) state r)
    (provider : d.event.providerMessageId = acceptance.messageId)
    (again : d.Repeats arrived) (searched : d.searches ≠ .allEarly) {e : ResendWebhookEvent}
    (member : e ∈ r.resendEvents) (matching : Matches e d) :
    Following acceptance.messageId acceptedAt record start (arrived ++ [d])
      (nextState start d arrived state) (commit r (reconcileReplayedEvent p e d.now r)).2 := by
  obtain ⟨m, found, matched, accepted, row⟩ := matched_row following
  obtain ⟨type, same_provider⟩ := type_of_matches matching
  have repeated : ¬d.Fails arrived := fun fails => fails.2.2 again
  by_cases delivered : d.event.eventType = .delivered
  · obtain ⟨result, r', applied, next⟩ := apply_following d.now following ready.evidence
      ready.paid found matched row member (same_provider.trans provider) (type.trans delivered)
    have moved : nextState start d arrived state = if Verified start then .delivered else state := by
      have looked : d.searches = .late ∨ d.searches = .firstEarly ∧ d.Repeats arrived := by
        cases kind : d.searches with
        | late => exact Or.inl rfl
        | firstEarly => exact Or.inr ⟨rfl, again⟩
        | allEarly => exact absurd kind searched
      simp only [nextState, Delivery.Delivers, delivered, looked, repeated, false_and, if_false,
        and_true]
    rw [reconcileReplayedEvent, if_neg (not_not.2 (type.trans delivered)), same_provider, provider,
      matched, moved]
    simp only [accepted, Bool.false_eq_true, if_false, applied, commit]
    exact next
  · have stayed : nextState start d arrived state = state := by
      rw [nextState, if_neg fun delivers => delivered delivers.2.1,
        if_neg fun failing => repeated failing.1]
    rw [reconcileReplayedEvent, if_pos fun same => delivered (type.symm.trans same), stayed]
    exact following

lemma new_following (ready : Ready p acceptance record start)
    (following : Following acceptance.messageId acceptedAt record start arrived state r)
    (provider : d.event.providerMessageId = acceptance.messageId)
    (new : ¬d.Repeats arrived) (late : d.searches = .late)
    (missing : r.resendEvents.find? (fun e => e.svixEventId == d.event.svixEventId) = none) :
    Following acceptance.messageId acceptedAt record start (arrived ++ [d])
      (nextState start d arrived state)
      (commit r (processEvent p d.event d.payloadSha256 d.now r)).2 := by
  obtain ⟨m, found, matched, accepted, row⟩ := matched_row following
  have inserted := following_insert (d := d) following
  simp only [processEvent, missing, provider, matched, accepted, Bool.false_eq_true, if_false]
  by_cases negative : ResendEventType.negative d.event.eventType = true
  · have undelivered : d.event.eventType ≠ .delivered := by
      intro delivered
      rw [delivered] at negative
      cases negative
    have moved : nextState start d arrived state =
        if state = .delivered then .delivered else .failed := by
      rw [nextState, if_neg fun delivers => undelivered delivers.2.1]
      by_cases done : state = .delivered
      · rw [if_neg fun failing => failing.2 done, if_pos done, done]
      · rw [if_pos ⟨⟨negative, late, new⟩, done⟩, if_neg done]
    rw [if_pos negative, moved]
    exact following_failed inserted found matched row
  · have quiet : ¬d.Fails arrived := fun fails => negative fails.1
    rw [if_neg negative]
    by_cases delivered : d.event.eventType = .delivered
    · have moved : nextState start d arrived state =
          if Verified start then .delivered else state := by
        simp only [nextState, Delivery.Delivers, delivered, late, quiet, true_or, and_true,
          false_and, if_false]
      obtain ⟨result, r', applied, next⟩ := apply_following d.now inserted ready.evidence
        ready.paid found matched row (List.mem_append_right _ (List.mem_singleton.2 rfl)) provider
        delivered
      rw [if_neg (not_not.2 delivered), moved, applied]
      exact next
    · have stayed : nextState start d arrived state = state := by
        rw [nextState, if_neg fun delivers => delivered delivers.2.1,
          if_neg fun failing => quiet failing.1]
      rw [if_pos delivered, stayed]
      exact inserted

/-- An early search leaves the message alone: a new event is stored only. -/
lemma early_stays (early : d.searches ≠ .late)
    (alone : d.searches = .allEarly ∨ ¬d.Repeats arrived) :
    nextState start d arrived state = state := by
  have quiet : ¬d.Fails arrived := fun fails => early fails.2.1
  have unseen : ¬d.Delivers start arrived := by
    rintro ⟨-, -, late | ⟨first, again⟩⟩
    · exact early late
    · rcases alone with all | new
      · rw [first] at all
        cases all
      · exact new again
  rw [nextState, if_neg unseen, if_neg fun failing => quiet failing.1]

lemma deliver_following (ready : Ready p acceptance record start)
    (following : Following acceptance.messageId acceptedAt record start arrived state r)
    (provider : d.event.providerMessageId = acceptance.messageId)
    (unknown : ∀ e ∈ start.resendEvents, e.svixEventId ≠ d.event.svixEventId)
    (replays : ∀ d' ∈ arrived, d'.event.svixEventId = d.event.svixEventId →
      d'.event = d.event ∧ d'.payloadSha256 = d.payloadSha256) :
    Following acceptance.messageId acceptedAt record start (arrived ++ [d])
      (nextState start d arrived state) (deliver p r d) := by
  obtain ⟨repeated, new⟩ := stored_lookup following.stored unknown replays
  by_cases again : d.Repeats arrived
  · obtain ⟨e, member, matching, found⟩ := repeated again
    have kept : Following acceptance.messageId acceptedAt record start (arrived ++ [d]) state r :=
      ⟨stored_repeat following.stored member matching, following.same, following.order,
        following.row, following.live⟩
    by_cases searched : d.searches = .allEarly
    · have early : d.searches ≠ .late := by
        rw [searched]
        exact Searches.noConfusion
      have unchanged : deliver p r d = r := by
        simp only [deliver, processDelivery, if_neg early, processUnmatched, found, matching.2,
          if_true, if_pos searched, commit]
      rw [unchanged, early_stays early (Or.inl searched)]
      exact kept
    · have reconciled : deliver p r d = (commit r (reconcileReplayedEvent p e d.now r)).2 := by
        simp only [deliver, processDelivery, processUnmatched, processEvent, found, matching.2,
          if_true, if_neg searched, ite_self]
      rw [reconciled]
      exact repeat_following ready kept provider again searched member matching
  · by_cases late : d.searches = .late
    · rw [deliver, processDelivery, if_pos late]
      exact new_following ready following provider again late (new again)
    · rw [deliver, processDelivery, if_neg late, processUnmatched, new again,
        early_stays late (Or.inr again)]
      exact following_insert following

lemma run_following (ready : Ready p acceptance record start) (deliveries : List Delivery)
    (following : Following acceptance.messageId acceptedAt record start arrived state r)
    (provider : ∀ d ∈ deliveries, d.event.providerMessageId = acceptance.messageId)
    (unknown : ∀ d ∈ deliveries, ∀ e ∈ start.resendEvents, e.svixEventId ≠ d.event.svixEventId)
    (replays : ∀ d ∈ arrived ++ deliveries, ∀ d' ∈ arrived ++ deliveries,
      d.event.svixEventId = d'.event.svixEventId →
        d.event = d'.event ∧ d.payloadSha256 = d'.payloadSha256) :
    Following acceptance.messageId acceptedAt record start (arrived ++ deliveries)
      (finalState start arrived state deliveries) (deliveries.foldl (deliver p) r) := by
  induction deliveries generalizing arrived state r with
  | nil => simpa [finalState] using following
  | cons d rest ih =>
    have next := deliver_following ready following (provider d List.mem_cons_self)
      (unknown d List.mem_cons_self) fun d' arrives => replays d'
        (List.mem_append_left _ arrives) d (List.mem_append_right _ List.mem_cons_self)
    have rest_following := ih next
      (fun d' later => provider d' (List.mem_cons_of_mem _ later))
      (fun d' later => unknown d' (List.mem_cons_of_mem _ later)) (by simpa using replays)
    simpa [finalState] using rest_following

/-! ## The acceptance -/

lemma activeLease_ok {message : ClaimedNotification} {now : Instant}
    (leased : activeLease message now start = .ok record) :
    start.outbox.find? (fun m => m.id == message.id) = some record ∧ record.id = message.id := by
  unfold activeLease at leased
  split at leased
  · cases leased
  · next found =>
    split at leased
    · cases leased
    · split at leased
      · cases leased
      · cases leased
        exact ⟨found, by simpa using List.find?_some found⟩

/-- Recording the acceptance gives the row its provider identifier, which no other row has. -/
lemma accepted_rows {message : ClaimedNotification} {now : Instant}
    (ready : Ready p acceptance record start)
    (leased : activeLease message now start = .ok record) (waiting : Waiting start arrived r) :
    (finishAccepted message acceptance now r).outbox.find? (fun m => m.id == record.id) =
        some (markAccepted acceptance.messageId now record) ∧
      messageOfProvider acceptance.messageId (finishAccepted message acceptance now r) =
        some (markAccepted acceptance.messageId now record) := by
  obtain ⟨found, id⟩ := activeLease_ok leased
  have outbox : r.outbox = start.outbox := by rw [waiting.1]
  have ids : ((fun x : OutboxRecord => x.id == record.id) ∘ fun x =>
      if x.id = message.id then markAccepted acceptance.messageId now x else x) =
        fun x => x.id == message.id := by
    funext x
    simp only [Function.comp, id]
    split <;> rfl
  have providers : ∀ x ∈ start.outbox, ((fun x : OutboxRecord =>
      x.providerMessageId == some acceptance.messageId) ∘ fun x =>
        if x.id = message.id then markAccepted acceptance.messageId now x else x) x =
          (x.id == message.id) := by
    intro x member
    by_cases same : x.id = message.id
    · simp [markAccepted, same]
    · simp [same, ready.fresh x member]
  unfold messageOfProvider
  simp only [finishAccepted, modifyMessage, List.find?_map, outbox]
  rw [ids, List.find?_congr providers, found]
  simp only [Option.map_some, id, if_true, and_self]

lemma accepted_following {message : ClaimedNotification} {now : Instant}
    (ready : Ready p acceptance record start)
    (leased : activeLease message now start = .ok record) (waiting : Waiting start arrived r) :
    Following acceptance.messageId now record start arrived .accepted
      (finishAccepted message acceptance now r) := by
  obtain ⟨found, matched⟩ := accepted_rows ready leased waiting
  refine ⟨waiting.2, ?_, ?_, ⟨_, found, matched, rfl⟩, Or.inl rfl⟩
  · rw [waiting.1]
    exact ⟨rfl, rfl, rfl, rfl, rfl⟩
  · rw [waiting.1, orderState, if_neg fun both => OutboxState.noConfusion both.1]
    rfl

/-- The acceptance looks for a delivered event that arrived before it. -/
lemma earliestDelivered_cases (unseen : ∀ e ∈ start.resendEvents,
      e.providerMessageId ≠ acceptance.messageId)
    (stored : Stored start.resendEvents arrived r.resendEvents)
    (provider : ∀ d ∈ arrived, d.event.providerMessageId = acceptance.messageId) :
    ((∃ d ∈ arrived, d.event.eventType = .delivered) →
        ∃ e ∈ r.resendEvents, earliestDelivered acceptance.messageId r = some e ∧
          e.providerMessageId = acceptance.messageId ∧ e.eventType = .delivered) ∧
      ((¬∃ d ∈ arrived, d.event.eventType = .delivered) →
        earliestDelivered acceptance.messageId r = none) := by
  constructor
  · rintro ⟨d, arrives, delivered⟩
    obtain ⟨e, member, matching⟩ := stored.kept d arrives
    obtain ⟨type, same_provider⟩ := type_of_matches matching
    cases chosen : earliestDelivered acceptance.messageId r with
    | none =>
      have empty := List.filter_eq_nil_iff.1 (List.argmin_eq_none.1 chosen) e member
      simp [type, same_provider, delivered, provider d arrives] at empty
    | some first =>
      have among := List.mem_filter.1 (List.argmin_mem chosen)
      simp only [Bool.and_eq_true, beq_iff_eq] at among
      exact ⟨first, among.1, rfl, among.2.1, among.2.2⟩
  · intro none
    refine List.argmin_eq_none.2 (List.filter_eq_nil_iff.2 fun e member chosen => ?_)
    simp only [Bool.and_eq_true, beq_iff_eq] at chosen
    rcases stored.only e member with old | ⟨d, arrives, matching⟩
    · exact unseen e old chosen.1
    · exact none ⟨d, arrives, (type_of_matches matching).1.symm.trans chosen.2⟩

/-- The state the acceptance leaves the message in. -/
def acceptedState (r : OrderRecord) (arrived : List Delivery) : OutboxState :=
  if Verified r ∧ ∃ d ∈ arrived, d.event.eventType = .delivered then .delivered else .accepted

lemma accept_following {message : ClaimedNotification} {now : Instant}
    (ready : Ready p acceptance record start)
    (leased : activeLease message now start = .ok record) (waiting : Waiting start arrived r)
    (provider : ∀ d ∈ arrived, d.event.providerMessageId = acceptance.messageId) :
    Following acceptance.messageId now record start arrived (acceptedState start arrived)
      (accept p message acceptance now r) := by
  have accepted := accepted_following ready leased waiting
  obtain ⟨found, matched⟩ := accepted_rows ready leased waiting
  obtain ⟨early, none⟩ := earliestDelivered_cases (r := finishAccepted message acceptance now r)
    ready.unseen accepted.stored provider
  have lease : activeLease message now r = .ok record := by
    rw [waiting.1]
    exact leased
  have unused : r.outbox.any (fun m => m.providerMessageId == some acceptance.messageId) = false := by
    rw [waiting.1]
    exact List.any_eq_false.2 fun x member => by simpa using ready.fresh x member
  have valid : ¬(acceptance.responseStatus ≠ 200 ∨ safeProviderId acceptance.messageId = false) := by
    simp [ready.status, ready.safe]
  rw [accept, recordAccepted, if_neg valid, lease]
  simp only [unused, Bool.false_eq_true, if_false]
  by_cases delivered : ∃ d ∈ arrived, d.event.eventType = .delivered
  · obtain ⟨e, member, chosen, same_provider, type⟩ := early delivered
    obtain ⟨result, r', applied, next⟩ := apply_following now accepted ready.evidence ready.paid
      found matched rfl member same_provider type
    have moved : acceptedState start arrived =
        if Verified start then .delivered else .accepted := by
      simp only [acceptedState, delivered, and_true]
    simp only [chosen, applied, commitUnit]
    rw [moved]
    exact next
  · have stayed : acceptedState start arrived = .accepted := if_neg fun both => delivered both.2
    simp only [none delivered, commitUnit]
    rw [stayed]
    exact accepted

end

/-! ## Every schedule -/

def Schedule.Contains (s : Schedule) (condition : ResendEventType → Prop) : Prop :=
  ∃ d ∈ s.deliveries, condition d.event.eventType

lemma contains_of_happens {s : Schedule} {condition : Delivery → List Delivery → Prop}
    {type : ResendEventType → Prop} (typed : ∀ d arrived, condition d arrived → type d.event.eventType)
    (happens : Happens condition s.before s.after) : s.Contains type := by
  obtain ⟨earlier, d, later, split, holds⟩ := happens
  refine ⟨d, List.mem_append_right _ ?_, typed d _ holds⟩
  rw [split]
  exact List.mem_append_right _ List.mem_cons_self

lemma contains_of_deliveryNoticed {r : OrderRecord} {s : Schedule}
    (noticed : DeliveryNoticed r s) : s.Contains (· = .delivered) := by
  rcases noticed with ⟨-, d, arrives, delivered⟩ | happens
  · exact ⟨d, List.mem_append_left _ arrives, delivered⟩
  · exact contains_of_happens (fun _ _ delivers => delivers.2.1) happens

lemma contains_of_failureNoticed {s : Schedule} (noticed : FailureNoticed s) :
    s.Contains (ResendEventType.negative · = true) :=
  contains_of_happens (fun _ _ fails => fails.1) noticed

section
variable {p : Platform} {message : ClaimedNotification} {acceptance : ProviderAcceptance}
  {record : OutboxRecord} {r : OrderRecord} {s : Schedule}

lemma outcome_of_following {messageId : String} {acceptedAt : Instant} {arrived : List Delivery}
    {state : OutboxState} {start : OrderRecord} (id : record.id = message.id)
    (following : Following messageId acceptedAt record start arrived state r) :
    outcome message.id r =
      (some state, orderState record.kind state start.order.fulfillmentState) := by
  obtain ⟨m, found, -, row⟩ := following.row
  have current : m.state = state := by rw [row]
  rw [outcome, ← id, found, following.order, Option.map_some, current]

lemma run_ends (ready : Ready p acceptance record r)
    (authentic : s.Authentic message acceptance record r) :
    outcome message.id (s.run p message acceptance r) =
      (some (finalState r s.before (acceptedState r s.before) s.after),
        orderState record.kind (finalState r s.before (acceptedState r s.before) s.after)
          r.order.fulfillmentState) := by
  have provider := authentic.provider
  have unknown := authentic.unknown
  simp only [Schedule.deliveries, List.forall_mem_append] at provider unknown
  have waiting := run_waiting (p := p) ready.fresh s.before [] (waiting_start r) provider.1
    unknown.1 fun d arrives d' arrives' => authentic.replays d (List.mem_append_left _ arrives) d'
      (List.mem_append_left _ arrives')
  have accepted := accept_following ready authentic.leased waiting provider.1
  exact outcome_of_following (activeLease_ok authentic.leased).2
    (run_following ready s.after accepted provider.2 unknown.2 authentic.replays)

/-- Every schedule ends as its noticed deliveries say. -/
lemma run_outcome (ready : Ready p acceptance record r)
    (authentic : s.Authentic message acceptance record r) :
    (DeliveryNoticed r s → outcome message.id (s.run p message acceptance r) =
        (some .delivered, orderState record.kind .delivered r.order.fulfillmentState)) ∧
      (¬DeliveryNoticed r s → FailureNoticed s →
        outcome message.id (s.run p message acceptance r) =
          (some .failed, r.order.fulfillmentState)) ∧
      (¬DeliveryNoticed r s → ¬FailureNoticed s →
        outcome message.id (s.run p message acceptance r) =
          (some .accepted, r.order.fulfillmentState)) := by
  rw [run_ends ready authentic]
  by_cases early : Verified r ∧ ∃ d ∈ s.before, d.event.eventType = .delivered
  · rw [acceptedState, if_pos early, finalState_delivered]
    exact ⟨fun _ => rfl, fun none => absurd (Or.inl early) none,
      fun none => absurd (Or.inl early) none⟩
  · obtain ⟨noticed, unnoticed⟩ := finalState_cases r s.before s.after .accepted
    rw [acceptedState, if_neg early, DeliveryNoticed, or_iff_right early]
    refine ⟨fun happens => ?_, fun none fails => ?_, fun none quiet => ?_⟩
    · rw [noticed happens]
    · rw [(unnoticed none (by decide)).1 fails]
      rfl
    · rw [(unnoticed none (by decide)).2 quiet]
      rfl

end

/-- Two interleavings of the same events end alike exactly when they agree on whether a
delivered event is noticed and, where none is, on whether a negative one is. -/
theorem interleavings_agree_iff (p : Platform) (message : ClaimedNotification)
    (acceptance : ProviderAcceptance) (record : OutboxRecord) (r : OrderRecord)
    (ready : Ready p acceptance record r) (s t : Schedule)
    (first : s.Authentic message acceptance record r)
    (second : t.Authentic message acceptance record r)
    (same : ∀ e, (∃ d ∈ s.deliveries, d.event = e) ↔ ∃ d ∈ t.deliveries, d.event = e) :
    outcome message.id (s.run p message acceptance r) =
        outcome message.id (t.run p message acceptance r) ↔
      (s.Contains (· = .delivered) → (DeliveryNoticed r s ↔ DeliveryNoticed r t)) ∧
        (s.Contains (ResendEventType.negative · = true) → ¬DeliveryNoticed r s →
          (FailureNoticed s ↔ FailureNoticed t)) := by
  have contained : ∀ condition : ResendEventType → Prop,
      t.Contains condition → s.Contains condition := by
    rintro condition ⟨d, member, holds⟩
    obtain ⟨d', member', event⟩ := (same d.event).2 ⟨d, member, rfl⟩
    exact ⟨d', member', event ▸ holds⟩
  obtain ⟨delivered_s, failed_s, accepted_s⟩ := run_outcome ready first
  obtain ⟨delivered_t, failed_t, accepted_t⟩ := run_outcome ready second
  by_cases ds : DeliveryNoticed r s
  · have known := contains_of_deliveryNoticed ds
    by_cases dt : DeliveryNoticed r t
    · simp [delivered_s ds, delivered_t dt, ds, dt]
    · by_cases ft : FailureNoticed t
      · simp [delivered_s ds, failed_t dt ft, ds, dt, known]
      · simp [delivered_s ds, accepted_t dt ft, ds, dt, known]
  · by_cases dt : DeliveryNoticed r t
    · have known := contained _ (contains_of_deliveryNoticed dt)
      by_cases fs : FailureNoticed s
      · simp [failed_s ds fs, delivered_t dt, ds, dt, known]
      · simp [accepted_s ds fs, delivered_t dt, ds, dt, known]
    · by_cases fs : FailureNoticed s
      · have known := contains_of_failureNoticed fs
        by_cases ft : FailureNoticed t
        · simp [failed_s ds fs, failed_t dt ft, ds, dt, fs, ft]
        · simp [failed_s ds fs, accepted_t dt ft, ds, dt, fs, ft, known]
      · by_cases ft : FailureNoticed t
        · have known := contained _ (contains_of_failureNoticed ft)
          simp [accepted_s ds fs, failed_t dt ft, ds, dt, fs, ft, known]
        · simp [accepted_s ds fs, accepted_t dt ft, ds, dt, fs, ft]

/-! ## A bounce before or after the acceptance

The order of the sample runs is verified and its initial confirmation is being sent. -/

/-- An archive without entries. -/
def bundleBytes : Bytes := [80, 75, 5, 6] ++ List.replicate 18 0

def bundleSha256 : Sha256 :=
  ⟨[135, 57, 199, 110, 104, 31, 144, 9, 35, 185, 0, 201, 223, 14, 247, 92, 244, 33, 211, 156,
    171, 181, 70, 80, 196, 185, 173, 25, 182, 167, 109, 133], rfl⟩

open VerifiedOrders in
def sendingPlatform : Platform where
  sha256 bytes := if bytes = bundleBytes then bundleSha256 else sampleSha256 bytes
  exactProof := samplePlatform.exactProof
  lowerEmail := samplePlatform.lowerEmail
  databaseGuard := true

open VerifiedOrders in
def sendingObservation : Observation :=
  newObservation 3 2 ⟨2, 101, sampleTime 20⟩ (sampleEvidence (sampleTime 20)) (sampleTime 20)

open VerifiedOrders in
def sendingMessage : OutboxMessage where
  messageKey := ⟨.initialConfirmation, 2, sampleOrder.snapshot.orderReference⟩
  orderReference := sampleOrder.snapshot.orderReference
  template := .initialConfirmation
  recipient := sampleOrder.snapshot.email
  proofVersion := 2
  confirmationCount := 101

open VerifiedOrders in
def sendingRow : OutboxRecord :=
  { newMessage 4 sendingMessage sendingObservation (sampleTime 21) with
    state := .leased
    attemptCount := 1
    leaseOwner := some "sender-a"
    leaseUntil := some (sampleTime 90)
    leaseToken := some 5 }

open VerifiedOrders in
def sendingRecord : OrderRecord :=
  { queuedRecord with
    order := { sampleOrder with
      fulfillmentState := .bitcoinVerified
      calendarSubmittedAt := some (sampleTime 2) }
    proofs :=
      [⟨1, sampleDigest, stampedBytes, sampleSha256 stampedBytes, sampleTime 2, none⟩,
        ⟨2, sampleDigest, upgradedBytes, sampleSha256 upgradedBytes, sampleTime 2, none⟩]
    verifications := [newVerification 2 (sampleEvidence (sampleTime 10))]
    bundles := [⟨2, bundleBytes, bundleSha256⟩]
    observations := [sendingObservation]
    outbox := [sendingRow]
    notificationAttempts :=
      [⟨4, 1, "sender-a", 5, sampleTime 30, none, none, none, none, none⟩] }

def sendingClaim : ClaimedNotification := ⟨4, 1, "sender-a", 5⟩
def sendingAcceptance : ProviderAcceptance := ⟨"resend-1", 200⟩

open VerifiedOrders in
def bounce : Delivery where
  event := ⟨"msg_1", .bounced, "resend-1", sampleTime 40⟩
  payloadSha256 :=
    ⟨[92, 20, 112, 218, 221, 194, 212, 118, 236, 17, 115, 76, 17, 132, 184, 207, 252, 95, 36, 20,
      168, 203, 16, 90, 121, 214, 56, 165, 29, 41, 46, 152], rfl⟩
  now := sampleTime 41
  searches := .late

open VerifiedOrders in
def delivery : Delivery where
  event := ⟨"msg_2", .delivered, "resend-1", sampleTime 42⟩
  payloadSha256 :=
    ⟨[83, 87, 153, 18, 76, 24, 161, 123, 224, 217, 104, 209, 98, 34, 137, 230, 138, 195, 139, 203,
      71, 109, 168, 166, 83, 45, 158, 79, 37, 107, 124, 11], rfl⟩
  now := sampleTime 43
  searches := .late

open VerifiedOrders in
def acceptedBetween (before after : List Delivery) : Schedule := ⟨before, sampleTime 45, after⟩

set_option maxRecDepth 4000 in
lemma sending_ready : Ready sendingPlatform sendingAcceptance sendingRow sendingRecord :=
  ⟨by decide, by decide, by decide, by decide, by decide, by decide⟩

/-- A delivered event noticed by the acceptance and one noticed by its own delivery, with the
bounce on the other side each time. -/
theorem delivered_message_agrees :
    outcome 4 ((acceptedBetween [delivery] [bounce, delivery]).run sendingPlatform sendingClaim
        sendingAcceptance sendingRecord) =
      outcome 4 ((acceptedBetween [bounce] [delivery]).run sendingPlatform sendingClaim
        sendingAcceptance sendingRecord) := by
  have verified : Verified sendingRecord := Or.inl rfl
  have early : DeliveryNoticed sendingRecord (acceptedBetween [delivery] [bounce, delivery]) :=
    Or.inl ⟨verified, delivery, List.mem_singleton.2 rfl, rfl⟩
  have late : DeliveryNoticed sendingRecord (acceptedBetween [bounce] [delivery]) :=
    Or.inr ⟨[], delivery, [], rfl, verified, rfl, Or.inl rfl⟩
  refine (interleavings_agree_iff sendingPlatform sendingClaim sendingAcceptance sendingRow
    sendingRecord sending_ready (acceptedBetween [delivery] [bounce, delivery])
    (acceptedBetween [bounce] [delivery]) ⟨by decide, by decide, by decide, by decide⟩
    ⟨by decide, by decide, by decide, by decide⟩ ?_).2
    ⟨fun _ => iff_of_true early late, fun _ unnoticed => absurd early unnoticed⟩
  rintro e
  constructor
  · rintro ⟨d, member, event⟩
    exact ⟨d, (by decide : ∀ d ∈ [delivery, bounce, delivery], d ∈ [bounce, delivery]) d member,
      event⟩
  · rintro ⟨d, member, event⟩
    exact ⟨d, (by decide : ∀ d ∈ [bounce, delivery], d ∈ [delivery, bounce, delivery]) d member,
      event⟩

set_option maxRecDepth 4000 in
/-- One bounce: before the acceptance it leaves the message accepted, after it failed. -/
theorem early_bounce_is_ignored :
    Ready sendingPlatform sendingAcceptance sendingRow sendingRecord ∧
      (acceptedBetween [bounce] []).Authentic sendingClaim sendingAcceptance sendingRow
        sendingRecord ∧
      (acceptedBetween [] [bounce]).Authentic sendingClaim sendingAcceptance sendingRow
        sendingRecord ∧
      (acceptedBetween [bounce] []).deliveries = (acceptedBetween [] [bounce]).deliveries ∧
      outcome 4 ((acceptedBetween [bounce] []).run sendingPlatform sendingClaim
        sendingAcceptance sendingRecord) = (some .accepted, .bitcoinVerified) ∧
      outcome 4 ((acceptedBetween [] [bounce]).run sendingPlatform sendingClaim
        sendingAcceptance sendingRecord) = (some .failed, .bitcoinVerified) :=
  ⟨sending_ready, ⟨by decide, by decide, by decide, by decide⟩,
    ⟨by decide, by decide, by decide, by decide⟩, rfl, by decide, by decide⟩

/-- The order is under review while its message is being sent. -/
def reviewedRecord : OrderRecord :=
  { sendingRecord with order := { sendingRecord.order with fulfillmentState := .manualReview } }

set_option maxRecDepth 4000 in
-- Under review no delivered event is noticed, so the bounce decides although one arrived.
example :
    Ready sendingPlatform sendingAcceptance sendingRow reviewedRecord ∧
      outcome 4 ((acceptedBetween [bounce] [delivery]).run sendingPlatform sendingClaim
        sendingAcceptance reviewedRecord) = (some .accepted, .manualReview) ∧
      outcome 4 ((acceptedBetween [delivery] [bounce]).run sendingPlatform sendingClaim
        sendingAcceptance reviewedRecord) = (some .failed, .manualReview) :=
  ⟨⟨by decide, by decide, by decide, by decide, by decide, by decide⟩, by decide, by decide⟩

end ResendEvents
