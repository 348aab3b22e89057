import Mathlib.Data.List.Perm.Basic
import Mathlib.Tactic.FinCases
import SpacerocksCoa.OrderStateMachine

/-!
# Stripe events in any order of delivery

Whole executions of the webhook for one bound order, one after another, while the canonical
checkout stays the same. What an event does to the payment depends on the canonical checkout
and on the present payment only, and the targets that one checkout allows lie on a chain, so
they commute. Redeliveries are absorbed: by the record of the event in the database, and in
the abstract picture because a target that was applied once changes nothing again.

Events that name another order, or none, are outside; a provider call that fails leaves
nothing behind and is redelivered.
-/
namespace DeliveryOrder
open OrderStates OrderRows JobClaims FulfillmentAdapters PaymentWebhooks OrderStateMachine
open TransactionalPrograms TransactionalPrograms.Prog

/-! ## Targets -/

/-- What a target does to a payment: a move that the table does not have is no move. -/
def advance (payment : PaymentState) : Option PaymentState → PaymentState
  | none => payment
  | some target => if target ∈ paymentTransitions payment then target else payment

/-- The targets that events can have while the canonical checkout is this one. -/
def possibleTargets (canonical : CanonicalCheckout) : List PaymentState :=
  if canonical.status = "complete" then
    if canonical.paymentStatus = "paid" then [.paid, .disputed, .refunded]
    else [.processing, .failed]
  else if canonical.status = "expired" then [.expired]
  else []

def Possible (canonical : CanonicalCheckout) (target : Option PaymentState) : Prop :=
  ∀ t ∈ target, t ∈ possibleTargets canonical

lemma advance_same (payment : PaymentState) (target : Option PaymentState) :
    advance (advance payment target) target = advance payment target := by
  cases target with
  | none => rfl
  | some t => cases payment <;> cases t <;> decide

/-- Targets that commute from every payment. -/
def Commuting (chain : List PaymentState) : Prop :=
  ∀ a ∈ chain, ∀ b ∈ chain, ∀ payment,
    advance (advance payment (some a)) (some b) = advance (advance payment (some b)) (some a)

lemma possibleTargets_commuting (canonical : CanonicalCheckout) :
    Commuting (possibleTargets canonical) := by
  have settled : Commuting [.paid, .disputed, .refunded] := by
    intro a ha b hb payment
    fin_cases ha <;> fin_cases hb <;> cases payment <;> rfl
  have open_ : Commuting [.processing, .failed] := by
    intro a ha b hb payment
    fin_cases ha <;> fin_cases hb <;> cases payment <;> rfl
  have expired : Commuting [.expired] := by
    intro a ha b hb payment
    fin_cases ha
    fin_cases hb
    rfl
  unfold possibleTargets
  split
  · split
    · exact settled
    · exact open_
  · split
    · exact expired
    · exact fun a ha => absurd ha List.not_mem_nil

lemma advance_comm {canonical : CanonicalCheckout} {a b : Option PaymentState}
    (ha : Possible canonical a) (hb : Possible canonical b) (payment : PaymentState) :
    advance (advance payment a) b = advance (advance payment b) a := by
  cases a with
  | none => rfl
  | some a =>
    cases b with
    | none => rfl
    | some b => exact possibleTargets_commuting canonical a (ha a rfl) b (hb b rfl) payment

/-! ## Deliveries -/

/-- An event as Stripe sends it; the identifier is what the provider answers when the event
does not carry its order. -/
structure AuthenticEvent where
  event : ProviderEvent
  payloadSha256 : Sha256
  internalOrderId : Option String
  deriving DecidableEq

def AuthenticEvent.resolved (e : AuthenticEvent) : ProviderEvent :=
  match e.event.internalOrderId with
  | some _ => e.event
  | none => { e.event with internalOrderId := e.internalOrderId }

lemma resolved_eventId (e : AuthenticEvent) : e.resolved.eventId = e.event.eventId := by
  unfold AuthenticEvent.resolved
  split <;> rfl

lemma resolved_eventType (e : AuthenticEvent) : e.resolved.eventType = e.event.eventType := by
  unfold AuthenticEvent.resolved
  split <;> rfl

lemma resolved_livemode (e : AuthenticEvent) : e.resolved.livemode = e.event.livemode := by
  unfold AuthenticEvent.resolved
  split <;> rfl

/-- One delivery of an event, with the clock and the fresh identifiers it meets. -/
structure StripeDelivery where
  event : AuthenticEvent
  now : Nat → Instant
  jobId : Nat → Nat
  messageId : Nat → Nat

def StripeDelivery.env (d : StripeDelivery) (canonical : CanonicalCheckout) (n : Nat) :
    PaymentEnv where
  now := d.now n
  jobId := d.jobId n
  messageId := d.messageId n
  orderId := .ok d.event.internalOrderId
  canonical := .ok canonical

variable (settings : PaymentSettings) (canonical : CanonicalCheckout)

/-- `WebhookService.process` from beginning to end. -/
def deliver (r : OrderRecord) (d : StripeDelivery) : OrderRecord :=
  (execute (performPayment settings) (processWebhook settings d.event.event d.event.payloadSha256)
    (d.env canonical) r).2

def deliverAll (ds : List StripeDelivery) (r : OrderRecord) : OrderRecord :=
  ds.foldl (deliver settings canonical) r

/-- The identifiers of the deliveries that changed a state of the order. -/
def changes : List StripeDelivery → OrderRecord → List String
  | [], _ => []
  | d :: rest, r =>
    if (deliver settings canonical r d).order.state = r.order.state then
      changes rest (deliver settings canonical r d)
    else d.event.event.eventId :: changes rest (deliver settings canonical r d)

/-- The target of an event for a bound order, if its binding is valid and it has one. -/
def effect (order : Order) (e : AuthenticEvent) : Option PaymentState :=
  if validBinding settings order e.resolved canonical = true then eventTarget e.resolved canonical
  else none

/-- Refunds and disputes need a checkout that is complete and paid. -/
def Guaranteed (e : AuthenticEvent) : Prop :=
  StripeEventType.isRefund e.event.eventType = true ∨
      StripeEventType.isDispute e.event.eventType = true →
    canonical.status = "complete" ∧ canonical.paymentStatus = "paid"

/-! ## The columns that decide -/

/-- The columns of the order that a delivery looks at, and how the one of them that events
write can differ. -/
structure SameBinding (before after : Order) : Prop where
  id : after.id = before.id
  snapshot : after.snapshot = before.snapshot
  session : after.checkoutSessionId = before.checkoutSessionId
  intent : after.paymentIntentId = before.paymentIntentId ∨
    (before.paymentIntentId = none ∧ after.paymentIntentId = canonical.paymentIntentId)

variable {settings canonical}

lemma sameBinding_refl (order : Order) : SameBinding canonical order order :=
  ⟨rfl, rfl, rfl, Or.inl rfl⟩

lemma SameBinding.trans {a b c : Order} (first : SameBinding canonical a b)
    (second : SameBinding canonical b c) : SameBinding canonical a c := by
  refine ⟨second.id.trans first.id, second.snapshot.trans first.snapshot,
    second.session.trans first.session, ?_⟩
  rcases second.intent with same | ⟨absent, adopted⟩
  · rw [same]
    exact first.intent
  · rcases first.intent with same | ⟨absent', _⟩
    · rw [same] at absent
      exact Or.inr ⟨absent, adopted⟩
    · exact Or.inr ⟨absent', adopted⟩

lemma absentOr_sameBinding {before after : Order} (same : SameBinding canonical before after) :
    absentOr after.paymentIntentId canonical.paymentIntentId =
      absentOr before.paymentIntentId canonical.paymentIntentId := by
  rcases same.intent with intent | ⟨absent, adopted⟩
  · rw [intent]
  · rw [absent, adopted]
    simp [absentOr]

lemma validBinding_sameBinding {before after : Order} (same : SameBinding canonical before after)
    (event : ProviderEvent) :
    validBinding settings after event canonical = validBinding settings before event canonical := by
  have base : baseValid settings after event canonical =
      baseValid settings before event canonical := by
    simp only [baseValid, same.id, same.snapshot, same.session, absentOr_sameBinding same]
  simp only [validBinding, base]

lemma findOrder_sameBinding {r r' : OrderRecord} (same : SameBinding canonical r.order r'.order)
    {event : ProviderEvent} (found : findOrderForEvent settings event r = some r.order) :
    findOrderForEvent settings event r' = some r'.order := by
  unfold findOrderForEvent at found ⊢
  split at found
  · split at found
    · next parsed => rw [if_pos (by rw [same.id]; exact parsed)]
    · cases found
  · split at found
    · next intent =>
      refine if_pos ?_
      rcases same.intent with kept | ⟨absent, _⟩
      · rw [kept]
        exact intent
      · rw [absent] at intent
        cases intent
    · cases found
  · cases found

lemma adoptIntent_sameBinding (order : Order) :
    SameBinding canonical order (adoptIntent order canonical) := by
  unfold adoptIntent
  split
  · next intent known absent =>
    refine ⟨rfl, rfl, rfl, Or.inr ⟨absent, ?_⟩⟩
    exact (Option.eq_some_of_filter_eq_some known).symm
  · exact sameBinding_refl order

/-! ## One delivery -/

lemma transitionPayment_eq (order : Order) (target : PaymentState) :
    transitionPayment order target =
      if target ∈ paymentTransitions order.paymentState then
        some { order with paymentState := target }
      else none := by
  have irreflexive : ∀ p : PaymentState, p ∉ paymentTransitions p := by
    intro p
    cases p <;> decide
  unfold transitionPayment OrderState.transitionPayment
  by_cases same : target = order.state.payment
  · rw [if_pos same]
    have present : target = order.paymentState := same
    simp only [present, irreflexive, if_false]
    exact if_pos rfl
  · rw [if_neg same]
    by_cases edge : target ∈ paymentTransitions order.paymentState
    · have edge' : ¬target ∉ paymentTransitions order.state.payment := not_not.2 edge
      have differs : target ≠ order.paymentState := same
      simp only [if_neg edge', if_pos edge, if_neg differs]
    · have edge' : target ∉ paymentTransitions order.state.payment := edge
      simp only [if_pos edge', if_neg edge]

lemma applyToRecord_payment (event : ProviderEvent) (now : Instant) (jobId messageId : Nat)
    (r : OrderRecord) :
    (applyToRecord event canonical now jobId messageId r).order.paymentState =
      advance r.order.paymentState (eventTarget event canonical) := by
  cases target : eventTarget event canonical with
  | none =>
    have applied : applyEvent r.order event canonical = none := by rw [applyEvent, target]; rfl
    simp only [applyToRecord, applied, advance]
    exact (adoptIntent_states _ _).1
  | some t =>
    have applied : applyEvent r.order event canonical = transitionPayment r.order t := by
      rw [applyEvent, target]
      rfl
    rw [transitionPayment_eq] at applied
    simp only [advance]
    split at applied
    · next edge =>
      rw [if_pos edge]
      simp only [applyToRecord, applied, settleOrder]
      split
      · exact (adoptIntent_states _ _).1
      · exact (adoptIntent_states _ _).1
    · next edge =>
      rw [if_neg edge]
      simp only [applyToRecord, applied]
      exact (adoptIntent_states _ _).1

lemma settleOrder_sameBinding {before order : Order} (same : SameBinding canonical before order) :
    SameBinding canonical before (settleOrder order) := by
  unfold settleOrder
  split
  · exact ⟨same.id, same.snapshot, same.session, same.intent⟩
  · exact same

lemma applyToRecord_sameBinding (event : ProviderEvent) (now : Instant) (jobId messageId : Nat)
    (r : OrderRecord) :
    SameBinding canonical r.order
      (applyToRecord event canonical now jobId messageId r).order := by
  cases applied : applyEvent r.order event canonical with
  | none =>
    simp only [applyToRecord, applied]
    exact adoptIntent_sameBinding r.order
  | some changed =>
    obtain ⟨target, -, moved⟩ := Option.bind_eq_some_iff.1 applied
    obtain ⟨change, -, -⟩ := transitionPayment_some moved
    have first : SameBinding canonical r.order changed := by
      rw [change]
      exact ⟨rfl, rfl, rfl, Or.inl rfl⟩
    simp only [applyToRecord, applied]
    exact settleOrder_sameBinding (first.trans (adoptIntent_sameBinding changed))

lemma enqueueFulfillment_jobs (order : Order) (now : Instant) (jobId messageId : Nat)
    {r : OrderRecord} (idle : r.tables.jobs = []) :
    (enqueueFulfillment order now jobId messageId r).tables.jobs.length = 1 := by
  have absent : ¬r.tables.jobs.any (fun job => job.jobKey == order.fulfillmentKey) = true := by
    rw [idle]
    exact Bool.false_ne_true
  rw [enqueueFulfillment, if_neg absent]
  simp only [insertJob, JobTables.addTaskDispatch, idle]
  rfl

/-- The step into `paid` creates the job, and no other step touches the jobs. -/
lemma applyToRecord_jobs (event : ProviderEvent) (now : Instant) (jobId messageId : Nat)
    {r : OrderRecord} (coupled : Coupled r) :
    let r' := applyToRecord event canonical now jobId messageId r
    (r'.tables.jobs = r.tables.jobs ∧
        (r'.order.paymentState = .paid → r.order.paymentState = .paid)) ∨
      (r'.order.paymentState = .paid ∧ r.tables.jobs = [] ∧ r'.tables.jobs.length = 1) := by
  intro r'
  rcases applyToRecord_states event canonical now jobId messageId r with
    ⟨payment, -, tables⟩ | ⟨edge, ⟨paid, -⟩ | ⟨unpaid, -, tables⟩⟩
  · exact Or.inl ⟨congrArg JobTables.jobs tables, fun paid => payment.symm.trans paid⟩
  · have unsettled : ¬Settled r.order.paymentState := by
      rw [paid] at edge
      revert edge
      cases r.order.paymentState <;> decide
    have idle := (coupled unsettled).2
    refine Or.inr ⟨paid, idle, ?_⟩
    cases applied : applyEvent r.order event canonical with
    | none =>
      have same : r'.order.paymentState = r.order.paymentState := by
        simp only [r', applyToRecord, applied]
        exact (adoptIntent_states _ _).1
      exact absurd (Or.inl (same.symm.trans paid)) unsettled
    | some changed =>
      have settled : (settleOrder (adoptIntent changed canonical)).paymentState = .paid := by
        have order : r'.order = settleOrder (adoptIntent changed canonical) := by
          simp only [r', applyToRecord, applied]
        exact order ▸ paid
      simp only [r', applyToRecord, applied, if_pos settled]
      exact enqueueFulfillment_jobs _ _ _ _ idle
  · exact Or.inl ⟨congrArg JobTables.jobs tables, fun paid => absurd paid unpaid⟩

variable (canonical) in
/-- The database lets every application of an event through. -/
lemma applyToRecord_passes (event : ProviderEvent) (now : Instant) (jobId messageId : Nat)
    {r : OrderRecord} (coupled : Coupled r) (row : StripeEvent) :
    enforceOrderStateTransition r.order
      (recordStripeEvent (applyToRecord event canonical now jobId messageId r) row) = true := by
  have legal := applyToRecord_legal event canonical now jobId messageId coupled
  have worked : paidBeforeWork (applyToRecord event canonical now jobId messageId r).order =
      true := by
    unfold paidBeforeWork
    by_cases settled :
        Settled (applyToRecord event canonical now jobId messageId r).order.paymentState
    · simp [settled]
    · simp [(legal.coupled settled).1]
  have states : (r.order.fulfillmentState =
        (applyToRecord event canonical now jobId messageId r).order.fulfillmentState) ∨
      ((applyToRecord event canonical now jobId messageId r).order.paymentState = .paid ∧
        (applyToRecord event canonical now jobId messageId r).order.fulfillmentState =
          .queued) := by
    rcases applyToRecord_states event canonical now jobId messageId r with
      ⟨-, same, -⟩ | ⟨-, ⟨paid, queued⟩ | ⟨-, same, -⟩⟩
    · exact Or.inl same.symm
    · exact Or.inr ⟨paid, queued⟩
    · exact Or.inl same.symm
  simp only [enforceOrderStateTransition, recordStripeEvent, Bool.and_eq_true]
  refine ⟨⟨⟨decide_eq_true legal.edges.payment, decide_eq_true legal.edges.fulfillment⟩, ?_⟩,
    worked⟩
  rcases states with same | ⟨paid, queued⟩
  · rw [same]
    simp
  · rw [paid, queued]
    simp

lemma deliver_foreign {r : OrderRecord} {d : StripeDelivery}
    (foreign : d.event.event.livemode ≠ settings.expectedLivemode) :
    deliver settings canonical r d = r := by
  rw [deliver, processWebhook, if_pos foreign]
  rfl

lemma deliver_known {r : OrderRecord} {d : StripeDelivery} {recorded : StripeEvent}
    (known : OrderRecord.stripeEvent r d.event.event.eventId = some recorded) :
    deliver settings canonical r d = r := by
  by_cases foreign : d.event.event.livemode ≠ settings.expectedLivemode
  · exact deliver_foreign foreign
  · rw [deliver, processWebhook, if_neg foreign]
    simp only [callPayment, request_bind, execute, performPayment, known, pure_eq]

/-- The webhook from the resolved event on. -/
def commitResolved (event : ProviderEvent) (payloadSha256 : Sha256) : Webhook WebhookResult := do
  let session ← callPayment (.boundSession event)
  let canonical ← retrieveBound session
  match ← callPayment (.commitEvent event payloadSha256 canonical) with
  | .ok result => pure result
  | .error e => fail (.adapter e)

lemma processNew_eq (event : ProviderEvent) (payloadSha256 : Sha256) :
    processNew event payloadSha256 =
      (resolveEvent event >>= fun event => commitResolved event payloadSha256) := by
  unfold processNew commitResolved
  congr 1
  funext event
  congr 1
  funext session
  congr 1
  funext canonical
  congr 1
  funext reply
  cases reply <;> rfl

variable (settings canonical) in
lemma execute_processNew (d : StripeDelivery) (r : OrderRecord) :
    ∃ envs : Nat → PaymentEnv, (∀ n, (envs n).canonical = .ok canonical) ∧
      (execute (performPayment settings) (processNew d.event.event d.event.payloadSha256)
        (fun n => d.env canonical (n + 1)) r).2 =
      (execute (performPayment settings)
        (commitResolved d.event.resolved d.event.payloadSha256) envs r).2 := by
  cases carried : d.event.event.internalOrderId with
  | some order =>
    refine ⟨fun n => d.env canonical (n + 1), fun _ => rfl, ?_⟩
    have resolved : d.event.resolved = d.event.event := by
      rw [AuthenticEvent.resolved, carried]
    rw [resolved, processNew_eq, resolveEvent, carried]
    rfl
  | none =>
    refine ⟨fun n => d.env canonical (n + 2), fun _ => rfl, ?_⟩
    have resolved : d.event.resolved =
        { d.event.event with internalOrderId := d.event.internalOrderId } := by
      rw [AuthenticEvent.resolved, carried]
    rw [resolved, processNew_eq, resolveEvent, carried]
    rfl

variable (canonical) in
/-- The last request of a delivery is one commit, with some clock and fresh identifiers. -/
lemma deliver_new {r : OrderRecord} {d : StripeDelivery} {session : String}
    (live : d.event.event.livemode = settings.expectedLivemode)
    (unknown : OrderRecord.stripeEvent r d.event.event.eventId = none)
    (found : findOrderForEvent settings d.event.resolved r = some r.order)
    (bound : r.order.checkoutSessionId = some session) :
    ∃ env : PaymentEnv, deliver settings canonical r d = (performPayment settings env
      (.commitEvent d.event.resolved d.event.payloadSha256 (some canonical)) r).2 := by
  obtain ⟨envs, answers, resolved⟩ := execute_processNew settings canonical d r
  refine ⟨envs 2, ?_⟩
  have starts : deliver settings canonical r d = (execute (performPayment settings)
      (processNew d.event.event d.event.payloadSha256) (fun n => d.env canonical (n + 1)) r).2 := by
    rw [deliver, processWebhook, if_neg (not_not.2 live)]
    simp only [callPayment, request_bind, execute, performPayment, unknown]
  rw [starts, resolved]
  simp only [commitResolved, callPayment, request_bind, execute, performPayment, found,
    Option.bind_some, bound, retrieveBound, ask_bind, answers, fromProvider, done_bind, pure_eq]
  cases commitEvent settings d.event.resolved d.event.payloadSha256 (some canonical)
    (envs 2).now (envs 2).jobId (envs 2).messageId r with
  | error e => rfl
  | ok result => rfl

/-! ## What a delivery leaves behind -/

/-- The identifier is recorded, with whatever result. -/
def Known (r : OrderRecord) (eventId : String) : Prop :=
  (OrderRecord.stripeEvent r eventId).isSome = true

instance (r : OrderRecord) (eventId : String) : Decidable (Known r eventId) :=
  inferInstanceAs (Decidable (_ = true))

lemma known_of_rows {r r' : OrderRecord} {row : StripeEvent} {eventId : String}
    (rows : r'.stripeEvents = r.stripeEvents ++ [row]) :
    Known r' eventId ↔ Known r eventId ∨ row.stripeEventId = eventId := by
  simp [Known, OrderRecord.stripeEvent, rows]

/-- One delivery: the payment advances by the effect of the event, the event is recorded, and
a job appears with the step into `paid` only. -/
structure Delivered (settings : PaymentSettings) (canonical : CanonicalCheckout)
    (r r' : OrderRecord) (e : AuthenticEvent) : Prop where
  binding : SameBinding canonical r.order r'.order
  coupled : Coupled r'
  payment : r'.order.paymentState =
    advance r.order.paymentState (effect settings canonical r.order e)
  changed : r'.order.state ≠ r.order.state → Known r' e.event.eventId
  grows : ∀ eventId, Known r eventId → Known r' eventId
  newest : ∀ eventId, Known r' eventId → Known r eventId ∨ e.event.eventId = eventId
  jobs : (r'.tables.jobs = r.tables.jobs ∧
      (r'.order.paymentState = .paid → r.order.paymentState = .paid)) ∨
    (r'.order.paymentState = .paid ∧ r.tables.jobs = [] ∧ r'.tables.jobs.length = 1)

lemma delivered_nothing {r : OrderRecord} {e : AuthenticEvent} (coupled : Coupled r)
    (none_ : effect settings canonical r.order e = none) :
    Delivered settings canonical r r e := by
  refine ⟨sameBinding_refl _, coupled, ?_, fun changed => absurd rfl changed, fun _ => id,
    fun _ => Or.inl, Or.inl ⟨rfl, id⟩⟩
  rw [none_]
  rfl

lemma effect_of_foreign {order : Order} {e : AuthenticEvent}
    (foreign : e.event.livemode ≠ settings.expectedLivemode) :
    effect settings canonical order e = none := by
  refine if_neg ?_
  have mismatch : (e.resolved.livemode == settings.expectedLivemode) = false := by
    rw [resolved_livemode]
    exact beq_false_of_ne foreign
  simp [validBinding, baseValid, mismatch]

lemma commit_delivered {r r' : OrderRecord} {e : AuthenticEvent} {now : Instant}
    {jobId messageId : Nat} {result : WebhookResult} {order : Order}
    (coupled : Coupled r) (unknown : ¬Known r e.event.eventId)
    (found : findOrderForEvent settings e.resolved r = some order) (same : order = r.order)
    (bound : r.order.checkoutSessionId ≠ none)
    (h : commitEvent settings e.resolved e.payloadSha256 (some canonical) now jobId messageId r =
      .ok (result, r')) : Delivered settings canonical r r' e := by
  subst same
  have absent : OrderRecord.stripeEvent r e.resolved.eventId = none := by
    rw [resolved_eventId]
    simpa [Known] using unknown
  unfold commitEvent at h
  simp only [absent, found, if_neg bound] at h
  have newest : ∀ (r'' : OrderRecord) (row : StripeEvent), row.stripeEventId = e.event.eventId →
      r''.stripeEvents = r.stripeEvents ++ [row] →
      Known r'' e.event.eventId ∧ (∀ eventId, Known r eventId → Known r'' eventId) ∧
        ∀ eventId, Known r'' eventId → Known r eventId ∨ e.event.eventId = eventId := by
    intro r'' row names rows
    refine ⟨(known_of_rows rows).2 (Or.inr names), fun eventId known =>
      (known_of_rows rows).2 (Or.inl known), fun eventId known => ?_⟩
    rcases (known_of_rows rows).1 known with old | new
    · exact Or.inl old
    · exact Or.inr (names ▸ new)
  split at h
  · next invalid =>
    have nothing : effect settings canonical r.order e = none :=
      if_neg (by rw [invalid]; exact Bool.false_ne_true)
    cases h
    obtain ⟨here, grows, only⟩ := newest (recordStripeEvent r _)
      (recordedEvent e.resolved e.payloadSha256 now (some "payment_binding_invalid"))
      (resolved_eventId e) rfl
    refine ⟨sameBinding_refl _, coupled, ?_, fun _ => here, grows, only, Or.inl ⟨rfl, id⟩⟩
    rw [nothing]
    rfl
  · next valid =>
    obtain ⟨-, rfl, -⟩ := guarded_ok h
    have target : effect settings canonical r.order e = eventTarget e.resolved canonical :=
      if_pos (Bool.of_not_eq_false valid)
    have legal := applyToRecord_legal e.resolved canonical now jobId messageId coupled
    have rows : (recordStripeEvent (applyToRecord e.resolved canonical now jobId messageId r)
        (recordedEvent e.resolved e.payloadSha256 now none)).stripeEvents = r.stripeEvents ++
          [recordedEvent e.resolved e.payloadSha256 now none] := by
      rw [recordStripeEvent, applyToRecord_stripeEvents]
    obtain ⟨here, grows, only⟩ := newest _ _ (resolved_eventId e) rows
    refine ⟨applyToRecord_sameBinding _ _ _ _ r, legal.coupled, ?_, fun _ => here, grows, only,
      applyToRecord_jobs _ _ _ _ coupled⟩
    rw [target]
    exact applyToRecord_payment _ _ _ _ r

variable (settings canonical) in
lemma commit_succeeds {r : OrderRecord} (e : AuthenticEvent) (now : Instant)
    (jobId messageId : Nat) (coupled : Coupled r) :
    ∃ result r', commitEvent settings e.resolved e.payloadSha256 (some canonical) now jobId
      messageId r = .ok (result, r') := by
  unfold commitEvent
  split
  · exact ⟨_, _, rfl⟩
  · split
    · next order checkout found isCanonical =>
      cases isCanonical
      split
      · exact ⟨_, _, rfl⟩
      · split
        · exact ⟨_, _, rfl⟩
        · have passes := applyToRecord_passes canonical e.resolved now jobId messageId coupled
            (recordedEvent e.resolved e.payloadSha256 now none)
          refine ⟨_, _, if_neg ?_⟩
          rw [passes, Bool.not_true, Bool.and_false]
          exact Bool.false_ne_true
    · exact ⟨_, _, rfl⟩

lemma deliver_delivered {r : OrderRecord} {d : StripeDelivery}
    (coupled : Coupled r) (unknown : ¬Known r d.event.event.eventId)
    (found : findOrderForEvent settings d.event.resolved r = some r.order)
    (bound : r.order.checkoutSessionId ≠ none) :
    Delivered settings canonical r (deliver settings canonical r d) d.event := by
  by_cases live : d.event.event.livemode = settings.expectedLivemode
  · obtain ⟨session, isBound⟩ := Option.ne_none_iff_exists'.1 bound
    have absent : OrderRecord.stripeEvent r d.event.event.eventId = none := by
      simpa [Known] using unknown
    obtain ⟨env, commit⟩ := deliver_new canonical live absent found isBound
    obtain ⟨result, r', done⟩ := commit_succeeds settings canonical d.event env.now env.jobId
      env.messageId coupled
    have left : deliver settings canonical r d = r' := by
      rw [commit, performPayment, done]
    rw [left]
    exact commit_delivered coupled unknown found rfl bound done
  · rw [deliver_foreign live]
    exact delivered_nothing coupled (effect_of_foreign live)

/-! ## Many deliveries -/

/-- Refunds and disputes being guaranteed, the effect of an event is a possible target. -/
lemma effect_possible {order : Order} {e : AuthenticEvent} (guaranteed : Guaranteed canonical e) :
    Possible canonical (effect settings canonical order e) := by
  intro t isTarget
  unfold effect at isTarget
  split at isTarget
  · next valid =>
    have complete : StripeEventType.isComplete e.resolved.eventType = true →
        canonical.status = "complete" := by
      intro isComplete
      by_contra incomplete
      simp [validBinding, isComplete, incomplete] at valid
    have expired : e.resolved.eventType = .checkoutSessionExpired →
        canonical.status = "expired" := by
      intro isExpired
      by_contra unexpired
      simp [validBinding, isExpired, StripeEventType.isComplete, unexpired] at valid
    rw [Guaranteed, ← resolved_eventType] at guaranteed
    unfold eventTarget at isTarget
    cases type : e.resolved.eventType with
    | checkoutSessionCompleted =>
      rw [type] at complete
      simp only [type] at isTarget
      split at isTarget
      · next paid =>
        cases isTarget
        simp [possibleTargets, complete rfl, paid]
      · next unpaid =>
        split at isTarget
        · cases isTarget
          simp [possibleTargets, complete rfl, unpaid]
        · cases isTarget
    | asyncPaymentSucceeded =>
      rw [type] at complete
      simp only [type] at isTarget
      split at isTarget
      · next paid =>
        cases isTarget
        simp [possibleTargets, complete rfl, paid]
      · cases isTarget
    | asyncPaymentFailed =>
      rw [type] at complete
      simp only [type] at isTarget
      split at isTarget
      · cases isTarget
      · next unpaid =>
        cases isTarget
        simp [possibleTargets, complete rfl, unpaid]
    | checkoutSessionExpired =>
      simp only [type] at isTarget
      cases isTarget
      simp [possibleTargets, expired type]
    | chargeRefunded | refundCreated | refundUpdated =>
      rw [type] at guaranteed
      obtain ⟨isComplete, paid⟩ := guaranteed (Or.inl rfl)
      simp only [type] at isTarget
      split at isTarget
      · cases isTarget
        simp [possibleTargets, isComplete, paid]
      · cases isTarget
    | chargeDisputeCreated | chargeDisputeUpdated =>
      rw [type] at guaranteed
      obtain ⟨isComplete, paid⟩ := guaranteed (Or.inr rfl)
      simp only [type] at isTarget
      cases isTarget
      simp [possibleTargets, isComplete, paid]
    | other name =>
      simp only [type] at isTarget
      cases isTarget
  · cases isTarget

lemma effect_sameBinding {before after : Order} (same : SameBinding canonical before after)
    (e : AuthenticEvent) :
    effect settings canonical after e = effect settings canonical before e := by
  rw [effect, effect, validBinding_sameBinding same]

/-- The events that are delivered for a bound order, while the canonical checkout is fixed. -/
structure Batch (settings : PaymentSettings) (canonical : CanonicalCheckout) (r : OrderRecord)
    (events : List AuthenticEvent) : Prop where
  bound : r.order.checkoutSessionId ≠ none
  resolves : ∀ e ∈ events, findOrderForEvent settings e.resolved r = some r.order
  identified : ∀ a ∈ events, ∀ b ∈ events, a.event.eventId = b.event.eventId → a = b
  guaranteed : ∀ e ∈ events, Guaranteed canonical e

/-- What holds between two deliveries: what was recorded since the start has been absorbed. -/
structure Underway (settings : PaymentSettings) (canonical : CanonicalCheckout)
    (events : List AuthenticEvent) (start r : OrderRecord) : Prop where
  binding : SameBinding canonical start.order r.order
  coupled : Coupled r
  grown : ∀ eventId, Known start eventId → Known r eventId
  absorbed : ∀ e ∈ events, Known r e.event.eventId → Known start e.event.eventId ∨
    advance r.order.paymentState (effect settings canonical start.order e) =
      r.order.paymentState

section
variable {events : List AuthenticEvent} {start r : OrderRecord} {d : StripeDelivery}

lemma underway_delivered (batch : Batch settings canonical start events)
    (underway : Underway settings canonical events start r) (member : d.event ∈ events)
    (unknown : ¬Known r d.event.event.eventId) :
    Delivered settings canonical r (deliver settings canonical r d) d.event := by
  refine deliver_delivered underway.coupled unknown
    (findOrder_sameBinding underway.binding (batch.resolves _ member)) ?_
  rw [underway.binding.session]
  exact batch.bound

lemma deliver_of_known (known : Known r d.event.event.eventId) :
    deliver settings canonical r d = r := by
  obtain ⟨recorded, found⟩ := Option.isSome_iff_exists.1 known
  exact deliver_known found

lemma deliver_payment (batch : Batch settings canonical start events)
    (underway : Underway settings canonical events start r) (member : d.event ∈ events) :
    (deliver settings canonical r d).order.paymentState =
      if Known start d.event.event.eventId then r.order.paymentState
      else advance r.order.paymentState (effect settings canonical start.order d.event) := by
  by_cases known : Known r d.event.event.eventId
  · rw [deliver_of_known known]
    split
    · rfl
    · next since => exact ((underway.absorbed _ member known).resolve_left since).symm
  · have new : ¬Known start d.event.event.eventId := fun old => known (underway.grown _ old)
    rw [if_neg new, (underway_delivered batch underway member known).payment,
      effect_sameBinding underway.binding]

lemma deliver_underway (batch : Batch settings canonical start events)
    (underway : Underway settings canonical events start r) (member : d.event ∈ events) :
    Underway settings canonical events start (deliver settings canonical r d) := by
  by_cases known : Known r d.event.event.eventId
  · rw [deliver_of_known known]
    exact underway
  · have delivered := underway_delivered batch underway member known
    have payment := delivered.payment
    rw [effect_sameBinding underway.binding] at payment
    refine ⟨underway.binding.trans delivered.binding, delivered.coupled,
      fun eventId old => delivered.grows _ (underway.grown _ old), fun e among recorded => ?_⟩
    rcases delivered.newest _ recorded with before | same
    · refine (underway.absorbed e among before).imp_right fun absorbed => ?_
      rw [payment, advance_comm (effect_possible (batch.guaranteed _ member))
        (effect_possible (batch.guaranteed _ among)), absorbed]
    · right
      rw [← batch.identified _ member _ among same, payment, advance_same]

lemma underway_start (coupled : Coupled start) :
    Underway settings canonical events start start :=
  ⟨sameBinding_refl _, coupled, fun _ => id, fun _ _ => Or.inl⟩

/-- The final payment is the fold of the effects, redeliveries included. -/
lemma deliverAll_payment (batch : Batch settings canonical start events)
    (ds : List StripeDelivery) (among : ∀ d ∈ ds, d.event ∈ events)
    (underway : Underway settings canonical events start r) :
    (deliverAll settings canonical ds r).order.paymentState =
      ((ds.map StripeDelivery.event).filter fun e => !decide (Known start e.event.eventId)).foldl
        (fun payment e => advance payment (effect settings canonical start.order e))
        r.order.paymentState := by
  induction ds generalizing r with
  | nil => rfl
  | cons d rest ih =>
    have member := among d List.mem_cons_self
    have later := ih (fun d' mem => among d' (List.mem_cons_of_mem _ mem))
      (deliver_underway batch underway member)
    rw [deliver_payment batch underway member] at later
    simp only [deliverAll, List.foldl_cons, List.map_cons] at later ⊢
    rw [later]
    by_cases old : Known start d.event.event.eventId
    · rw [if_pos old, List.filter_cons_of_neg (by simp [old])]
    · rw [if_neg old, List.filter_cons_of_pos (by simp [old]), List.foldl_cons]

/-- How the jobs of a record fit what it and its successors go through. -/
lemma deliverAll_jobs (batch : Batch settings canonical start events) (ds : List StripeDelivery)
    (among : ∀ d ∈ ds, d.event ∈ events)
    (underway : Underway settings canonical events start r) (few : r.tables.jobs.length ≤ 1)
    (worked : r.order.paymentState = .paid → r.tables.jobs ≠ []) :
    (deliverAll settings canonical ds r).tables.jobs.length ≤ 1 ∧
      ((deliverAll settings canonical ds r).tables.jobs ≠ [] ↔ r.tables.jobs ≠ [] ∨
        ∃ n, (deliverAll settings canonical (ds.take n) r).order.paymentState = .paid) := by
  induction ds generalizing r with
  | nil =>
    refine ⟨few, fun some_ => Or.inl some_, fun cases_ => ?_⟩
    rcases cases_ with some_ | ⟨n, paid⟩
    · exact some_
    · rw [List.take_nil] at paid
      exact worked paid
  | cons d rest ih =>
    have member := among d List.mem_cons_self
    have next := deliver_underway batch underway member
    have jobs : ((deliver settings canonical r d).tables.jobs = r.tables.jobs ∧
        ((deliver settings canonical r d).order.paymentState = .paid →
          r.order.paymentState = .paid)) ∨
        ((deliver settings canonical r d).order.paymentState = .paid ∧ r.tables.jobs = [] ∧
          (deliver settings canonical r d).tables.jobs.length = 1) := by
      by_cases known : Known r d.event.event.eventId
      · rw [deliver_of_known known]
        exact Or.inl ⟨rfl, id⟩
      · exact (underway_delivered batch underway member known).jobs
    have nextFew : (deliver settings canonical r d).tables.jobs.length ≤ 1 := by
      rcases jobs with ⟨same, -⟩ | ⟨-, -, one⟩
      · rw [same]
        exact few
      · exact Nat.le_of_eq one
    have nextWorked : (deliver settings canonical r d).order.paymentState = .paid →
        (deliver settings canonical r d).tables.jobs ≠ [] := by
      intro paid
      rcases jobs with ⟨same, before⟩ | ⟨-, -, one⟩
      · rw [same]
        exact worked (before paid)
      · exact List.ne_nil_of_length_pos (one ▸ Nat.one_pos)
    obtain ⟨one, iff_⟩ := ih (fun d' mem => among d' (List.mem_cons_of_mem _ mem)) next nextFew
      nextWorked
    refine ⟨one, iff_.trans ⟨fun later => ?_, fun earlier => ?_⟩⟩
    · rcases later with some_ | ⟨n, paid⟩
      · rcases jobs with ⟨same, -⟩ | ⟨paid, -, -⟩
        · exact Or.inl (same ▸ some_)
        · exact Or.inr ⟨1, paid⟩
      · exact Or.inr ⟨n + 1, paid⟩
    · rcases earlier with some_ | ⟨n, paid⟩
      · rcases jobs with ⟨same, -⟩ | ⟨-, none_, -⟩
        · exact Or.inl (same.symm ▸ some_)
        · exact absurd none_ some_
      · cases n with
        | zero =>
          rcases jobs with ⟨same, -⟩ | ⟨-, none_, -⟩
          · exact Or.inl (same.symm ▸ worked paid)
          · exact absurd none_ (worked paid)
        | succ n => exact Or.inr ⟨n, paid⟩

/-- An event that is recorded changes nothing any more. -/
lemma not_mem_changes (batch : Batch settings canonical start events) (ds : List StripeDelivery)
    (among : ∀ d ∈ ds, d.event ∈ events)
    (underway : Underway settings canonical events start r) {eventId : String}
    (known : Known r eventId) : eventId ∉ changes settings canonical ds r := by
  induction ds generalizing r with
  | nil => exact List.not_mem_nil
  | cons d rest ih =>
    have member := among d List.mem_cons_self
    have next := deliver_underway batch underway member
    have stays : Known (deliver settings canonical r d) eventId := by
      by_cases here : Known r d.event.event.eventId
      · rw [deliver_of_known here]
        exact known
      · exact (underway_delivered batch underway member here).grows _ known
    have later := ih (fun d' mem => among d' (List.mem_cons_of_mem _ mem)) next stays
    rw [changes]
    split
    · exact later
    · next changed =>
      intro isChange
      rcases List.mem_cons.1 isChange with rfl | mem
      · exact changed (by rw [deliver_of_known known])
      · exact later mem

lemma changes_nodup (batch : Batch settings canonical start events) (ds : List StripeDelivery)
    (among : ∀ d ∈ ds, d.event ∈ events)
    (underway : Underway settings canonical events start r) :
    (changes settings canonical ds r).Nodup := by
  induction ds generalizing r with
  | nil => exact List.nodup_nil
  | cons d rest ih =>
    have member := among d List.mem_cons_self
    have amongRest : ∀ d' ∈ rest, d'.event ∈ events :=
      fun d' mem => among d' (List.mem_cons_of_mem _ mem)
    have next := deliver_underway batch underway member
    rw [changes]
    split
    · exact ih amongRest next
    · next changed =>
      refine List.nodup_cons.2 ⟨not_mem_changes batch rest amongRest next ?_, ih amongRest next⟩
      by_cases here : Known r d.event.event.eventId
      · exact absurd (by rw [deliver_of_known here]) changed
      · exact (underway_delivered batch underway member here).changed changed

end

/-- Delivered in any order, with any repetitions and at any times, the same events leave the
same payment; at most one job is ever there, exactly when the order was paid on the way, and
every event changes a state at most once. -/
theorem delivery_order_does_not_matter (settings : PaymentSettings) (canonical : CanonicalCheckout)
    (r : OrderRecord) (created : Created r) (events : List AuthenticEvent)
    (batch : Batch settings canonical r events) (ds ds' : List StripeDelivery)
    (delivered : (ds.map StripeDelivery.event).Perm events)
    (delivered' : (ds'.map StripeDelivery.event).Perm events) :
    (deliverAll settings canonical ds r).order.paymentState =
        (deliverAll settings canonical ds' r).order.paymentState ∧
      (∀ n, (deliverAll settings canonical (ds.take n) r).tables.jobs.length ≤ 1) ∧
      ((deliverAll settings canonical ds r).tables.jobs ≠ [] ↔
        ∃ n, (deliverAll settings canonical (ds.take n) r).order.paymentState = .paid) ∧
      (changes settings canonical ds r).Nodup := by
  have among : ∀ ds : List StripeDelivery, (ds.map StripeDelivery.event).Perm events →
      ∀ d ∈ ds, d.event ∈ events :=
    fun ds perm d mem => perm.subset (List.mem_map_of_mem mem)
  have coupled : Coupled r := fun _ => ⟨created.fulfillment, created.jobs⟩
  have underway : Underway settings canonical events r r := underway_start coupled
  have idle : r.tables.jobs.length ≤ 1 := by
    rw [created.jobs]
    exact Nat.zero_le 1
  have unpaid : r.order.paymentState = .paid → r.tables.jobs ≠ [] := by
    rw [created.payment]
    exact PaymentState.noConfusion
  refine ⟨?_, fun n => ?_, ?_, changes_nodup batch ds (among ds delivered) underway⟩
  · rw [deliverAll_payment batch ds (among ds delivered) underway,
      deliverAll_payment batch ds' (among ds' delivered') underway]
    refine ((delivered.trans delivered'.symm).filter _).foldl_eq' ?_ _
    intro a ha b hb payment
    have inBatch : ∀ e ∈ (ds.map StripeDelivery.event).filter
        (fun e => !decide (Known r e.event.eventId)), e ∈ events :=
      fun e mem => delivered.subset (List.mem_of_mem_filter mem)
    exact advance_comm (effect_possible (batch.guaranteed a (inBatch a ha)))
      (effect_possible (batch.guaranteed b (inBatch b hb))) payment
  · exact (deliverAll_jobs batch (ds.take n)
      (fun d mem => among ds delivered d (List.mem_of_mem_take mem)) underway idle unpaid).1
  · refine (deliverAll_jobs batch ds (among ds delivered) underway idle unpaid).2.trans ?_
    exact or_iff_right fun some_ => some_ created.jobs

/-! ## Paid, disputed and refunded in two orders -/

open VerifiedOrders (sampleTime)

def boundRecord : OrderRecord :=
  { createdRecord with
    order := { createdRecord.order with checkoutSessionId := some "cs_live_1" } }

/-- The checkout of a payment that was refunded in full. -/
def refundedCheckout : CanonicalCheckout :=
  { paidCheckout with refundStatus := some "succeeded", refundedAmountTotal := 500 }

def completed : AuthenticEvent := ⟨paidEvent, samplePayload, none⟩

def disputed : AuthenticEvent :=
  ⟨{ paidEvent with eventId := "evt_2", eventType := .chargeDisputeCreated }, samplePayload, none⟩

/-- The refund does not carry the order; the provider resolves it. -/
def refunded : AuthenticEvent :=
  ⟨{ paidEvent with
      eventId := "evt_3"
      eventType := .chargeRefunded
      internalOrderId := none
      refundStatus := some "succeeded"
      refundedAmount := some 500 }, samplePayload, some sampleUuid⟩

def deliveredAt (seconds : Int) (e : AuthenticEvent) : StripeDelivery :=
  ⟨e, fun _ => sampleTime seconds, fun _ => 1, fun _ => 1⟩

def paidFirst : List StripeDelivery :=
  [deliveredAt 1 completed, deliveredAt 2 disputed, deliveredAt 3 completed,
    deliveredAt 4 refunded]

def refundedFirst : List StripeDelivery :=
  [deliveredAt 5 refunded, deliveredAt 6 completed, deliveredAt 7 disputed,
    deliveredAt 8 completed]

lemma sample_batch : Batch sampleSettings refundedCheckout boundRecord
    [completed, disputed, completed, refunded] :=
  ⟨by decide, by decide, by decide, fun _ _ _ => ⟨rfl, rfl⟩⟩

theorem refund_wins_in_both_orders :
    (deliverAll sampleSettings refundedCheckout paidFirst boundRecord).order.paymentState =
        .refunded ∧
      (deliverAll sampleSettings refundedCheckout paidFirst boundRecord).tables.jobs.length = 1 ∧
      (deliverAll sampleSettings refundedCheckout refundedFirst boundRecord).tables.jobs = [] ∧
      (deliverAll sampleSettings refundedCheckout paidFirst boundRecord).order.paymentState =
        (deliverAll sampleSettings refundedCheckout refundedFirst boundRecord).order.paymentState :=
  ⟨by decide, by decide, by decide,
    (delivery_order_does_not_matter sampleSettings refundedCheckout boundRecord ⟨rfl, rfl, rfl⟩
      [completed, disputed, completed, refunded] sample_batch paidFirst refundedFirst
      (by decide) (by decide)).1⟩

end DeliveryOrder
