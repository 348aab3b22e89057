import SpacerocksCoa.OrderStateMachine

/-!
# A rejected Stripe event is never looked at again

Deliveries of events run beside the binding of the session, changes of the canonical
checkout and anything else that happens to the order. The row of a rejected event stays,
and from then on a delivery of the same event reads that row and nothing more, whatever
has become of the binding and the checkout in the meantime.

The signature check is taken as passed: every delivered event is authentic.
-/
namespace StickyRejections
open OrderStates OrderRows JobClaims FulfillmentAdapters PaymentWebhooks
open TransactionalPrograms TransactionalPrograms.Prog

/-- One delivery: the event with the hash of its body, numbered. -/
structure Delivery where
  number : Nat
  event : ProviderEvent
  payloadSha256 : Sha256
  deriving DecidableEq

inductive WebhookArrival where
  | deliver (delivery : Delivery)
  | bindSession (sessionId : String)
  | elsewhere (record : OrderRecord)

def startDelivery (settings : PaymentSettings) (delivery : Delivery) :
    Run PaymentRequest PaymentReply PaymentFailure WebhookResult Delivery :=
  ⟨delivery, processWebhook settings delivery.event delivery.payloadSha256⟩

/-- Whatever else happens may change every row except those of the Stripe events. -/
def webhookService (settings : PaymentSettings) :
    Service PaymentRequest PaymentReply PaymentFailure WebhookResult Delivery OrderRecord
      PaymentEnv WebhookArrival where
  perform := performPayment settings
  arrive
    | .deliver delivery, r => (r, [startDelivery settings delivery])
    | .bindSession sessionId, r =>
      match bindSession sessionId r with
      | .ok r' => (r', [])
      | .error _ => (r, [])
    | .elsewhere record, r => ({ record with stripeEvents := r.stripeEvents }, [])

abbrev WebhookConfig :=
  Config PaymentRequest PaymentReply PaymentFailure WebhookResult Delivery OrderRecord

/-- The event is on record, exactly, with an error. -/
def Rejected (event : ProviderEvent) (payloadSha256 : Sha256) (r : OrderRecord) : Prop :=
  ∃ recorded, OrderRecord.stripeEvent r event.eventId = some recorded ∧
    duplicateResult recorded event payloadSha256 = ⟨true, false⟩

/-! ## The row of an event stays -/

lemma stripeEvent_of_append {r r' : OrderRecord} {eventId : String} {recorded : StripeEvent}
    (known : OrderRecord.stripeEvent r eventId = some recorded)
    (later : ∃ more, r'.stripeEvents = r.stripeEvents ++ more) :
    OrderRecord.stripeEvent r' eventId = some recorded := by
  obtain ⟨more, appended⟩ := later
  simp only [OrderRecord.stripeEvent, appended, List.find?_append] at known ⊢
  rw [known]
  rfl

lemma performPayment_stripeEvents (settings : PaymentSettings) (env : PaymentEnv)
    (q : PaymentRequest) (r : OrderRecord) :
    ∃ more, (performPayment settings env q r).2.stripeEvents = r.stripeEvents ++ more := by
  refine performPayment_of_events settings env q
    (fun r' => ∃ more, r'.stripeEvents = r.stripeEvents ++ more)
    ⟨[], (List.append_nil _).symm⟩ (fun _ => ⟨_, rfl⟩) fun _ _ recorded => ⟨[recorded], ?_⟩
  simp only [recordStripeEvent, applyToRecord_stripeEvents]

lemma arrive_stripeEvents (settings : PaymentSettings) (a : WebhookArrival) (r : OrderRecord) :
    ((webhookService settings).arrive a r).1.stripeEvents = r.stripeEvents := by
  cases a with
  | deliver delivery => rfl
  | bindSession sessionId =>
    simp only [webhookService]
    split
    · next r' bound =>
      rw [bindSession_ok bound]
    · rfl
  | elsewhere record => rfl

lemma rejected_later {event : ProviderEvent} {payloadSha256 : Sha256} {r r' : OrderRecord}
    (rejected : Rejected event payloadSha256 r)
    (later : ∃ more, r'.stripeEvents = r.stripeEvents ++ more) :
    Rejected event payloadSha256 r' := by
  obtain ⟨recorded, known, sticky⟩ := rejected
  exact ⟨recorded, stripeEvent_of_append known later, sticky⟩

/-- The first commit that does not accept the event leaves it rejected; the order the
provider named for it does not matter. -/
lemma rejected_of_commit {settings : PaymentSettings} {event : ProviderEvent}
    {payloadSha256 : Sha256} {orderId : Option String} {canonical : Option CanonicalCheckout}
    {now : Instant} {jobId messageId : Nat} {r r' : OrderRecord}
    (new : OrderRecord.stripeEvent r event.eventId = none)
    (rejects : commitEvent settings { event with internalOrderId := orderId } payloadSha256
      canonical now jobId messageId r = .ok (⟨false, false⟩, r')) :
    Rejected event payloadSha256 r' := by
  rcases commitEvent_ok rejects with ⟨recorded, known, -, -⟩ | ⟨-, -, code, rejected⟩ |
    ⟨-, accepted, -⟩
  · rw [new] at known
    cases known
  · refine ⟨recordedEvent event payloadSha256 now (some code), ?_, ?_⟩
    · rw [rejected]
      simp only [OrderRecord.stripeEvent, recordStripeEvent, List.find?_append] at new ⊢
      rw [new]
      simp [recordedEvent]
    · simp [duplicateResult, recordedEvent]
  · cases accepted

/-! ## What a redelivery can do -/

/-- A redelivery has not begun or has ended without being accepted. -/
def Refused (settings : PaymentSettings) (delivery : Delivery) (p : Webhook WebhookResult) : Prop :=
  p = processWebhook settings delivery.event delivery.payloadSha256 ∨ p = done ⟨true, false⟩

structure Sticky (settings : PaymentSettings) (delivery : Delivery) (c : WebhookConfig) :
    Prop where
  rejected : Rejected delivery.event delivery.payloadSha256 c.world
  refused : ∀ run ∈ c.runs, run.tag = delivery → Refused settings delivery run.prog

variable {settings : PaymentSettings} {delivery : Delivery}

/-- The only request of a redelivery reads the row of its event. -/
lemma refused_step (authentic : delivery.event.livemode = settings.expectedLivemode)
    {r : OrderRecord} (rejected : Rejected delivery.event delivery.payloadSha256 r)
    {q : PaymentRequest} {k : PaymentReply q → Webhook WebhookResult}
    (refused : Refused settings delivery (ask q k)) (env : PaymentEnv) :
    (performPayment settings env q r).2 = r ∧
      Refused settings delivery (k (performPayment settings env q r).1) := by
  obtain ⟨recorded, known, sticky⟩ := rejected
  rcases refused with start | ended
  · simp only [processWebhook, authentic, ne_eq, not_true_eq_false, if_false, request_bind] at start
    cases start
    refine ⟨rfl, Or.inr ?_⟩
    simp only [performPayment, known, sticky, pure_eq]
  · cases ended

lemma step_sticky (authentic : delivery.event.livemode = settings.expectedLivemode)
    {c : WebhookConfig} (hc : Sticky settings delivery c) (m : Move PaymentEnv WebhookArrival) :
    Sticky settings delivery ((webhookService settings).step c m) := by
  cases m with
  | serve i env =>
    cases found : c.runs[i]? with
    | none => simpa only [Service.step, found] using hc
    | some run =>
      obtain ⟨tag, prog⟩ := run
      cases prog with
      | done a => simpa only [Service.step, found] using hc
      | fail e => simpa only [Service.step, found] using hc
      | ask q k =>
        simp only [Service.step, found]
        refine ⟨rejected_later hc.rejected (performPayment_stripeEvents settings env q c.world),
          fun run member tagged => ?_⟩
        rcases List.mem_or_eq_of_mem_set member with old | rfl
        · exact hc.refused run old tagged
        · exact (refused_step authentic hc.rejected
            (hc.refused _ (List.mem_of_getElem? found) tagged) env).2
  | arrive a =>
    refine ⟨rejected_later hc.rejected
      ⟨[], by rw [List.append_nil]; exact arrive_stripeEvents settings a c.world⟩,
      fun run member tagged => ?_⟩
    rcases List.mem_append.1 member with old | new
    · exact hc.refused run old tagged
    · cases a with
      | deliver other =>
        rw [List.mem_singleton.1 new] at tagged ⊢
        exact Or.inl (tagged ▸ rfl)
      | bindSession sessionId =>
        simp only [webhookService] at new
        split at new <;> cases new
      | elsewhere record => cases new
  | crash i =>
    exact ⟨hc.rejected, fun run member tagged =>
      hc.refused run (List.mem_of_mem_eraseIdx member) tagged⟩

lemma run_sticky (authentic : delivery.event.livemode = settings.expectedLivemode)
    (moves : List (Move PaymentEnv WebhookArrival)) {c : WebhookConfig}
    (hc : Sticky settings delivery c) :
    Sticky settings delivery ((webhookService settings).run moves c) := by
  induction moves generalizing c with
  | nil => exact hc
  | cons m rest ih => exact ih (step_sticky authentic hc m)

/-- After a commit that did not accept an event, whatever happens next in whatever order: a
later delivery of that event is never accepted and never changes a row. -/
theorem rejection_is_sticky (settings : PaymentSettings) (delivery : Delivery)
    (authentic : delivery.event.livemode = settings.expectedLivemode)
    (orderId : Option String) (canonical : Option CanonicalCheckout) (now : Instant)
    (jobId messageId : Nat) (before : OrderRecord) (c : WebhookConfig)
    (new : OrderRecord.stripeEvent before delivery.event.eventId = none)
    (rejects : commitEvent settings { delivery.event with internalOrderId := orderId }
      delivery.payloadSha256 canonical now jobId messageId before = .ok (⟨false, false⟩, c.world))
    (later : ∀ run ∈ c.runs, run.tag ≠ delivery)
    (moves : List (Move PaymentEnv WebhookArrival)) :
    let c' := (webhookService settings).run moves c
    ∀ i run, c'.runs[i]? = some run → run.tag = delivery →
      run.prog ≠ done ⟨false, true⟩ ∧ run.prog ≠ done ⟨true, true⟩ ∧
        ∀ env, ((webhookService settings).step c' (.serve i env)).world = c'.world := by
  intro c' i run found tagged
  have start : Sticky settings delivery c :=
    ⟨rejected_of_commit new rejects, fun run member tagged => absurd tagged (later run member)⟩
  have sticky := run_sticky authentic moves start
  have refused := sticky.refused run (List.mem_of_getElem? found) tagged
  obtain ⟨tag, prog⟩ := run
  have unaccepted : ∀ result, prog = done result → result = ⟨true, false⟩ := by
    rintro result rfl
    rcases refused with start | ended
    · simp only [processWebhook, authentic, ne_eq, not_true_eq_false, if_false,
        request_bind] at start
      cases start
    · cases ended
      rfl
  refine ⟨fun ended => (nomatch unaccepted _ ended), fun ended => (nomatch unaccepted _ ended),
    fun env => ?_⟩
  cases prog with
  | done a => simp only [Service.step, found]
  | fail e => simp only [Service.step, found]
  | ask q k =>
    simp only [Service.step, found]
    exact (refused_step authentic sticky.rejected refused env).1

/-! ## A payment that is lost

The completed event arrives before the session is bound. It is delivered again once the
session is bound, with a paid and complete checkout that satisfies it. -/

open VerifiedOrders (sampleTime)
open OrderStateMachine (createdRecord paidEvent paidCheckout samplePayload sampleSettings
  paymentEnv)

def deliverPaid (number : Nat) : Move PaymentEnv WebhookArrival :=
  .arrive (.deliver ⟨number, paidEvent, samplePayload⟩)

/-- Up to the rejection of the first delivery. -/
def earlyDelivery : List (Move PaymentEnv WebhookArrival) :=
  deliverPaid 1 :: List.replicate 3 (.serve 0 (paymentEnv 1 paidCheckout))

def redelivery : List (Move PaymentEnv WebhookArrival) :=
  [.arrive (.bindSession "cs_live_1"), deliverPaid 2, .serve 1 (paymentEnv 3 paidCheckout)]

def rejectedConfig : WebhookConfig :=
  (webhookService sampleSettings).run earlyDelivery ⟨createdRecord, []⟩

theorem redelivery_is_refused :
    ∃ run, ((webhookService sampleSettings).run redelivery rejectedConfig).runs[1]? = some run ∧
      run.prog ≠ done ⟨false, true⟩ :=
  ⟨_, rfl, (rejection_is_sticky sampleSettings ⟨2, paidEvent, samplePayload⟩ rfl
    paidEvent.internalOrderId none (sampleTime 1) 1 1 createdRecord rejectedConfig rfl rfl
    (by decide) redelivery 1 _ rfl rfl).1⟩

/-- The redelivery meets a binding and a checkout that satisfy the event; it is answered as an
unaccepted duplicate, and the order stays unpaid without a job. -/
theorem bound_redelivery_is_lost :
    let c := (webhookService sampleSettings).run redelivery rejectedConfig
    validBinding sampleSettings c.world.order paidEvent paidCheckout = true ∧
      eventTarget paidEvent paidCheckout = some .paid ∧
      (c.runs.map fun run => run.prog) = [done ⟨false, false⟩, done ⟨true, false⟩] ∧
      c.world.order.paymentState = .checkoutOpen ∧ c.world.tables.jobs = [] :=
  ⟨by decide, by decide, rfl, by decide, by decide⟩

end StickyRejections
