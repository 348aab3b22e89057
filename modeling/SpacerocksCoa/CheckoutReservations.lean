import SpacerocksCoa.HexText
import SpacerocksCoa.VerifiedOrders

/-!
# Reserving, paying and finalizing a checkout

The tables behind `POST /v1/checkout`: the reservations under their idempotency keys, the
orders and the capability tokens, with the transactions of the checkout service on them.
A call runs through at most three transactions with the call of the payment provider
between them; a competitor may come in between any two.

The state event of a new order and the consent columns are left out: no transaction here
reads them.
-/
namespace CheckoutReservations
open OrderStates ProofRecords OrderRows

/-! ## Rows -/

structure HashedToken where
  version : Nat
  digest : Bytes
  deriving DecidableEq

structure OrderToken where
  orderId : Nat
  version : Nat
  tokenHash : HashedToken
  revokedAt : Option Instant
  expiresAt : Instant
  createdAt : Instant
  deriving DecidableEq

inductive CheckoutState where
  | reserved | processing | completed
  deriving DecidableEq, Repr

structure SafeResponse where
  orderReference : OrderReference
  checkoutUrl : String
  paymentState : PaymentState
  fulfillmentState : FulfillmentState
  deriving DecidableEq

/-- The reservation of a key; `endpoint` is always that of the checkout. -/
structure IdempotencyRequest where
  id : Nat
  keyHash : Sha256
  requestHash : Sha256
  orderId : Nat
  providerIdempotencyKey : String
  providerPriceId : String
  successUrl : String
  cancelUrl : String
  checkoutState : CheckoutState
  checkoutLeaseId : Option Nat
  checkoutLeaseExpiresAt : Option Instant
  responseBody : Option SafeResponse
  completedAt : Option Instant
  createdAt : Instant
  deriving DecidableEq

structure CheckoutTables where
  reservations : List IdempotencyRequest
  orders : List Order
  tokens : List OrderToken
  deriving DecidableEq

/-- `find_idempotency`. -/
def CheckoutTables.reservation (t : CheckoutTables) (key : Sha256) : Option IdempotencyRequest :=
  t.reservations.find? fun a => a.keyHash == key

def CheckoutTables.reservationById (t : CheckoutTables) (id : Nat) : Option IdempotencyRequest :=
  t.reservations.find? fun a => a.id == id

def CheckoutTables.order (t : CheckoutTables) (id : Nat) : Option Order :=
  t.orders.find? fun o => o.id == id

def CheckoutTables.orderByReference (t : CheckoutTables) (reference : OrderReference) :
    Option Order :=
  t.orders.find? fun o => o.snapshot.orderReference == reference

def CheckoutTables.modifyReservation (t : CheckoutTables) (id : Nat)
    (f : IdempotencyRequest → IdempotencyRequest) : CheckoutTables :=
  { t with reservations := t.reservations.map fun a => if a.id = id then f a else a }

def CheckoutTables.modifyOrder (t : CheckoutTables) (id : Nat) (f : Order → Order) :
    CheckoutTables :=
  { t with orders := t.orders.map fun o => if o.id = id then f o else o }

/-! ## Requests -/

structure CheckoutInput where
  certificateReference : CertificateReference
  manifestDigest : ManifestDigest
  email : String
  termsVersion : String
  privacyVersion : String
  deriving DecidableEq

structure IdempotencyBinding where
  keySha256 : Sha256
  requestSha256 : Sha256
  deriving DecidableEq

structure HostedCheckoutRequest where
  internalOrderId : Nat
  orderReference : OrderReference
  customerEmail : String
  priceId : String
  amountMinor : Nat
  currency : String
  successUrl : String
  cancelUrl : String
  deriving DecidableEq

structure HostedCheckoutResult where
  sessionId : String
  checkoutUrl : String
  deriving DecidableEq

structure ProviderPrice where
  priceId : String
  amountMinor : Nat
  currency : String
  deriving DecidableEq

/-- What the provider needs, and the lease under which it was asked. -/
structure CheckoutPlan where
  reservationId : Nat
  hosted : HostedCheckoutRequest
  providerIdempotencyKey : String
  leaseId : Nat
  deriving DecidableEq

structure CheckoutOutput where
  orderReference : OrderReference
  statusToken : String
  checkoutUrl : String
  paymentState : PaymentState
  fulfillmentState : FulfillmentState
  deriving DecidableEq

inductive CheckoutError where
  | unavailable (text : String)
  | idempotencyConflict (text : String)
  | inProgress (text : String)
  | value (text : String)
  | provider (text : String)
  | integrity
  deriving DecidableEq

/-- The answer to another request under a key that is in use. -/
def boundElsewhere : CheckoutError :=
  .idempotencyConflict "idempotency key is bound to another request"

structure CheckoutSettings where
  checkoutEnabled : Bool
  paymentMode : PaymentMode
  providerMode : PaymentMode
  stripePriceId : Option String
  checkoutAmountMinor : Nat
  checkoutCurrency : String
  checkoutSuccessUrl : Option String
  checkoutCancelUrl : Option String
  expectedTermsVersion : String
  expectedPrivacyVersion : String
  /-- `checkout_credential_grace_seconds`, in microseconds. -/
  credentialGrace : Int
  tokenTtl : Int
  hashToken : String → HashedToken
  /-- `_validate_checkout_url` for the payment mode: the text of the URL and the session. -/
  validCheckoutUrl : String → String → Bool

/-- `x or default`, where an empty text counts as absent. -/
def orElseText (text : Option String) (default : String) : String :=
  match text with
  | none => default
  | some t => if t = "" then default else t

def CheckoutSettings.priceId (settings : CheckoutSettings) : String :=
  orElseText settings.stripePriceId "fixture_price"

/-- The checks of `CheckoutService.create` before the reservation. -/
def admitted (settings : CheckoutSettings) (request : CheckoutInput) : Except CheckoutError Unit :=
  if settings.checkoutEnabled = false then .error (.unavailable "checkout is disabled")
  else if settings.paymentMode = .disabled then .error (.unavailable "checkout is disabled")
  else if request.termsVersion ≠ settings.expectedTermsVersion ∨
      request.privacyVersion ≠ settings.expectedPrivacyVersion then
    .error (.value "checkout policy version mismatch")
  else if settings.providerMode ≠ settings.paymentMode then
    .error (.unavailable "payment provider mode does not match checkout mode")
  else .ok ()

/-! ## Tokens -/

def latestVersion (t : CheckoutTables) (orderId : Nat) : Nat :=
  ((t.tokens.filter fun token => token.orderId == orderId).map OrderToken.version).foldl max 0

def revokeTokens (t : CheckoutTables) (orderId : Nat) (now : Instant) : CheckoutTables :=
  { t with
    tokens := t.tokens.map fun token =>
      if token.orderId = orderId ∧ token.revokedAt = none then { token with revokedAt := some now }
      else token }

def newToken (settings : CheckoutSettings) (t : CheckoutTables) (orderId : Nat) (raw : String)
    (now : Instant) : OrderToken :=
  ⟨orderId, latestVersion t orderId + 1, settings.hashToken raw, none, now + settings.tokenTtl, now⟩

/-- `issue_token`; the hash of a token is unique. -/
def issueToken (settings : CheckoutSettings) (orderId : Nat) (raw : String) (now : Instant)
    (revokeExisting : Bool) (t : CheckoutTables) : Except CheckoutError CheckoutTables :=
  if t.tokens.any (fun token => token.tokenHash == settings.hashToken raw) then .error .integrity
  else
    let revoked := if revokeExisting then revokeTokens t orderId now else t
    .ok { revoked with tokens := revoked.tokens ++ [newToken settings t orderId raw now] }

/-! ## The transactions -/

/-- What a call brings to its first transaction: the identifiers are fresh UUIDs, the
reference is drawn at random and checked by its unique column. -/
structure CheckoutEnv where
  now : Instant
  reservationId : Nat
  orderId : Nat
  orderReference : OrderReference
  rawToken : String
  price : Option ProviderPrice
  created : Bool

def hostedRequest (a : IdempotencyRequest) (order : Order) : HostedCheckoutRequest where
  internalOrderId := order.id
  orderReference := order.snapshot.orderReference
  customerEmail := order.snapshot.email
  priceId := a.providerPriceId
  amountMinor := order.snapshot.amountMinor
  currency := order.snapshot.currency
  successUrl := a.successUrl
  cancelUrl := a.cancelUrl

/-- `_plan`. -/
def makePlan (a : IdempotencyRequest) (order : Order) (leaseId : Nat) : CheckoutPlan :=
  ⟨a.id, hostedRequest a order, a.providerIdempotencyKey, leaseId⟩

/-- `_replay`: a new token for the order of a completed reservation. -/
def replay (settings : CheckoutSettings) (a : IdempotencyRequest) (binding : IdempotencyBinding)
    (now : Instant) (raw : String) (t : CheckoutTables) :
    Except CheckoutError (CheckoutOutput × CheckoutTables) :=
  if a.requestHash ≠ binding.requestSha256 then
    .error boundElsewhere
  else
    match a.checkoutState, a.completedAt, a.responseBody with
    | .completed, some _, some body =>
      match t.orderByReference body.orderReference with
      | none => .error (.idempotencyConflict "idempotent order is unavailable")
      | some order =>
        match order.checkoutSessionId with
        | none => .error (.idempotencyConflict "idempotent order is unavailable")
        | some session =>
          if settings.validCheckoutUrl body.checkoutUrl session = false then
            .error (.idempotencyConflict "idempotent checkout URL is invalid")
          else
            match issueToken settings order.id raw now true t with
            | .error e => .error e
            | .ok t' => .ok (⟨order.snapshot.orderReference, raw, body.checkoutUrl,
                body.paymentState, body.fulfillmentState⟩, t')
    | _, _, _ => .error (.idempotencyConflict "idempotent request is still incomplete")

def leaseLive (a : IdempotencyRequest) (now : Instant) : Bool :=
  a.checkoutLeaseExpiresAt.any fun until_ => decide (now < until_)

/-- The lease of a reservation goes to another caller. -/
def takeOver (settings : CheckoutSettings) (leaseId : Nat) (now : Instant)
    (a : IdempotencyRequest) : IdempotencyRequest :=
  { a with
    checkoutState := if a.checkoutState = .completed then .completed else .processing
    checkoutLeaseId := some leaseId
    checkoutLeaseExpiresAt := some (now + settings.credentialGrace) }

/-- `_resume`: a live lease is waited for, else it is taken over. -/
def resume (settings : CheckoutSettings) (a : IdempotencyRequest) (binding : IdempotencyBinding)
    (now : Instant) (leaseId : Nat) (raw : String) (t : CheckoutTables) :
    Except CheckoutError ((CheckoutPlan ⊕ CheckoutOutput) × CheckoutTables) :=
  match t.order a.orderId with
  | none => .error (.idempotencyConflict "reserved order is unavailable")
  | some order =>
    if order.snapshot.paymentMode ≠ settings.paymentMode then
      .error (.idempotencyConflict "reserved order payment mode does not match checkout mode")
    else if leaseLive a now then .error (.inProgress "checkout credential is in its grace period")
    else
      let taken := t.modifyReservation a.id (takeOver settings leaseId now)
      if a.checkoutState = .completed then
        match replay settings a binding now raw taken with
        | .error e => .error e
        | .ok (output, t') => .ok (.inr output, t')
      else .ok (.inl (makePlan a order leaseId), taken)

/-- A transaction that found the reservation of its key. -/
def resumeBound (settings : CheckoutSettings) (a : IdempotencyRequest)
    (binding : IdempotencyBinding) (now : Instant) (leaseId : Nat) (raw : String)
    (t : CheckoutTables) :
    Except CheckoutError ((CheckoutPlan ⊕ CheckoutOutput) × CheckoutTables) :=
  if a.requestHash ≠ binding.requestSha256 then
    .error boundElsewhere
  else resume settings a binding now leaseId raw t

def newOrder (settings : CheckoutSettings) (request : CheckoutInput) (env : CheckoutEnv) :
    Order where
  id := env.orderId
  snapshot :=
    { orderReference := env.orderReference
      certificateReference := request.certificateReference
      manifestDigest := request.manifestDigest
      email := request.email
      amountMinor := settings.checkoutAmountMinor
      currency := settings.checkoutCurrency
      paymentMode := settings.paymentMode }
  paymentState := .checkoutOpen
  fulfillmentState := .awaitingPayment
  checkoutSessionId := none
  paymentIntentId := none
  calendarSubmittedAt := none

def providerKey (key : Sha256) : String := String.ofList (HexText.toHex key.value)

def newReservation (settings : CheckoutSettings) (binding : IdempotencyBinding)
    (env : CheckoutEnv) (now : Instant) (leaseId : Nat) : IdempotencyRequest where
  id := env.reservationId
  keyHash := binding.keySha256
  requestHash := binding.requestSha256
  orderId := env.orderId
  providerIdempotencyKey := providerKey binding.keySha256
  providerPriceId := settings.priceId
  successUrl := orElseText settings.checkoutSuccessUrl "https://example.test/timestamp/status"
  cancelUrl := orElseText settings.checkoutCancelUrl "https://example.test/timestamp/cancelled"
  checkoutState := .processing
  checkoutLeaseId := some leaseId
  checkoutLeaseExpiresAt := some (now + settings.credentialGrace)
  responseBody := none
  completedAt := none
  createdAt := now

/-- The unique columns of an order and its reservation against the rows that are there. -/
def keysFree (a : IdempotencyRequest) (order : Order) (t : CheckoutTables) : Bool :=
  (t.orders.all fun o => o.id != order.id &&
    o.snapshot.orderReference != order.snapshot.orderReference) &&
  t.reservations.all fun b => b.id != a.id && b.keyHash != a.keyHash && b.orderId != a.orderId &&
    b.providerIdempotencyKey != a.providerIdempotencyKey

/-- The insert of `_reserve`; the order is flushed before its reservation. -/
def insertReservation (settings : CheckoutSettings) (request : CheckoutInput)
    (binding : IdempotencyBinding) (env : CheckoutEnv) (now : Instant) (leaseId : Nat)
    (t : CheckoutTables) : Except CheckoutError (CheckoutPlan × CheckoutTables) :=
  let order := newOrder settings request env
  let a := newReservation settings binding env now leaseId
  if keysFree a order t then
    .ok (makePlan a order leaseId,
      { t with reservations := t.reservations ++ [a], orders := t.orders ++ [order] })
  else .error .integrity

/-- `_call_provider`, with an answer of the provider that is a function of its key and its
request whenever it arrives. -/
def callProvider (provider : String → HostedCheckoutRequest → HostedCheckoutResult)
    (settings : CheckoutSettings) (plan : CheckoutPlan) (env : CheckoutEnv) :
    Except CheckoutError HostedCheckoutResult :=
  if settings.checkoutEnabled = false ∨ settings.paymentMode = .disabled then
    .error (.unavailable "checkout is disabled")
  else if settings.providerMode ≠ settings.paymentMode then
    .error (.unavailable "payment provider mode does not match checkout mode")
  else
    match env.price with
    | none => .error (.provider "payment provider failed")
    | some price =>
      if price ≠ ⟨settings.priceId, settings.checkoutAmountMinor, settings.checkoutCurrency⟩ then
        .error (.unavailable "provider Price does not match checkout configuration")
      else if price ≠ ⟨plan.hosted.priceId, plan.hosted.amountMinor, plan.hosted.currency⟩ then
        .error (.unavailable "provider Price does not match reserved checkout")
      else if env.created = false then .error (.provider "payment provider failed")
      else
        let result := provider plan.providerIdempotencyKey plan.hosted
        if settings.validCheckoutUrl result.checkoutUrl result.sessionId = false then
          .error (.provider "provider returned an unsafe checkout URL")
        else .ok result

def completeReservation (settings : CheckoutSettings) (body : SafeResponse) (now : Instant)
    (a : IdempotencyRequest) : IdempotencyRequest :=
  { a with
    checkoutState := .completed
    responseBody := some body
    completedAt := some now
    checkoutLeaseExpiresAt := some (now + settings.credentialGrace) }

/-- `_finalize`: only the holder of the unexpired lease gets through. -/
def finalize (settings : CheckoutSettings) (plan : CheckoutPlan) (binding : IdempotencyBinding)
    (result : HostedCheckoutResult) (now : Instant) (raw : String) (t : CheckoutTables) :
    Except CheckoutError (CheckoutOutput × CheckoutTables) :=
  match t.reservationById plan.reservationId with
  | none => .error (.idempotencyConflict "idempotent reservation is unavailable")
  | some a =>
    if a.requestHash ≠ binding.requestSha256 then
      .error (.idempotencyConflict "idempotent reservation is unavailable")
    else if a.checkoutState = .completed then
      .error (.inProgress "checkout credential is in its grace period")
    else if a.checkoutState ≠ .processing ∨ a.checkoutLeaseId ≠ some plan.leaseId ∨
        leaseLive a now = false then
      .error (.inProgress "checkout processing lease is unavailable")
    else
      match t.order a.orderId with
      | none => .error (.idempotencyConflict "idempotent order is unavailable")
      | some order =>
        if order.snapshot.paymentMode ≠ settings.paymentMode then
          .error (.idempotencyConflict "reserved order payment mode does not match checkout mode")
        else if order.checkoutSessionId.any (fun session => session != result.sessionId) then
          .error (.idempotencyConflict "provider session conflicts with reserved order")
        else if t.orders.any (fun o => o.id != order.id &&
            o.checkoutSessionId == some result.sessionId) then .error .integrity
        else
          let body : SafeResponse := ⟨order.snapshot.orderReference, result.checkoutUrl,
            order.paymentState, order.fulfillmentState⟩
          let bound := (t.modifyOrder order.id fun o =>
            { o with checkoutSessionId := some result.sessionId }).modifyReservation a.id
              (completeReservation settings body now)
          match issueToken settings order.id raw now false bound with
          | .error e => .error e
          | .ok t' => .ok (⟨body.orderReference, raw, body.checkoutUrl, body.paymentState,
              body.fulfillmentState⟩, t')

/-! ## Calls side by side -/

inductive CallStage where
  | looking
  | inserting
  | retrying
  | planned (plan : CheckoutPlan)
  | answered (plan : CheckoutPlan) (result : HostedCheckoutResult)
  | ended (outcome : Except CheckoutError CheckoutOutput)
  | crashed

/-- A call that has returned cannot crash any more. -/
def CallStage.crash : CallStage → CallStage
  | .ended outcome => .ended outcome
  | _ => .crashed

/-- The plan that a call still works on. -/
def CallStage.plan : CallStage → Option CheckoutPlan
  | .planned plan | .answered plan _ => some plan
  | _ => none

def CallStage.output : CallStage → Option CheckoutOutput
  | .ended (.ok output) => some output
  | _ => none

/-- A call of `create` with the instant it passes to its reservation. -/
structure Call where
  settings : CheckoutSettings
  request : CheckoutInput
  binding : IdempotencyBinding
  now : Instant
  stage : CallStage

/-- The tables and the calls, with the next lease identifier and the reservations that were
finalized, in the order of their finalizations. -/
structure CheckoutWorld where
  tables : CheckoutTables
  calls : List Call
  nextLease : Nat
  finalized : List Nat

/-- A new call, the next transaction of a call, its crash, and what the rest of the service
writes to an order and to the tokens. -/
inductive CheckoutStep where
  | create (settings : CheckoutSettings) (request : CheckoutInput) (binding : IdempotencyBinding)
      (now : Instant)
  | serve (call : Nat) (env : CheckoutEnv)
  | crash (call : Nat)
  | orderWriter (orderId : Nat) (payment : PaymentState) (fulfillment : FulfillmentState)
      (paymentIntentId : Option String) (calendarSubmittedAt : Option Instant)
  | tokenWriter (tokens : List OrderToken)

def startCall (settings : CheckoutSettings) (request : CheckoutInput)
    (binding : IdempotencyBinding) (now : Instant) : Call :=
  match admitted settings request with
  | .ok () => ⟨settings, request, binding, now, .looking⟩
  | .error e => ⟨settings, request, binding, now, .ended (.error e)⟩

/-- The end of a transaction that resumed a reservation. -/
def afterResume (t : CheckoutTables) (onIntegrity : CallStage) :
    Except CheckoutError ((CheckoutPlan ⊕ CheckoutOutput) × CheckoutTables) →
      CallStage × CheckoutTables
  | .ok (.inl plan, t') => (.planned plan, t')
  | .ok (.inr output, t') => (.ended (.ok output), t')
  | .error .integrity => (onIntegrity, t)
  | .error e => (.ended (.error e), t)

/-- The next transaction or provider call of a call. -/
def advance (provider : String → HostedCheckoutRequest → HostedCheckoutResult) (c : Call)
    (leaseId : Nat) (env : CheckoutEnv) (t : CheckoutTables) : CallStage × CheckoutTables :=
  match c.stage with
  | .looking =>
    match t.reservation c.binding.keySha256 with
    | none => (.inserting, t)
    | some a => afterResume t .retrying
        (resumeBound c.settings a c.binding c.now leaseId env.rawToken t)
  | .inserting =>
    match insertReservation c.settings c.request c.binding env c.now leaseId t with
    | .ok (plan, t') => (.planned plan, t')
    | .error _ => (.retrying, t)
  | .retrying =>
    match t.reservation c.binding.keySha256 with
    | none => (.ended (.error .integrity), t)
    | some a => afterResume t (.ended (.error .integrity))
        (resumeBound c.settings a c.binding c.now leaseId env.rawToken t)
  | .planned plan =>
    match callProvider provider c.settings plan env with
    | .ok result => (.answered plan result, t)
    | .error e => (.ended (.error e), t)
  | .answered plan result =>
    match finalize c.settings plan c.binding result env.now env.rawToken t with
    | .ok (output, t') => (.ended (.ok output), t')
    | .error e => (.ended (.error e), t)
  | .ended outcome => (.ended outcome, t)
  | .crashed => (.crashed, t)

/-- The reservation that a step has finalized. -/
def finalizes (before after : CallStage) : List Nat :=
  match before, after with
  | .answered plan _, .ended (.ok _) => [plan.reservationId]
  | _, _ => []

def checkoutStep (provider : String → HostedCheckoutRequest → HostedCheckoutResult)
    (w : CheckoutWorld) : CheckoutStep → CheckoutWorld
  | .create settings request binding now =>
    { w with calls := w.calls ++ [startCall settings request binding now] }
  | .serve i env =>
    match w.calls[i]? with
    | none => w
    | some c =>
      let next := advance provider c w.nextLease env w.tables
      ⟨next.2, w.calls.set i { c with stage := next.1 }, w.nextLease + 1,
        w.finalized ++ finalizes c.stage next.1⟩
  | .crash i =>
    match w.calls[i]? with
    | none => w
    | some c => { w with calls := w.calls.set i { c with stage := c.stage.crash } }
  | .orderWriter orderId payment fulfillment intent calendar =>
    { w with tables := w.tables.modifyOrder orderId fun o =>
        { o with
          paymentState := payment
          fulfillmentState := fulfillment
          paymentIntentId := intent
          calendarSubmittedAt := calendar } }
  | .tokenWriter tokens => { w with tables := { w.tables with tokens := tokens } }

def checkoutRun (provider : String → HostedCheckoutRequest → HostedCheckoutResult)
    (steps : List CheckoutStep) (w : CheckoutWorld) : CheckoutWorld :=
  steps.foldl (checkoutStep provider) w

def emptyTables : CheckoutWorld := ⟨⟨[], [], []⟩, [], 0, []⟩

/-! ## What each transaction can do -/

lemma issueToken_ok {settings : CheckoutSettings} {orderId : Nat} {raw : String} {now : Instant}
    {revoke : Bool} {t t' : CheckoutTables}
    (h : issueToken settings orderId raw now revoke t = .ok t') :
    t'.reservations = t.reservations ∧ t'.orders = t.orders := by
  unfold issueToken at h
  split at h
  · cases h
  · cases h
    cases revoke with
    | true => exact ⟨rfl, rfl⟩
    | false => exact ⟨rfl, rfl⟩

lemma replay_ok {settings : CheckoutSettings} {a : IdempotencyRequest}
    {binding : IdempotencyBinding} {now : Instant} {raw : String} {t t' : CheckoutTables}
    {output : CheckoutOutput} (h : replay settings a binding now raw t = .ok (output, t')) :
    t'.reservations = t.reservations ∧ t'.orders = t.orders ∧ ∃ body order,
      a.responseBody = some body ∧ t.orderByReference body.orderReference = some order ∧
        output.orderReference = order.snapshot.orderReference ∧
        output.checkoutUrl = body.checkoutUrl := by
  unfold replay at h
  split at h
  · cases h
  · split at h
    · next body completed at_ stored =>
      split at h
      · cases h
      · next order found =>
        split at h
        · cases h
        · split at h
          · cases h
          · split at h
            · cases h
            · next issued =>
              cases h
              obtain ⟨reservations, orders⟩ := issueToken_ok issued
              exact ⟨reservations, orders, body, order, stored, found, rfl, rfl⟩
    · cases h

lemma resumeBound_ok {settings : CheckoutSettings} {a : IdempotencyRequest}
    {binding : IdempotencyBinding} {now : Instant} {leaseId : Nat} {raw : String}
    {t t' : CheckoutTables} {out : CheckoutPlan ⊕ CheckoutOutput}
    (h : resumeBound settings a binding now leaseId raw t = .ok (out, t')) :
    a.requestHash = binding.requestSha256 ∧ leaseLive a now = false ∧
      t'.reservations =
        (t.modifyReservation a.id (takeOver settings leaseId now)).reservations ∧
      t'.orders = t.orders ∧ ∃ order, t.order a.orderId = some order ∧
        ((a.checkoutState ≠ .completed ∧ out = .inl (makePlan a order leaseId)) ∨
          (a.checkoutState = .completed ∧ ∃ output body found, out = .inr output ∧
            a.responseBody = some body ∧
            t.orderByReference body.orderReference = some found ∧
            output.orderReference = found.snapshot.orderReference ∧
            output.checkoutUrl = body.checkoutUrl)) := by
  unfold resumeBound at h
  split at h
  · cases h
  · next same =>
    unfold resume at h
    cases found : t.order a.orderId with
    | none => simp only [found] at h; cases h
    | some order =>
      simp only [found] at h
      split at h
      · cases h
      · split at h
        · cases h
        · next free =>
          refine ⟨not_not.1 same, Bool.eq_false_of_not_eq_true free, ?_⟩
          split at h
          · next completed =>
            split at h
            · cases h
            · next replayed =>
              cases h
              obtain ⟨reservations, orders, body, o, stored, known, reference, url⟩ :=
                replay_ok replayed
              exact ⟨reservations, orders, order, rfl, Or.inr ⟨completed, _, body, o, rfl, stored,
                known, reference, url⟩⟩
          · next incomplete =>
            cases h
            exact ⟨rfl, rfl, order, rfl, Or.inl ⟨incomplete, rfl⟩⟩

lemma insertReservation_ok {settings : CheckoutSettings} {request : CheckoutInput}
    {binding : IdempotencyBinding} {env : CheckoutEnv} {now : Instant} {leaseId : Nat}
    {t t' : CheckoutTables} {plan : CheckoutPlan}
    (h : insertReservation settings request binding env now leaseId t = .ok (plan, t')) :
    keysFree (newReservation settings binding env now leaseId) (newOrder settings request env) t =
        true ∧
      plan = makePlan (newReservation settings binding env now leaseId)
        (newOrder settings request env) leaseId ∧
      t' = { t with
        reservations := t.reservations ++ [newReservation settings binding env now leaseId]
        orders := t.orders ++ [newOrder settings request env] } := by
  simp only [insertReservation] at h
  split at h
  · next free =>
    cases h
    exact ⟨free, rfl, rfl⟩
  · cases h

lemma callProvider_ok {provider : String → HostedCheckoutRequest → HostedCheckoutResult}
    {settings : CheckoutSettings} {plan : CheckoutPlan} {env : CheckoutEnv}
    {result : HostedCheckoutResult} (h : callProvider provider settings plan env = .ok result) :
    result = provider plan.providerIdempotencyKey plan.hosted := by
  unfold callProvider at h
  iterate 2 (split at h; · cases h)
  split at h
  · cases h
  · iterate 3 (split at h; · cases h)
    simp only at h
    split at h
    · cases h
    · cases h
      rfl

/-- What has to hold for a call to finalize, and what it leaves. -/
lemma finalize_ok {settings : CheckoutSettings} {plan : CheckoutPlan}
    {binding : IdempotencyBinding} {result : HostedCheckoutResult} {now : Instant} {raw : String}
    {t t' : CheckoutTables} {output : CheckoutOutput}
    (h : finalize settings plan binding result now raw t = .ok (output, t')) :
    ∃ a order body, t.reservationById plan.reservationId = some a ∧
      a.requestHash = binding.requestSha256 ∧ a.checkoutState = .processing ∧
      a.checkoutLeaseId = some plan.leaseId ∧ leaseLive a now = true ∧
      t.order a.orderId = some order ∧
      body.orderReference = order.snapshot.orderReference ∧
      body.checkoutUrl = result.checkoutUrl ∧
      output.orderReference = body.orderReference ∧ output.checkoutUrl = body.checkoutUrl ∧
      t'.reservations =
        (t.modifyReservation a.id (completeReservation settings body now)).reservations ∧
      t'.orders = (t.modifyOrder order.id fun o =>
        { o with checkoutSessionId := some result.sessionId }).orders := by
  unfold finalize at h
  cases found : t.reservationById plan.reservationId with
  | none => simp only [found] at h; cases h
  | some a =>
    simp only [found] at h
    split at h
    · cases h
    · next bound =>
      split at h
      · cases h
      · split at h
        · cases h
        · next held =>
          rw [not_or, not_or, not_not, not_not, Bool.not_eq_false] at held
          cases known : t.order a.orderId with
          | none => simp only [known] at h; cases h
          | some order =>
            simp only [known] at h
            iterate 3 (split at h; · cases h)
            split at h
            · cases h
            · next issued =>
              cases h
              obtain ⟨reservations, orders⟩ := issueToken_ok issued
              exact ⟨a, order, _, rfl, not_not.1 bound, held.1, held.2.1, held.2.2, known, rfl, rfl,
                rfl, rfl, reservations, orders⟩

/-- Nothing but the stage of the call changes, and it neither gains a plan nor succeeds. -/
def Quiet (stage stage' : CallStage) : Prop :=
  stage' = stage ∨ (stage'.plan = none ∧ stage'.output = none)

/-- What one transaction or provider call of `c` can do. -/
inductive Advanced (provider : String → HostedCheckoutRequest → HostedCheckoutResult) (c : Call)
    (leaseId : Nat) (env : CheckoutEnv) (t : CheckoutTables) : CallStage → CheckoutTables → Prop
  | quiet {stage : CallStage} : Quiet c.stage stage → Advanced provider c leaseId env t stage t
  | resumed {a : IdempotencyRequest} {order : Order} {t' : CheckoutTables} :
      c.stage.plan = none → t.reservation c.binding.keySha256 = some a →
      a.requestHash = c.binding.requestSha256 →
      leaseLive a c.now = false → a.checkoutState ≠ .completed → t.order a.orderId = some order →
      t'.reservations =
        (t.modifyReservation a.id (takeOver c.settings leaseId c.now)).reservations →
      t'.orders = t.orders →
      Advanced provider c leaseId env t (.planned (makePlan a order leaseId)) t'
  | replayed {a : IdempotencyRequest} {output : CheckoutOutput} {body : SafeResponse}
      {order : Order} {t' : CheckoutTables} :
      c.stage.plan = none → t.reservation c.binding.keySha256 = some a →
      a.requestHash = c.binding.requestSha256 →
      leaseLive a c.now = false → a.checkoutState = .completed →
      a.responseBody = some body → t.orderByReference body.orderReference = some order →
      output.orderReference = order.snapshot.orderReference →
      output.checkoutUrl = body.checkoutUrl →
      t'.reservations =
        (t.modifyReservation a.id (takeOver c.settings leaseId c.now)).reservations →
      t'.orders = t.orders →
      Advanced provider c leaseId env t (.ended (.ok output)) t'
  | inserted {a : IdempotencyRequest} {order : Order} :
      a = newReservation c.settings c.binding env c.now leaseId →
      order = newOrder c.settings c.request env → keysFree a order t = true →
      Advanced provider c leaseId env t (.planned (makePlan a order leaseId))
        { t with reservations := t.reservations ++ [a], orders := t.orders ++ [order] }
  | answered {plan : CheckoutPlan} :
      c.stage = .planned plan →
      Advanced provider c leaseId env t
        (.answered plan (provider plan.providerIdempotencyKey plan.hosted)) t
  | finalized {plan : CheckoutPlan} {result : HostedCheckoutResult} {a : IdempotencyRequest}
      {order : Order} {body : SafeResponse} {output : CheckoutOutput} {t' : CheckoutTables} :
      c.stage = .answered plan result →
      t.reservationById plan.reservationId = some a →
      a.requestHash = c.binding.requestSha256 → a.checkoutState = .processing →
      a.checkoutLeaseId = some plan.leaseId → leaseLive a env.now = true →
      t.order a.orderId = some order →
      body.orderReference = order.snapshot.orderReference →
      body.checkoutUrl = result.checkoutUrl →
      output.orderReference = body.orderReference → output.checkoutUrl = body.checkoutUrl →
      t'.reservations =
        (t.modifyReservation a.id (completeReservation c.settings body env.now)).reservations →
      t'.orders = (t.modifyOrder order.id fun o =>
        { o with checkoutSessionId := some result.sessionId }).orders →
      Advanced provider c leaseId env t (.ended (.ok output)) t'

theorem afterResume_advanced {provider : String → HostedCheckoutRequest → HostedCheckoutResult}
    {c : Call} {leaseId : Nat} {env : CheckoutEnv} {t : CheckoutTables} {a : IdempotencyRequest}
    {onIntegrity : CallStage} (idle : c.stage.plan = none)
    (found : t.reservation c.binding.keySha256 = some a)
    (quiet : onIntegrity.plan = none ∧ onIntegrity.output = none) :
    Advanced provider c leaseId env t
      (afterResume t onIntegrity
        (resumeBound c.settings a c.binding c.now leaseId env.rawToken t)).1
      (afterResume t onIntegrity
        (resumeBound c.settings a c.binding c.now leaseId env.rawToken t)).2 := by
  cases resumed : resumeBound c.settings a c.binding c.now leaseId env.rawToken t with
  | error e =>
    cases e with
    | integrity => exact Advanced.quiet (Or.inr quiet)
    | _ => exact Advanced.quiet (Or.inr ⟨rfl, rfl⟩)
  | ok out =>
    obtain ⟨out, t'⟩ := out
    obtain ⟨same, free, reservations, orders, order, known, incomplete | completed⟩ :=
      resumeBound_ok resumed
    · obtain ⟨incomplete, rfl⟩ := incomplete
      exact Advanced.resumed idle found same free incomplete known reservations orders
    · obtain ⟨completed, output, body, o, rfl, stored, held, reference, url⟩ := completed
      exact Advanced.replayed idle found same free completed stored held reference url
        reservations orders

theorem advance_advanced (provider : String → HostedCheckoutRequest → HostedCheckoutResult)
    (c : Call) (leaseId : Nat) (env : CheckoutEnv) (t : CheckoutTables) :
    Advanced provider c leaseId env t (advance provider c leaseId env t).1
      (advance provider c leaseId env t).2 := by
  unfold advance
  cases stage : c.stage with
  | looking =>
    cases found : t.reservation c.binding.keySha256 with
    | none => exact Advanced.quiet (Or.inr ⟨rfl, rfl⟩)
    | some a => exact afterResume_advanced (congrArg CallStage.plan stage) found ⟨rfl, rfl⟩
  | inserting =>
    cases inserted : insertReservation c.settings c.request c.binding env c.now leaseId t with
    | error e => exact Advanced.quiet (Or.inr ⟨rfl, rfl⟩)
    | ok out =>
      obtain ⟨plan, t'⟩ := out
      obtain ⟨free, rfl, rfl⟩ := insertReservation_ok inserted
      exact Advanced.inserted rfl rfl free
  | retrying =>
    cases found : t.reservation c.binding.keySha256 with
    | none => exact Advanced.quiet (Or.inr ⟨rfl, rfl⟩)
    | some a => exact afterResume_advanced (congrArg CallStage.plan stage) found ⟨rfl, rfl⟩
  | planned plan =>
    dsimp only
    cases called : callProvider provider c.settings plan env with
    | error e => exact Advanced.quiet (Or.inr ⟨rfl, rfl⟩)
    | ok result =>
      obtain rfl := callProvider_ok called
      exact Advanced.answered stage
  | answered plan result =>
    dsimp only
    cases done : finalize c.settings plan c.binding result env.now env.rawToken t with
    | error e => exact Advanced.quiet (Or.inr ⟨rfl, rfl⟩)
    | ok out =>
      obtain ⟨output, t'⟩ := out
      obtain ⟨a, order, body, found, bound, processing, held, live, known, reference, url,
        outputReference, outputUrl, reservations, orders⟩ := finalize_ok done
      exact Advanced.finalized stage found bound processing held live known reference url
        outputReference outputUrl reservations orders
  | ended outcome => exact Advanced.quiet (Or.inl stage.symm)
  | crashed => exact Advanced.quiet (Or.inl stage.symm)

/-! ## What a reservation keeps -/

/-- What no transaction changes of a reservation, and what it keeps once completed. -/
structure ReservationOnward (a a' : IdempotencyRequest) : Prop where
  id : a'.id = a.id
  keyHash : a'.keyHash = a.keyHash
  requestHash : a'.requestHash = a.requestHash
  orderId : a'.orderId = a.orderId
  providerIdempotencyKey : a'.providerIdempotencyKey = a.providerIdempotencyKey
  providerPriceId : a'.providerPriceId = a.providerPriceId
  successUrl : a'.successUrl = a.successUrl
  cancelUrl : a'.cancelUrl = a.cancelUrl
  completed : a.checkoutState = .completed →
    a'.checkoutState = .completed ∧ a'.responseBody = a.responseBody

structure OrderOnward (o o' : Order) : Prop where
  id : o'.id = o.id
  snapshot : o'.snapshot = o.snapshot
  session : ∀ s, o.checkoutSessionId = some s → o'.checkoutSessionId = some s

structure Onward (t t' : CheckoutTables) : Prop where
  reservations : ∀ a ∈ t.reservations, ∃ a' ∈ t'.reservations, ReservationOnward a a'
  orders : ∀ o ∈ t.orders, ∃ o' ∈ t'.orders, OrderOnward o o'

theorem ReservationOnward.refl (a : IdempotencyRequest) : ReservationOnward a a :=
  ⟨rfl, rfl, rfl, rfl, rfl, rfl, rfl, rfl, fun done => ⟨done, rfl⟩⟩

theorem ReservationOnward.trans {a b c : IdempotencyRequest} (first : ReservationOnward a b)
    (second : ReservationOnward b c) : ReservationOnward a c := by
  refine ⟨second.id.trans first.id, second.keyHash.trans first.keyHash,
    second.requestHash.trans first.requestHash, second.orderId.trans first.orderId,
    second.providerIdempotencyKey.trans first.providerIdempotencyKey,
    second.providerPriceId.trans first.providerPriceId,
    second.successUrl.trans first.successUrl, second.cancelUrl.trans first.cancelUrl, ?_⟩
  intro done
  obtain ⟨later, body⟩ := first.completed done
  obtain ⟨last, body'⟩ := second.completed later
  exact ⟨last, body'.trans body⟩

theorem OrderOnward.refl (o : Order) : OrderOnward o o := ⟨rfl, rfl, fun _ known => known⟩

theorem OrderOnward.trans {o p q : Order} (first : OrderOnward o p) (second : OrderOnward p q) :
    OrderOnward o q :=
  ⟨second.id.trans first.id, second.snapshot.trans first.snapshot,
    fun s known => second.session s (first.session s known)⟩

theorem Onward.refl (t : CheckoutTables) : Onward t t :=
  ⟨fun a member => ⟨a, member, ReservationOnward.refl a⟩,
    fun o member => ⟨o, member, OrderOnward.refl o⟩⟩

theorem Onward.trans {t u v : CheckoutTables} (first : Onward t u) (second : Onward u v) :
    Onward t v := by
  constructor
  · intro a member
    obtain ⟨b, later, toB⟩ := first.reservations a member
    obtain ⟨c, last, toC⟩ := second.reservations b later
    exact ⟨c, last, toB.trans toC⟩
  · intro o member
    obtain ⟨p, later, toP⟩ := first.orders o member
    obtain ⟨q, last, toQ⟩ := second.orders p later
    exact ⟨q, last, toP.trans toQ⟩

/-- Tables whose rows came from those of `t`, some of them rewritten. -/
theorem Onward.map {t t' : CheckoutTables} {f : IdempotencyRequest → IdempotencyRequest}
    {g : Order → Order} (reservations : t'.reservations = t.reservations.map f)
    (orders : t'.orders = t.orders.map g)
    (fOnward : ∀ a ∈ t.reservations, ReservationOnward a (f a))
    (gOnward : ∀ o ∈ t.orders, OrderOnward o (g o)) : Onward t t' := by
  constructor
  · intro a member
    refine ⟨f a, ?_, fOnward a member⟩
    rw [reservations]
    exact List.mem_map_of_mem member
  · intro o member
    refine ⟨g o, ?_, gOnward o member⟩
    rw [orders]
    exact List.mem_map_of_mem member

/-! ## The tables -/

/-- What the provider answers for a reservation and its order, whoever asks and when. -/
def providerAnswer (provider : String → HostedCheckoutRequest → HostedCheckoutResult)
    (a : IdempotencyRequest) (o : Order) : HostedCheckoutResult :=
  provider a.providerIdempotencyKey (hostedRequest a o)

/-- A reservation and its order: the session is bound exactly when the reservation is
completed, and then it is the one the provider answers with. -/
structure Paired (provider : String → HostedCheckoutRequest → HostedCheckoutResult)
    (a : IdempotencyRequest) (o : Order) : Prop where
  owner : a.orderId = o.id
  key : a.providerIdempotencyKey = providerKey a.keyHash
  pending : a.checkoutState ≠ .completed → o.checkoutSessionId = none
  settled : a.checkoutState = .completed →
    o.checkoutSessionId = some (providerAnswer provider a o).sessionId ∧
      ∃ body, a.responseBody = some body ∧ body.orderReference = o.snapshot.orderReference ∧
        body.checkoutUrl = (providerAnswer provider a o).checkoutUrl

def referenceOf (o : Order) : OrderReference := o.snapshot.orderReference

structure TablesKept (provider : String → HostedCheckoutRequest → HostedCheckoutResult)
    (t : CheckoutTables) : Prop where
  keys : (t.reservations.map IdempotencyRequest.keyHash).Nodup
  ids : (t.reservations.map IdempotencyRequest.id).Nodup
  orderIds : (t.reservations.map IdempotencyRequest.orderId).Nodup
  orders : (t.orders.map Order.id).Nodup
  references : (t.orders.map referenceOf).Nodup
  paired : ∀ a ∈ t.reservations, ∃ o ∈ t.orders, Paired provider a o
  owned : ∀ o ∈ t.orders, ∃ a ∈ t.reservations, a.orderId = o.id

variable {provider : String → HostedCheckoutRequest → HostedCheckoutResult}

theorem hostedRequest_onward {a a' : IdempotencyRequest} {o o' : Order}
    (reservation : ReservationOnward a a') (order : OrderOnward o o') :
    hostedRequest a' o' = hostedRequest a o := by
  simp only [hostedRequest, order.id, order.snapshot, reservation.providerPriceId,
    reservation.successUrl, reservation.cancelUrl]

theorem makePlan_onward {a a' : IdempotencyRequest} {o o' : Order} (leaseId : Nat)
    (reservation : ReservationOnward a a') (order : OrderOnward o o') :
    makePlan a' o' leaseId = makePlan a o leaseId := by
  simp only [makePlan, hostedRequest_onward reservation order, reservation.id,
    reservation.providerIdempotencyKey]

/-- A column that no rewriting of the rows touches. -/
theorem column_map {α β : Type} {key : α → β} {f : α → α} {rows : List α}
    (same : ∀ x ∈ rows, key (f x) = key x) : (rows.map f).map key = rows.map key := by
  rw [List.map_map]
  exact List.map_congr_left same

theorem TablesKept.map {t t' : CheckoutTables} {f : IdempotencyRequest → IdempotencyRequest}
    {g : Order → Order} (kept : TablesKept provider t)
    (reservations : t'.reservations = t.reservations.map f) (orders : t'.orders = t.orders.map g)
    (fOnward : ∀ a ∈ t.reservations, ReservationOnward a (f a))
    (gOnward : ∀ o ∈ t.orders, OrderOnward o (g o))
    (paired : ∀ a ∈ t.reservations, ∀ o ∈ t.orders, Paired provider a o →
      Paired provider (f a) (g o)) : TablesKept provider t' := by
  have sameReference : ∀ o ∈ t.orders, referenceOf (g o) = referenceOf o := by
    intro o member
    exact congrArg OrderSnapshot.orderReference (gOnward o member).snapshot
  constructor
  · rw [reservations, column_map fun a member => (fOnward a member).keyHash]
    exact kept.keys
  · rw [reservations, column_map fun a member => (fOnward a member).id]
    exact kept.ids
  · rw [reservations, column_map fun a member => (fOnward a member).orderId]
    exact kept.orderIds
  · rw [orders, column_map fun o member => (gOnward o member).id]
    exact kept.orders
  · rw [orders, column_map sameReference]
    exact kept.references
  · rw [reservations, orders]
    intro a' member
    obtain ⟨a, known, rfl⟩ := List.mem_map.1 member
    obtain ⟨o, held, pair⟩ := kept.paired a known
    exact ⟨g o, List.mem_map_of_mem held, paired a known o held pair⟩
  · rw [reservations, orders]
    intro o' member
    obtain ⟨o, held, rfl⟩ := List.mem_map.1 member
    obtain ⟨a, known, owner⟩ := kept.owned o held
    refine ⟨f a, List.mem_map_of_mem known, ?_⟩
    rw [(fOnward a known).orderId, (gOnward o held).id, owner]

theorem reservation_mem {t : CheckoutTables} {key : Sha256} {a : IdempotencyRequest}
    (found : t.reservation key = some a) : a ∈ t.reservations ∧ a.keyHash = key :=
  ⟨List.mem_of_find?_eq_some found, by simpa using List.find?_some found⟩

theorem reservationById_mem {t : CheckoutTables} {id : Nat} {a : IdempotencyRequest}
    (found : t.reservationById id = some a) : a ∈ t.reservations ∧ a.id = id :=
  ⟨List.mem_of_find?_eq_some found, by simpa using List.find?_some found⟩

theorem order_mem {t : CheckoutTables} {id : Nat} {o : Order} (found : t.order id = some o) :
    o ∈ t.orders ∧ o.id = id :=
  ⟨List.mem_of_find?_eq_some found, by simpa using List.find?_some found⟩

theorem orderByReference_reference {t : CheckoutTables} {reference : OrderReference} {o : Order}
    (found : t.orderByReference reference = some o) : o.snapshot.orderReference = reference := by
  simpa using List.find?_some found

/-- The one order of a reservation. -/
theorem TablesKept.pair {t : CheckoutTables} (kept : TablesKept provider t)
    {a : IdempotencyRequest} (member : a ∈ t.reservations) {o : Order} (known : o ∈ t.orders)
    (owner : a.orderId = o.id) : Paired provider a o := by
  obtain ⟨p, held, pair⟩ := kept.paired a member
  obtain rfl : p = o := List.inj_on_of_nodup_map kept.orders held known
    (pair.owner.symm.trans owner)
  exact pair

/-! ### A lease goes to another caller -/

theorem takeOver_onward (settings : CheckoutSettings) (leaseId : Nat) (now : Instant)
    (a : IdempotencyRequest) : ReservationOnward a (takeOver settings leaseId now a) := by
  refine ⟨rfl, rfl, rfl, rfl, rfl, rfl, rfl, rfl, ?_⟩
  intro done
  exact ⟨by simp only [takeOver, done, if_true], rfl⟩

theorem takeOver_completed (settings : CheckoutSettings) (leaseId : Nat) (now : Instant)
    (a : IdempotencyRequest) :
    (takeOver settings leaseId now a).checkoutState = .completed ↔
      a.checkoutState = .completed := by
  by_cases done : a.checkoutState = .completed
  · simp only [takeOver, done, if_true]
  · simp only [takeOver, done, if_false, iff_false]
    exact CheckoutState.noConfusion

theorem takeOver_paired {settings : CheckoutSettings} {leaseId : Nat} {now : Instant}
    {a : IdempotencyRequest} {o : Order} (pair : Paired provider a o) :
    Paired provider (takeOver settings leaseId now a) o := by
  refine ⟨pair.owner, pair.key, ?_, ?_⟩
  · intro pending
    exact pair.pending fun done => pending ((takeOver_completed settings leaseId now a).2 done)
  · intro done
    exact pair.settled ((takeOver_completed settings leaseId now a).1 done)

/-- The row with identifier `id` rewritten by `f`. -/
def rewriteAt (id : Nat) (f : IdempotencyRequest → IdempotencyRequest) (a : IdempotencyRequest) :
    IdempotencyRequest :=
  if a.id = id then f a else a

theorem rewriteAt_onward {id : Nat} {f : IdempotencyRequest → IdempotencyRequest}
    {a : IdempotencyRequest} (onward : a.id = id → ReservationOnward a (f a)) :
    ReservationOnward a (rewriteAt id f a) := by
  by_cases hit : a.id = id
  · rw [rewriteAt, if_pos hit]
    exact onward hit
  · rw [rewriteAt, if_neg hit]
    exact ReservationOnward.refl a

section Taken

variable {settings : CheckoutSettings} {leaseId id : Nat} {now : Instant} {t t' : CheckoutTables}
  (reservations : t'.reservations =
    (t.modifyReservation id (takeOver settings leaseId now)).reservations)
  (orders : t'.orders = t.orders)

include reservations orders

theorem taken_onward : Onward t t' :=
  Onward.map (f := rewriteAt id (takeOver settings leaseId now)) (g := fun o => o) reservations
    (orders.trans (List.map_id' t.orders).symm)
    (fun _ _ => rewriteAt_onward fun _ => takeOver_onward settings leaseId now _)
    fun o _ => OrderOnward.refl o

theorem TablesKept.taken (kept : TablesKept provider t) : TablesKept provider t' := by
  refine kept.map (f := rewriteAt id (takeOver settings leaseId now)) (g := fun o => o)
    reservations (orders.trans (List.map_id' t.orders).symm)
    (fun _ _ => rewriteAt_onward fun _ => takeOver_onward settings leaseId now _)
    (fun o _ => OrderOnward.refl o) ?_
  intro a _ o _ pair
  by_cases hit : a.id = id
  · rw [rewriteAt, if_pos hit]
    exact takeOver_paired pair
  · rw [rewriteAt, if_neg hit]
    exact pair

end Taken

/-! ### The rest of the service -/

/-- The columns of an order that other code writes. -/
def writeOrder (orderId : Nat) (payment : PaymentState) (fulfillment : FulfillmentState)
    (intent : Option String) (calendar : Option Instant) (o : Order) : Order :=
  if o.id = orderId then
    { o with
      paymentState := payment
      fulfillmentState := fulfillment
      paymentIntentId := intent
      calendarSubmittedAt := calendar }
  else o

section Written

variable (orderId : Nat) (payment : PaymentState) (fulfillment : FulfillmentState)
  (intent : Option String) (calendar : Option Instant)

theorem writeOrder_columns (o : Order) :
    (writeOrder orderId payment fulfillment intent calendar o).id = o.id ∧
      (writeOrder orderId payment fulfillment intent calendar o).snapshot = o.snapshot ∧
      (writeOrder orderId payment fulfillment intent calendar o).checkoutSessionId =
        o.checkoutSessionId := by
  unfold writeOrder
  split
  · exact ⟨rfl, rfl, rfl⟩
  · exact ⟨rfl, rfl, rfl⟩

theorem writeOrder_onward (o : Order) :
    OrderOnward o (writeOrder orderId payment fulfillment intent calendar o) := by
  obtain ⟨id, snapshot, session⟩ := writeOrder_columns orderId payment fulfillment intent calendar o
  exact ⟨id, snapshot, fun s known => session.trans known⟩

theorem writeOrder_paired {a : IdempotencyRequest} {o : Order} (pair : Paired provider a o) :
    Paired provider a (writeOrder orderId payment fulfillment intent calendar o) := by
  obtain ⟨id, snapshot, session⟩ := writeOrder_columns orderId payment fulfillment intent calendar o
  have answer : providerAnswer provider a (writeOrder orderId payment fulfillment intent calendar
      o) = providerAnswer provider a o :=
    congrArg (provider a.providerIdempotencyKey) (hostedRequest_onward (ReservationOnward.refl a)
      (writeOrder_onward orderId payment fulfillment intent calendar o))
  refine ⟨pair.owner.trans id.symm, pair.key, fun pending => session.trans (pair.pending pending),
    ?_⟩
  intro done
  rw [answer, session, snapshot]
  exact pair.settled done

variable {t t' : CheckoutTables} (reservations : t'.reservations = t.reservations)
  (orders : t'.orders = t.orders.map (writeOrder orderId payment fulfillment intent calendar))

include reservations orders

theorem written_onward : Onward t t' :=
  Onward.map (f := fun a => a) (reservations.trans (List.map_id' t.reservations).symm) orders
    (fun a _ => ReservationOnward.refl a)
    fun o _ => writeOrder_onward orderId payment fulfillment intent calendar o

theorem TablesKept.written (kept : TablesKept provider t) : TablesKept provider t' :=
  kept.map (f := fun a => a) (reservations.trans (List.map_id' t.reservations).symm) orders
    (fun a _ => ReservationOnward.refl a)
    (fun o _ => writeOrder_onward orderId payment fulfillment intent calendar o)
    fun _ _ _ _ pair => writeOrder_paired orderId payment fulfillment intent calendar pair

end Written

/-! ### The lease holder finalizes -/

/-- The session that an order is bound to. -/
def bindTo (id : Nat) (session : String) (o : Order) : Order :=
  if o.id = id then { o with checkoutSessionId := some session } else o

section Finalized

variable {settings : CheckoutSettings} {body : SafeResponse} {now : Instant}
  {result : HostedCheckoutResult} {a : IdempotencyRequest} {order : Order} {t t' : CheckoutTables}

theorem complete_onward (processing : a.checkoutState = .processing) :
    ReservationOnward a (completeReservation settings body now a) := by
  refine ⟨rfl, rfl, rfl, rfl, rfl, rfl, rfl, rfl, ?_⟩
  intro done
  rw [processing] at done
  cases done

theorem bindTo_onward {id : Nat} {session : String} {o : Order}
    (fresh : o.id = id → o.checkoutSessionId = none) : OrderOnward o (bindTo id session o) := by
  by_cases hit : o.id = id
  · rw [bindTo, if_pos hit]
    refine ⟨rfl, rfl, ?_⟩
    intro s known
    rw [fresh hit] at known
    cases known
  · rw [bindTo, if_neg hit]
    exact OrderOnward.refl o

theorem hit_onward (kept : TablesKept provider t) (member : a ∈ t.reservations)
    (processing : a.checkoutState = .processing) {b : IdempotencyRequest}
    (known : b ∈ t.reservations) :
    ReservationOnward b (rewriteAt a.id (completeReservation settings body now) b) := by
  refine rewriteAt_onward fun hit => ?_
  obtain rfl := List.inj_on_of_nodup_map kept.ids known member hit
  exact complete_onward processing

variable (kept : TablesKept provider t) (member : a ∈ t.reservations) (held : order ∈ t.orders)
  (owner : a.orderId = order.id) (processing : a.checkoutState = .processing)
  (reservations : t'.reservations =
    (t.modifyReservation a.id (completeReservation settings body now)).reservations)
  (orders : t'.orders = (t.modifyOrder order.id fun o =>
    { o with checkoutSessionId := some result.sessionId }).orders)

include kept member held owner processing

theorem unbound {o : Order} (known : o ∈ t.orders) (hit : o.id = order.id) :
    o.checkoutSessionId = none := by
  obtain rfl := List.inj_on_of_nodup_map kept.orders known held hit
  refine (kept.pair member known owner).pending ?_
  rw [processing]
  exact CheckoutState.noConfusion

include reservations orders

theorem finalized_onward : Onward t t' :=
  Onward.map (f := rewriteAt a.id (completeReservation settings body now))
    (g := bindTo order.id result.sessionId) reservations orders
    (fun _ known => hit_onward kept member processing known)
    fun _ known => bindTo_onward (unbound kept member held owner processing known)

theorem TablesKept.finalized (answer : result = providerAnswer provider a order)
    (reference : body.orderReference = order.snapshot.orderReference)
    (url : body.checkoutUrl = result.checkoutUrl) : TablesKept provider t' := by
  refine kept.map (f := rewriteAt a.id (completeReservation settings body now))
    (g := bindTo order.id result.sessionId) reservations orders
    (fun _ known => hit_onward kept member processing known)
    (fun _ known => bindTo_onward (unbound kept member held owner processing known)) ?_
  intro b known o there pair
  by_cases hit : b.id = a.id
  · obtain rfl := List.inj_on_of_nodup_map kept.ids known member hit
    have same : o.id = order.id := pair.owner.symm.trans owner
    obtain rfl := List.inj_on_of_nodup_map kept.orders there held same
    rw [rewriteAt, if_pos rfl, bindTo, if_pos rfl]
    refine ⟨owner, pair.key, fun pending => absurd rfl pending, ?_⟩
    intro _
    subst answer
    exact ⟨rfl, body, rfl, reference, url⟩
  · have apart : o.id ≠ order.id := by
      intro same
      apply hit
      obtain rfl := List.inj_on_of_nodup_map kept.orderIds known member
        (pair.owner.trans (same.trans owner.symm))
      rfl
    rw [rewriteAt, if_neg hit, bindTo, if_neg apart]
    exact pair

end Finalized

/-! ### A new reservation -/

section Inserted

variable {a : IdempotencyRequest} {order : Order} {t : CheckoutTables}

theorem keysFree_apart (free : keysFree a order t = true) :
    (∀ o ∈ t.orders, o.id ≠ order.id ∧ referenceOf o ≠ referenceOf order) ∧
      ∀ b ∈ t.reservations, b.id ≠ a.id ∧ b.keyHash ≠ a.keyHash ∧ b.orderId ≠ a.orderId := by
  rw [keysFree, Bool.and_eq_true, List.all_eq_true, List.all_eq_true] at free
  obtain ⟨orders, reservations⟩ := free
  constructor
  · intro o member
    have apart := orders o member
    rw [Bool.and_eq_true, bne_iff_ne, bne_iff_ne] at apart
    exact apart
  · intro b member
    have apart := reservations b member
    rw [Bool.and_eq_true, Bool.and_eq_true, Bool.and_eq_true, bne_iff_ne, bne_iff_ne,
      bne_iff_ne] at apart
    exact ⟨apart.1.1.1, apart.1.1.2, apart.1.2⟩

/-- A row with a fresh value in a unique column. -/
theorem column_append {α β : Type} {key : α → β} {rows : List α} {row : α}
    (nodup : (rows.map key).Nodup) (fresh : ∀ x ∈ rows, key x ≠ key row) :
    ((rows ++ [row]).map key).Nodup := by
  rw [List.map_append, List.map_singleton]
  refine List.nodup_append.2 ⟨nodup, List.nodup_singleton _, ?_⟩
  intro k member k' last
  obtain ⟨x, known, rfl⟩ := List.mem_map.1 member
  rw [List.mem_singleton.1 last]
  exact fresh x known

theorem inserted_onward :
    Onward t { t with reservations := t.reservations ++ [a], orders := t.orders ++ [order] } :=
  ⟨fun b member => ⟨b, List.mem_append_left _ member, ReservationOnward.refl b⟩,
    fun o member => ⟨o, List.mem_append_left _ member, OrderOnward.refl o⟩⟩

theorem TablesKept.inserted (kept : TablesKept provider t) (free : keysFree a order t = true)
    (pair : Paired provider a order) : TablesKept provider
      { t with reservations := t.reservations ++ [a], orders := t.orders ++ [order] } := by
  obtain ⟨orders, reservations⟩ := keysFree_apart free
  refine ⟨column_append kept.keys fun b member => (reservations b member).2.1,
    column_append kept.ids fun b member => (reservations b member).1,
    column_append kept.orderIds fun b member => (reservations b member).2.2,
    column_append kept.orders fun o member => (orders o member).1,
    column_append kept.references fun o member => (orders o member).2, ?_, ?_⟩
  · intro b member
    rcases List.mem_append.1 member with old | new
    · obtain ⟨o, known, paired⟩ := kept.paired b old
      exact ⟨o, List.mem_append_left _ known, paired⟩
    · obtain rfl := List.mem_singleton.1 new
      exact ⟨order, List.mem_append_right _ (List.mem_singleton_self _), pair⟩
  · intro o member
    rcases List.mem_append.1 member with old | new
    · obtain ⟨b, known, owner⟩ := kept.owned o old
      exact ⟨b, List.mem_append_left _ known, owner⟩
    · obtain rfl := List.mem_singleton.1 new
      exact ⟨a, List.mem_append_right _ (List.mem_singleton_self _), pair.owner⟩

end Inserted

theorem newReservation_paired (settings : CheckoutSettings) (request : CheckoutInput)
    (binding : IdempotencyBinding) (env : CheckoutEnv) (now : Instant) (leaseId : Nat) :
    Paired provider (newReservation settings binding env now leaseId)
      (newOrder settings request env) := by
  refine ⟨rfl, rfl, fun _ => rfl, ?_⟩
  intro done
  cases done

/-! ## The calls -/

/-- A plan was made from the reservation of its call's key. -/
structure PlanKept (t : CheckoutTables) (nextLease : Nat) (binding : IdempotencyBinding)
    (plan : CheckoutPlan) : Prop where
  made : ∃ a ∈ t.reservations, ∃ o ∈ t.orders, a.keyHash = binding.keySha256 ∧
    a.requestHash = binding.requestSha256 ∧ a.orderId = o.id ∧ plan = makePlan a o plan.leaseId
  lease : plan.leaseId < nextLease

/-- A success is what the completed reservation of its call's key says. -/
def OutputKept (t : CheckoutTables) (binding : IdempotencyBinding) (output : CheckoutOutput) :
    Prop :=
  ∃ a ∈ t.reservations, a.keyHash = binding.keySha256 ∧ a.requestHash = binding.requestSha256 ∧
    a.checkoutState = .completed ∧ ∃ body, a.responseBody = some body ∧
      output.orderReference = body.orderReference ∧ output.checkoutUrl = body.checkoutUrl

structure CallKept (provider : String → HostedCheckoutRequest → HostedCheckoutResult)
    (t : CheckoutTables) (nextLease : Nat) (c : Call) : Prop where
  plan : ∀ plan, c.stage.plan = some plan → PlanKept t nextLease c.binding plan
  answer : ∀ plan result, c.stage = .answered plan result →
    result = provider plan.providerIdempotencyKey plan.hosted
  output : ∀ output, c.stage.output = some output → OutputKept t c.binding output

theorem PlanKept.onward {t t' : CheckoutTables} {nextLease nextLease' : Nat}
    {binding : IdempotencyBinding} {plan : CheckoutPlan} (kept : PlanKept t nextLease binding plan)
    (onward : Onward t t') (later : nextLease ≤ nextLease') :
    PlanKept t' nextLease' binding plan := by
  obtain ⟨⟨a, member, o, known, key, request, owner, made⟩, lease⟩ := kept
  obtain ⟨a', member', toA⟩ := onward.reservations a member
  obtain ⟨o', known', toO⟩ := onward.orders o known
  refine ⟨⟨a', member', o', known', toA.keyHash.trans key, toA.requestHash.trans request, ?_, ?_⟩,
    lease.trans_le later⟩
  · rw [toA.orderId, toO.id, owner]
  · rw [makePlan_onward plan.leaseId toA toO]
    exact made

theorem OutputKept.onward {t t' : CheckoutTables} {binding : IdempotencyBinding}
    {output : CheckoutOutput} (kept : OutputKept t binding output) (onward : Onward t t') :
    OutputKept t' binding output := by
  obtain ⟨a, member, key, request, done, body, stored, told⟩ := kept
  obtain ⟨a', member', toA⟩ := onward.reservations a member
  obtain ⟨done', body'⟩ := toA.completed done
  exact ⟨a', member', toA.keyHash.trans key, toA.requestHash.trans request, done', body,
    body'.trans stored, told⟩

theorem CallKept.onward {t t' : CheckoutTables} {nextLease nextLease' : Nat} {c : Call}
    (kept : CallKept provider t nextLease c) (onward : Onward t t')
    (later : nextLease ≤ nextLease') : CallKept provider t' nextLease' c :=
  ⟨fun plan held => (kept.plan plan held).onward onward later, kept.answer,
    fun output ended => (kept.output output ended).onward onward⟩

/-- A stage without a plan and without a success asks for nothing. -/
theorem callKept_idle {t : CheckoutTables} {nextLease : Nat} {c : Call}
    (idle : c.stage.plan = none) (silent : c.stage.output = none) :
    CallKept provider t nextLease c := by
  refine ⟨?_, ?_, ?_⟩
  · intro plan held
    rw [idle] at held
    cases held
  · intro plan result answered
    rw [answered] at idle
    cases idle
  · intro output ended
    rw [silent] at ended
    cases ended

theorem callKept_planned {t : CheckoutTables} {nextLease : Nat} {c : Call} {plan : CheckoutPlan}
    (kept : PlanKept t nextLease c.binding plan) :
    CallKept provider t nextLease { c with stage := .planned plan } := by
  refine ⟨?_, ?_, ?_⟩
  · intro p held
    cases held
    exact kept
  · intro p result answered
    cases answered
  · intro output ended
    cases ended

theorem callKept_ended {t : CheckoutTables} {nextLease : Nat} {c : Call} {output : CheckoutOutput}
    (kept : OutputKept t c.binding output) :
    CallKept provider t nextLease { c with stage := .ended (.ok output) } := by
  refine ⟨?_, ?_, ?_⟩
  · intro plan held
    cases held
  · intro plan result answered
    cases answered
  · intro output' ended
    cases ended
    exact kept

/-- The row that a rewriting by identifier leaves for `a`. -/
theorem rewritten_mem {t t' : CheckoutTables} {a : IdempotencyRequest}
    {f : IdempotencyRequest → IdempotencyRequest} (member : a ∈ t.reservations)
    (reservations : t'.reservations = (t.modifyReservation a.id f).reservations) :
    f a ∈ t'.reservations := by
  rw [reservations]
  exact List.mem_map.2 ⟨a, member, if_pos rfl⟩

theorem advanced_tables {c : Call} {leaseId : Nat} {env : CheckoutEnv} {t t' : CheckoutTables}
    {stage : CallStage} (advanced : Advanced provider c leaseId env t stage t')
    (kept : TablesKept provider t) (call : CallKept provider t leaseId c) :
    TablesKept provider t' ∧ Onward t t' := by
  cases advanced with
  | quiet _ => exact ⟨kept, Onward.refl t⟩
  | resumed _ _ _ _ _ _ reservations orders =>
    exact ⟨kept.taken reservations orders, taken_onward reservations orders⟩
  | replayed _ _ _ _ _ _ _ _ _ reservations orders =>
    exact ⟨kept.taken reservations orders, taken_onward reservations orders⟩
  | inserted reservation order free =>
    subst reservation order
    exact ⟨kept.inserted free (newReservation_paired c.settings c.request c.binding env c.now
      leaseId), inserted_onward⟩
  | answered _ => exact ⟨kept, Onward.refl t⟩
  | @finalized plan result a order body output _ stage found bound processing held live known
      reference url _ _ reservations orders =>
    obtain ⟨member, _⟩ := reservationById_mem found
    obtain ⟨there, owner⟩ := order_mem known
    refine ⟨?_, finalized_onward kept member there owner.symm processing reservations orders⟩
    refine kept.finalized member there owner.symm processing reservations orders ?_ reference url
    obtain ⟨b, memberB, o, knownO, _, _, ownerB, made⟩ :=
      (call.plan plan (congrArg CallStage.plan stage)).made
    have same : b.id = a.id := by
      have planned := congrArg CheckoutPlan.reservationId made
      exact planned.symm.trans (reservationById_mem found).2.symm
    obtain rfl := List.inj_on_of_nodup_map kept.ids memberB member same
    obtain rfl := List.inj_on_of_nodup_map kept.orders knownO there (ownerB.symm.trans owner.symm)
    have answer := call.answer plan result stage
    rw [made] at answer
    exact answer

theorem advanced_call {c : Call} {leaseId : Nat} {env : CheckoutEnv} {t t' : CheckoutTables}
    {stage : CallStage} (advanced : Advanced provider c leaseId env t stage t')
    (kept : TablesKept provider t) (call : CallKept provider t leaseId c) :
    CallKept provider t' (leaseId + 1) { c with stage := stage } := by
  have onward := (advanced_tables advanced kept call).2
  cases advanced with
  | quiet quiet =>
    rcases quiet with rfl | ⟨idle, silent⟩
    · exact call.onward onward (Nat.le_succ leaseId)
    · exact callKept_idle idle silent
  | resumed _ found same _ _ known reservations orders =>
    obtain ⟨member, key⟩ := reservation_mem found
    obtain ⟨held, owner⟩ := order_mem known
    refine callKept_planned ?_
    have before : PlanKept t (leaseId + 1) c.binding (makePlan _ _ leaseId) :=
      ⟨⟨_, member, _, held, key, same, owner.symm, rfl⟩, Nat.lt_succ_self leaseId⟩
    exact before.onward onward (Nat.le_refl _)
  | replayed _ found same _ done stored known reference url reservations orders =>
    obtain ⟨member, key⟩ := reservation_mem found
    refine callKept_ended ?_
    have before : OutputKept t c.binding _ :=
      ⟨_, member, key, same, done, _, stored,
        reference.trans (orderByReference_reference known), url⟩
    exact before.onward onward
  | inserted reservation order free =>
    subst reservation order
    refine callKept_planned ⟨⟨_, List.mem_append_right _ (List.mem_singleton_self _), _,
      List.mem_append_right _ (List.mem_singleton_self _), rfl, rfl, rfl, rfl⟩,
      Nat.lt_succ_self leaseId⟩
  | @answered plan stage =>
    refine ⟨?_, ?_, ?_⟩
    · intro p held
      cases held
      exact (call.plan plan (congrArg CallStage.plan stage)).onward onward (Nat.le_succ leaseId)
    · intro p result answered
      cases answered
      rfl
    · intro output ended
      cases ended
  | @finalized plan result a order body output _ stage found bound processing held live known
      reference url outputReference outputUrl reservations orders =>
    obtain ⟨member, named⟩ := reservationById_mem found
    refine callKept_ended ?_
    obtain ⟨b, memberB, o, _, key, request, _, made⟩ :=
      (call.plan plan (congrArg CallStage.plan stage)).made
    have same : b.id = a.id := (congrArg CheckoutPlan.reservationId made).symm.trans named.symm
    obtain rfl := List.inj_on_of_nodup_map kept.ids memberB member same
    exact ⟨_, rewritten_mem member reservations, key, request, rfl, body, rfl, outputReference,
      outputUrl⟩

theorem advanced_plan {c : Call} {leaseId : Nat} {env : CheckoutEnv} {t t' : CheckoutTables}
    {stage : CallStage} (advanced : Advanced provider c leaseId env t stage t')
    {plan : CheckoutPlan} (held : stage.plan = some plan) :
    c.stage.plan = some plan ∨ plan.leaseId = leaseId := by
  cases advanced with
  | quiet quiet =>
    rcases quiet with rfl | ⟨idle, _⟩
    · exact Or.inl held
    · rw [idle] at held
      cases held
  | resumed _ _ _ _ _ _ _ _ =>
    cases held
    exact Or.inr rfl
  | replayed _ _ _ _ _ _ _ _ _ _ _ => cases held
  | inserted _ _ _ =>
    cases held
    exact Or.inr rfl
  | answered stage =>
    cases held
    exact Or.inl (congrArg CallStage.plan stage)
  | finalized _ _ _ _ _ _ _ _ _ _ _ _ _ => cases held

/-- A success of a call with a plan is a finalization under that plan's unexpired lease. -/
theorem finalizes_ok {c : Call} {leaseId : Nat} {env : CheckoutEnv} {t t' : CheckoutTables}
    {stage : CallStage} (advanced : Advanced provider c leaseId env t stage t') {id : Nat}
    (finalized : id ∈ finalizes c.stage stage) :
    finalizes c.stage stage = [id] ∧ ∃ plan result a body, c.stage = .answered plan result ∧
      a ∈ t.reservations ∧ a.id = id ∧ plan.reservationId = id ∧ a.checkoutState = .processing ∧
      a.checkoutLeaseId = some plan.leaseId ∧ leaseLive a env.now = true ∧
      t'.reservations =
        (t.modifyReservation a.id (completeReservation c.settings body env.now)).reservations := by
  unfold finalizes at finalized ⊢
  split at finalized
  · next _ plan result output before =>
    obtain rfl := List.mem_singleton.1 finalized
    refine ⟨rfl, plan, result, ?_⟩
    cases advanced with
    | quiet quiet =>
      rcases quiet with same | ⟨_, silent⟩
      · rw [before] at same
        cases same
      · cases silent
    | replayed idle _ _ _ _ _ _ _ _ _ _ =>
      rw [before] at idle
      cases idle
    | @finalized _ _ a _ body _ _ held found _ processing lease live _ _ _ _ _ reservations _ =>
      obtain ⟨rfl, rfl⟩ := CallStage.answered.inj (held.symm.trans before)
      obtain ⟨member, named⟩ := reservationById_mem found
      exact ⟨a, body, before, member, named, rfl, processing, lease, live, reservations⟩
  · exact absurd finalized List.not_mem_nil

/-- No two calls work under one lease. -/
def LeasesApart (calls : List Call) : Prop :=
  ∀ i j : Nat, ∀ c d : Call, calls[i]? = some c → calls[j]? = some d →
    ∀ p q : CheckoutPlan, c.stage.plan = some p → d.stage.plan = some q →
      p.leaseId = q.leaseId → i = j

/-- What holds in every state: the tables, the calls against them, one holder for each lease,
and no reservation finalized twice. -/
structure WorldKept (provider : String → HostedCheckoutRequest → HostedCheckoutResult)
    (w : CheckoutWorld) : Prop where
  tables : TablesKept provider w.tables
  calls : ∀ c ∈ w.calls, CallKept provider w.tables w.nextLease c
  apart : LeasesApart w.calls
  finalized : w.finalized.Nodup
  done : ∀ id ∈ w.finalized, ∃ a ∈ w.tables.reservations, a.id = id ∧ a.checkoutState = .completed

theorem emptyTables_kept : WorldKept provider emptyTables := by
  refine ⟨⟨List.nodup_nil, List.nodup_nil, List.nodup_nil, List.nodup_nil, List.nodup_nil, ?_, ?_⟩,
    ?_, ?_, List.nodup_nil, ?_⟩
  · intro a member
    exact absurd member List.not_mem_nil
  · intro o member
    exact absurd member List.not_mem_nil
  · intro c member
    exact absurd member List.not_mem_nil
  · intro i j c d atI
    cases atI
  · intro id member
    exact absurd member List.not_mem_nil

theorem done_onward {w : CheckoutWorld} {t' : CheckoutTables}
    (kept : WorldKept provider w) (onward : Onward w.tables t') {id : Nat}
    (member : id ∈ w.finalized) :
    ∃ a ∈ t'.reservations, a.id = id ∧ a.checkoutState = .completed := by
  obtain ⟨a, known, named, completed⟩ := kept.done id member
  obtain ⟨a', later, toA⟩ := onward.reservations a known
  exact ⟨a', later, toA.id.trans named, (toA.completed completed).1⟩

/-- Tables that other code changed. -/
theorem WorldKept.tablesChanged {w : CheckoutWorld} {t' : CheckoutTables}
    (kept : WorldKept provider w) (tables : TablesKept provider t')
    (onward : Onward w.tables t') : WorldKept provider { w with tables := t' } :=
  ⟨tables, fun c member => (kept.calls c member).onward onward (Nat.le_refl _), kept.apart,
    kept.finalized, fun _ member => done_onward kept onward member⟩

theorem set_cases {calls : List Call} {i j : Nat} {c d : Call}
    (found : (calls.set i c)[j]? = some d) : (j = i ∧ d = c) ∨ calls[j]? = some d := by
  rw [List.getElem?_set] at found
  split at found
  · next same =>
    split at found
    · cases found
      exact Or.inl ⟨same.symm, rfl⟩
    · cases found
  · exact Or.inr found

/-- A call that moves on under its old lease or under a new one. -/
theorem apart_set {w : CheckoutWorld} {i : Nat} {c c' : Call} (kept : WorldKept provider w)
    (found : w.calls[i]? = some c)
    (plan : ∀ p, c'.stage.plan = some p → c.stage.plan = some p ∨ p.leaseId = w.nextLease) :
    LeasesApart (w.calls.set i c') := by
  have known : ∀ {j : Nat} {d : Call} {q : CheckoutPlan}, w.calls[j]? = some d →
      d.stage.plan = some q → q.leaseId < w.nextLease := by
    intro j d q atJ held
    exact ((kept.calls d (List.mem_of_getElem? atJ)).plan q held).lease
  intro j k d e atJ atK p q holdsP holdsQ same
  rcases set_cases atJ with ⟨rfl, rfl⟩ | oldJ
  · rcases set_cases atK with ⟨rfl, _⟩ | oldK
    · rfl
    · rcases plan p holdsP with before | fresh
      · exact kept.apart j k c e found oldK p q before holdsQ same
      · have earlier := known oldK holdsQ
        omega
  · rcases set_cases atK with ⟨rfl, rfl⟩ | oldK
    · rcases plan q holdsQ with before | fresh
      · exact kept.apart j k d c oldJ found p q holdsP before same
      · have earlier := known oldJ holdsP
        omega
    · exact kept.apart j k d e oldJ oldK p q holdsP holdsQ same

theorem calls_set {w : CheckoutWorld} {i : Nat} {c' : Call} {t' : CheckoutTables}
    {nextLease : Nat} (kept : WorldKept provider w) (onward : Onward w.tables t')
    (later : w.nextLease ≤ nextLease) (call : CallKept provider t' nextLease c') :
    ∀ d ∈ w.calls.set i c', CallKept provider t' nextLease d := by
  intro d member
  rcases List.mem_or_eq_of_mem_set member with old | rfl
  · exact (kept.calls d old).onward onward later
  · exact call

theorem serve_kept {w : CheckoutWorld} {i : Nat} {c : Call} (env : CheckoutEnv)
    (kept : WorldKept provider w) (found : w.calls[i]? = some c) :
    WorldKept provider (checkoutStep provider w (.serve i env)) := by
  have advanced := advance_advanced provider c w.nextLease env w.tables
  have call := kept.calls c (List.mem_of_getElem? found)
  obtain ⟨tables, onward⟩ := advanced_tables advanced kept.tables call
  simp only [checkoutStep, found]
  have finalizedOnce : ∀ id ∈ finalizes c.stage (advance provider c w.nextLease env w.tables).1,
      id ∉ w.finalized ∧ ∃ a ∈ (advance provider c w.nextLease env w.tables).2.reservations,
        a.id = id ∧ a.checkoutState = .completed := by
    intro id member
    obtain ⟨_, plan, result, a, body, _, known, named, _, processing, _, _, reservations⟩ :=
      finalizes_ok advanced member
    refine ⟨?_, _, rewritten_mem known reservations, named, rfl⟩
    intro before
    obtain ⟨b, there, same, completed⟩ := kept.done id before
    obtain rfl := List.inj_on_of_nodup_map kept.tables.ids there known (same.trans named.symm)
    rw [processing] at completed
    cases completed
  refine ⟨tables, calls_set kept onward (Nat.le_succ _) (advanced_call advanced kept.tables call),
    apart_set kept found fun p held => advanced_plan advanced held, ?_, ?_⟩
  · refine List.nodup_append.2 ⟨kept.finalized, ?_, ?_⟩
    · cases finalized : finalizes c.stage (advance provider c w.nextLease env w.tables).1 with
      | nil => exact List.nodup_nil
      | cons id rest =>
        have member : id ∈ finalizes c.stage (advance provider c w.nextLease env w.tables).1 := by
          rw [finalized]
          exact List.mem_cons_self
        rw [← finalized, (finalizes_ok advanced member).1]
        exact List.nodup_singleton id
    · intro id before id' after same
      subst same
      exact (finalizedOnce id after).1 before
  · intro id member
    rcases List.mem_append.1 member with before | after
    · exact done_onward kept onward before
    · exact (finalizedOnce id after).2

theorem startCall_idle (settings : CheckoutSettings) (request : CheckoutInput)
    (binding : IdempotencyBinding) (now : Instant) :
    (startCall settings request binding now).stage.plan = none ∧
      (startCall settings request binding now).stage.output = none := by
  unfold startCall
  split
  · exact ⟨rfl, rfl⟩
  · exact ⟨rfl, rfl⟩

theorem create_kept {w : CheckoutWorld} {c : Call} (kept : WorldKept provider w)
    (idle : c.stage.plan = none) (silent : c.stage.output = none) :
    WorldKept provider { w with calls := w.calls ++ [c] } := by
  refine ⟨kept.tables, ?_, ?_, kept.finalized, kept.done⟩
  · intro d member
    rcases List.mem_append.1 member with old | new
    · exact kept.calls d old
    · rw [List.mem_singleton.1 new]
      exact callKept_idle idle silent
  · have old : ∀ {j : Nat} {d : Call} {p : CheckoutPlan}, (w.calls ++ [c])[j]? = some d →
        d.stage.plan = some p → w.calls[j]? = some d := by
      intro j d p atJ held
      rw [List.getElem?_append] at atJ
      split at atJ
      · exact atJ
      · have last := List.mem_singleton.1 (List.mem_of_getElem? atJ)
        rw [last, idle] at held
        cases held
    intro j k d e atJ atK p q holdsP holdsQ same
    exact kept.apart j k d e (old atJ holdsP) (old atK holdsQ) p q holdsP holdsQ same

theorem crash_kept {w : CheckoutWorld} {i : Nat} {c : Call} (kept : WorldKept provider w)
    (found : w.calls[i]? = some c) :
    WorldKept provider { w with calls := w.calls.set i { c with stage := c.stage.crash } } := by
  have call := kept.calls c (List.mem_of_getElem? found)
  have crashed : CallKept provider w.tables w.nextLease { c with stage := c.stage.crash } ∧
      c.stage.crash.plan = none := by
    cases stage : c.stage with
    | ended outcome =>
      refine ⟨?_, rfl⟩
      rw [CallStage.crash, ← stage]
      exact call
    | _ => exact ⟨callKept_idle rfl rfl, rfl⟩
  refine ⟨kept.tables, calls_set kept (Onward.refl _) (Nat.le_refl _) crashed.1,
    apart_set kept found ?_, kept.finalized, kept.done⟩
  intro p held
  rw [crashed.2] at held
  cases held

theorem step_kept {w : CheckoutWorld} (step : CheckoutStep) (kept : WorldKept provider w) :
    WorldKept provider (checkoutStep provider w step) := by
  cases step with
  | create settings request binding now =>
    obtain ⟨idle, silent⟩ := startCall_idle settings request binding now
    exact create_kept kept idle silent
  | serve i env =>
    cases found : w.calls[i]? with
    | none =>
      simp only [checkoutStep, found]
      exact kept
    | some c => exact serve_kept env kept found
  | crash i =>
    cases found : w.calls[i]? with
    | none =>
      simp only [checkoutStep, found]
      exact kept
    | some c =>
      simp only [checkoutStep, found]
      exact crash_kept kept found
  | orderWriter orderId payment fulfillment intent calendar =>
    exact kept.tablesChanged
      (TablesKept.written (t := w.tables) orderId payment fulfillment intent calendar rfl rfl
        kept.tables)
      (written_onward orderId payment fulfillment intent calendar rfl rfl)
  | tokenWriter tokens =>
    exact kept.tablesChanged
      ⟨kept.tables.keys, kept.tables.ids, kept.tables.orderIds, kept.tables.orders,
        kept.tables.references, kept.tables.paired, kept.tables.owned⟩
      ⟨(Onward.refl w.tables).reservations, (Onward.refl w.tables).orders⟩

theorem step_onward {w : CheckoutWorld} (step : CheckoutStep) (kept : WorldKept provider w) :
    Onward w.tables (checkoutStep provider w step).tables := by
  cases step with
  | create settings request binding now => exact Onward.refl w.tables
  | serve i env =>
    cases found : w.calls[i]? with
    | none =>
      simp only [checkoutStep, found]
      exact Onward.refl w.tables
    | some c =>
      simp only [checkoutStep, found]
      exact (advanced_tables (advance_advanced provider c w.nextLease env w.tables) kept.tables
        (kept.calls c (List.mem_of_getElem? found))).2
  | crash i =>
    cases found : w.calls[i]? with
    | none =>
      simp only [checkoutStep, found]
      exact Onward.refl w.tables
    | some c =>
      simp only [checkoutStep, found]
      exact Onward.refl w.tables
  | orderWriter orderId payment fulfillment intent calendar =>
    exact written_onward orderId payment fulfillment intent calendar rfl rfl
  | tokenWriter tokens =>
    exact ⟨(Onward.refl w.tables).reservations, (Onward.refl w.tables).orders⟩

theorem run_kept (steps : List CheckoutStep) {w : CheckoutWorld} (kept : WorldKept provider w) :
    WorldKept provider (checkoutRun provider steps w) := by
  induction steps generalizing w with
  | nil => exact kept
  | cons step rest ih => exact ih (step_kept step kept)

theorem run_onward (steps : List CheckoutStep) {w : CheckoutWorld} (kept : WorldKept provider w) :
    Onward w.tables (checkoutRun provider steps w).tables := by
  induction steps generalizing w with
  | nil => exact Onward.refl w.tables
  | cons step rest ih => exact (step_onward step kept).trans (ih (step_kept step kept))

/-! ## A caller that lost its lease -/

/-- The reservation `id` is not held under this lease any more. -/
def TakenOver (t : CheckoutTables) (id leaseId : Nat) : Prop :=
  ∀ a ∈ t.reservations, a.id = id → a.checkoutLeaseId ≠ some leaseId

/-- A call that can end in an error only. -/
def Fenced (t : CheckoutTables) : CallStage → Prop
  | .planned plan | .answered plan _ => TakenOver t plan.reservationId plan.leaseId
  | .ended (.error _) | .crashed => True
  | _ => False

theorem takenOver_rewritten {t t' : CheckoutTables} {id leaseId hit : Nat}
    {f : IdempotencyRequest → IdempotencyRequest} (takenOver : TakenOver t id leaseId)
    (reservations : t'.reservations = (t.modifyReservation hit f).reservations)
    (same : ∀ a, (f a).id = a.id)
    (lease : ∀ a, (f a).checkoutLeaseId = a.checkoutLeaseId ∨
      (f a).checkoutLeaseId ≠ some leaseId) : TakenOver t' id leaseId := by
  intro a' member named
  rw [reservations] at member
  obtain ⟨a, known, rfl⟩ := List.mem_map.1 member
  by_cases at_ : a.id = hit
  · rw [if_pos at_] at named ⊢
    rcases lease a with kept | fresh
    · rw [kept]
      exact takenOver a known ((same a).symm.trans named)
    · exact fresh
  · rw [if_neg at_] at named ⊢
    exact takenOver a known named

theorem advanced_takenOver {c : Call} {nextLease : Nat} {env : CheckoutEnv}
    {t t' : CheckoutTables} {stage : CallStage} {id leaseId : Nat}
    (advanced : Advanced provider c nextLease env t stage t') (earlier : leaseId < nextLease)
    (takenOver : TakenOver t id leaseId) : TakenOver t' id leaseId := by
  have fresh : some nextLease ≠ some leaseId := by
    intro same
    have := Option.some.inj same
    omega
  cases advanced with
  | quiet _ => exact takenOver
  | resumed _ _ _ _ _ _ reservations _ =>
    exact takenOver_rewritten takenOver reservations (fun _ => rfl) fun _ => Or.inr fresh
  | replayed _ _ _ _ _ _ _ _ _ reservations _ =>
    exact takenOver_rewritten takenOver reservations (fun _ => rfl) fun _ => Or.inr fresh
  | inserted reservation _ _ =>
    intro a member named
    rcases List.mem_append.1 member with old | new
    · exact takenOver a old named
    · rw [List.mem_singleton.1 new, reservation]
      exact fresh
  | answered _ => exact takenOver
  | finalized _ _ _ _ _ _ _ _ _ _ _ reservations _ =>
    exact takenOver_rewritten takenOver reservations (fun _ => rfl) fun _ => Or.inl rfl

theorem step_takenOver {w : CheckoutWorld} (step : CheckoutStep) {id leaseId : Nat}
    (earlier : leaseId < w.nextLease) (takenOver : TakenOver w.tables id leaseId) :
    TakenOver (checkoutStep provider w step).tables id leaseId := by
  cases step with
  | create settings request binding now => exact takenOver
  | serve i env =>
    cases found : w.calls[i]? with
    | none =>
      simp only [checkoutStep, found]
      exact takenOver
    | some c =>
      simp only [checkoutStep, found]
      exact advanced_takenOver (advance_advanced provider c w.nextLease env w.tables) earlier
        takenOver
  | crash i =>
    cases found : w.calls[i]? with
    | none =>
      simp only [checkoutStep, found]
      exact takenOver
    | some c =>
      simp only [checkoutStep, found]
      exact takenOver
  | orderWriter orderId payment fulfillment intent calendar => exact takenOver
  | tokenWriter tokens => exact takenOver

variable (provider) in
/-- What a fenced call does next. -/
theorem advance_fenced {c : Call} (nextLease : Nat) (env : CheckoutEnv) {t : CheckoutTables}
    (fenced : Fenced t c.stage) :
    Fenced t (advance provider c nextLease env t).1 ∧
      (advance provider c nextLease env t).2 = t := by
  unfold advance
  cases stage : c.stage with
  | looking =>
    rw [stage] at fenced
    exact fenced.elim
  | inserting =>
    rw [stage] at fenced
    exact fenced.elim
  | retrying =>
    rw [stage] at fenced
    exact fenced.elim
  | planned plan =>
    rw [stage] at fenced
    dsimp only
    cases callProvider provider c.settings plan env with
    | ok result => exact ⟨fenced, rfl⟩
    | error e => exact ⟨trivial, rfl⟩
  | answered plan result =>
    rw [stage] at fenced
    dsimp only
    cases done : finalize c.settings plan c.binding result env.now env.rawToken t with
    | ok out =>
      obtain ⟨output, t'⟩ := out
      obtain ⟨a, order, body, found, _, _, held, _⟩ := finalize_ok done
      obtain ⟨member, named⟩ := reservationById_mem found
      exact absurd held (fenced a member named)
    | error e => exact ⟨trivial, rfl⟩
  | ended outcome =>
    rw [stage] at fenced
    exact ⟨fenced, rfl⟩
  | crashed => exact ⟨trivial, rfl⟩

theorem fenced_onward {t t' : CheckoutTables} {stage : CallStage}
    (later : ∀ plan, stage.plan = some plan → TakenOver t plan.reservationId plan.leaseId →
      TakenOver t' plan.reservationId plan.leaseId) (fenced : Fenced t stage) :
    Fenced t' stage := by
  cases stage with
  | planned plan => exact later plan rfl fenced
  | answered plan result => exact later plan rfl fenced
  | looking => exact fenced
  | inserting => exact fenced
  | retrying => exact fenced
  | ended outcome =>
    cases outcome with
    | ok output => exact fenced
    | error e => trivial
  | crashed => trivial

theorem fenced_crash {t : CheckoutTables} {stage : CallStage} (fenced : Fenced t stage) :
    Fenced t stage.crash := by
  cases stage with
  | ended outcome => exact fenced
  | _ => trivial

def CallFenced (w : CheckoutWorld) (i : Nat) : Prop :=
  ∃ c, w.calls[i]? = some c ∧ Fenced w.tables c.stage

theorem step_fenced {w : CheckoutWorld} {i : Nat} (step : CheckoutStep)
    (kept : WorldKept provider w) (fenced : CallFenced w i) :
    CallFenced (checkoutStep provider w step) i := by
  obtain ⟨c, atI, fenced⟩ := fenced
  have later : Fenced (checkoutStep provider w step).tables c.stage := by
    refine fenced_onward ?_ fenced
    intro plan held takenOver
    exact step_takenOver step
      ((kept.calls c (List.mem_of_getElem? atI)).plan plan held).lease takenOver
  cases step with
  | create settings request binding now =>
    exact ⟨c, (List.getElem?_append_left (List.getElem?_eq_some_iff.1 atI).1).trans atI, fenced⟩
  | serve j env =>
    cases found : w.calls[j]? with
    | none =>
      simp only [checkoutStep, found]
      exact ⟨c, atI, fenced⟩
    | some d =>
      by_cases same : j = i
      · subst same
        obtain rfl := Option.some.inj (found.symm.trans atI)
        obtain ⟨next, unchanged⟩ := advance_fenced provider w.nextLease env fenced
        simp only [checkoutStep, found]
        refine ⟨_, List.getElem?_set_self (List.getElem?_eq_some_iff.1 atI).1, ?_⟩
        rw [unchanged]
        exact next
      · simp only [checkoutStep, found] at later ⊢
        exact ⟨c, (List.getElem?_set_ne same).trans atI, later⟩
  | crash j =>
    cases found : w.calls[j]? with
    | none =>
      simp only [checkoutStep, found]
      exact ⟨c, atI, fenced⟩
    | some d =>
      simp only [checkoutStep, found]
      by_cases same : j = i
      · subst same
        obtain rfl := Option.some.inj (found.symm.trans atI)
        exact ⟨_, List.getElem?_set_self (List.getElem?_eq_some_iff.1 atI).1, fenced_crash fenced⟩
      · exact ⟨c, (List.getElem?_set_ne same).trans atI, fenced⟩
  | orderWriter orderId payment fulfillment intent calendar => exact ⟨c, atI, later⟩
  | tokenWriter tokens => exact ⟨c, atI, later⟩

theorem run_fenced (steps : List CheckoutStep) {w : CheckoutWorld} {i : Nat}
    (kept : WorldKept provider w) (fenced : CallFenced w i) :
    CallFenced (checkoutRun provider steps w) i := by
  induction steps generalizing w with
  | nil => exact fenced
  | cons step rest ih => exact ih (step_kept step kept) (step_fenced step kept fenced)

/-! ## Idempotent checkouts -/

def CheckoutTables.reservationsOf (t : CheckoutTables) (key : Sha256) : List IdempotencyRequest :=
  t.reservations.filter fun a => a.keyHash == key

/-- The orders that the reservations of a key name. -/
def CheckoutTables.ordersOf (t : CheckoutTables) (key : Sha256) : List Order :=
  t.orders.filter fun o => (t.reservationsOf key).any fun a => a.orderId == o.id

/-- A call that has no reservation in hand yet. -/
def CallStage.unreserved : CallStage → Bool
  | .looking | .inserting | .retrying => true
  | _ => false

/-- What the calls with one idempotency key come to, in one state and in all later ones. -/
structure IdempotentCheckout
    (provider : String → HostedCheckoutRequest → HostedCheckoutResult) (w : CheckoutWorld) :
    Prop where
  /-- Each key has one order, each order is of a key, and the provider is asked under one key. -/
  oneOrder : ∀ key, (w.tables.ordersOf key).length ≤ 1
  everyOrder : ∀ o ∈ w.tables.orders, ∃ a ∈ w.tables.reservations, o ∈ w.tables.ordersOf a.keyHash
  oneProviderKey : ∀ key,
    ((w.tables.reservationsOf key).map IdempotencyRequest.providerIdempotencyKey).length ≤ 1
  oneRequest : ∀ c ∈ w.calls, ∀ d ∈ w.calls, c.binding.keySha256 = d.binding.keySha256 →
    ∀ p q, c.stage.plan = some p → d.stage.plan = some q →
      p.providerIdempotencyKey = q.providerIdempotencyKey ∧ p.hosted = q.hosted
  /-- An order keeps the session it was bound to. -/
  oneSession : ∀ rest, ∀ o ∈ w.tables.orders, ∀ s, o.checkoutSessionId = some s →
    ∀ o' ∈ (checkoutRun provider rest w).tables.orders, o'.id = o.id →
      o'.checkoutSessionId = some s
  /-- No reservation is finalized twice, and by the holder of its unexpired lease only. -/
  finalizedOnce : w.finalized.Nodup
  oneHolder : LeasesApart w.calls
  fenced : ∀ (rest : List CheckoutStep) (i : Nat) (c : Call) (p : CheckoutPlan),
    w.calls[i]? = some c → c.stage.plan = some p →
      TakenOver w.tables p.reservationId p.leaseId →
        ∀ d : Call, (checkoutRun provider rest w).calls[i]? = some d → d.stage.output = none
  expired : ∀ (i : Nat) (c : Call) (env : CheckoutEnv) (p : CheckoutPlan)
    (result : HostedCheckoutResult), w.calls[i]? = some c → c.stage = .answered p result →
    (∀ a ∈ w.tables.reservations, a.id = p.reservationId → leaseLive a env.now = false) →
      (checkoutStep provider w (.serve i env)).tables = w.tables ∧
        ∀ d : Call, (checkoutStep provider w (.serve i env)).calls[i]? = some d →
          d.stage.plan = none ∧ d.stage.output = none
  /-- All successes of a key say the same. -/
  sameAnswer : ∀ c ∈ w.calls, ∀ d ∈ w.calls, c.binding.keySha256 = d.binding.keySha256 →
    ∀ x y, c.stage.output = some x → d.stage.output = some y →
      x.orderReference = y.orderReference ∧ x.checkoutUrl = y.checkoutUrl
  /-- A call with another request under the key of a reservation. -/
  conflict : ∀ (i : Nat) (c : Call) (env : CheckoutEnv), ∀ a ∈ w.tables.reservations,
    w.calls[i]? = some c → a.keyHash = c.binding.keySha256 →
    a.requestHash ≠ c.binding.requestSha256 →
      c.stage.plan = none ∧ c.stage.output = none ∧
        (checkoutStep provider w (.serve i env)).tables = w.tables ∧
        (c.stage = .looking ∨ c.stage = .retrying →
          (checkoutStep provider w (.serve i env)).calls[i]? = some
            { c with stage := .ended (.error boundElsewhere) }) ∧
        (c.stage = .inserting →
          (checkoutStep provider w (.serve i env)).calls[i]? = some
            { c with stage := .retrying })
  /-- A call that finds the lease of another live. -/
  liveLease : ∀ (i : Nat) (c : Call) (env : CheckoutEnv), ∀ a ∈ w.tables.reservations,
    w.calls[i]? = some c → c.stage.unreserved = true → a.keyHash = c.binding.keySha256 →
    leaseLive a c.now = true →
      (checkoutStep provider w (.serve i env)).tables = w.tables ∧
        ∀ d : Call, (checkoutStep provider w (.serve i env)).calls[i]? = some d →
          d.stage.plan = none ∧ d.stage.output = none

/-- The lookup by key finds the one reservation of the key. -/
theorem TablesKept.reservation_eq {t : CheckoutTables} (kept : TablesKept provider t)
    {a : IdempotencyRequest} (member : a ∈ t.reservations) : t.reservation a.keyHash = some a :=
  UniqueColumns.find_of_mem kept.keys member

theorem TablesKept.oneReservation {t : CheckoutTables} (kept : TablesKept provider t)
    (key : Sha256) : (t.reservationsOf key).length ≤ 1 := by
  refine UniqueColumns.filter_unique kept.keys ?_
  intro a _ b _ ofA ofB
  exact (eq_of_beq ofA).trans (eq_of_beq ofB).symm

theorem TablesKept.oneOrder {t : CheckoutTables} (kept : TablesKept provider t) (key : Sha256) :
    (t.ordersOf key).length ≤ 1 := by
  refine UniqueColumns.filter_unique kept.orders ?_
  intro o _ p _ ofO ofP
  obtain ⟨a, memberA, ownsO⟩ := List.any_eq_true.1 ofO
  obtain ⟨b, memberB, ownsP⟩ := List.any_eq_true.1 ofP
  obtain ⟨knownA, keyA⟩ := List.mem_filter.1 memberA
  obtain ⟨knownB, keyB⟩ := List.mem_filter.1 memberB
  have same : a = b := List.inj_on_of_nodup_map kept.keys knownA knownB
    ((eq_of_beq keyA).trans (eq_of_beq keyB).symm)
  rw [← eq_of_beq ownsO, ← eq_of_beq ownsP, same]

theorem TablesKept.everyOrder {t : CheckoutTables} (kept : TablesKept provider t) {o : Order}
    (member : o ∈ t.orders) : ∃ a ∈ t.reservations, o ∈ t.ordersOf a.keyHash := by
  obtain ⟨a, known, owner⟩ := kept.owned o member
  refine ⟨a, known, List.mem_filter.2 ⟨member, List.any_eq_true.2 ⟨a, ?_, ?_⟩⟩⟩
  · exact List.mem_filter.2 ⟨known, beq_self_eq_true _⟩
  · exact beq_iff_eq.2 owner

/-- The reservation behind a plan is the one of the call's key. -/
theorem PlanKept.reservation {t : CheckoutTables} (kept : TablesKept provider t) {nextLease : Nat}
    {binding : IdempotencyBinding} {plan : CheckoutPlan} (made : PlanKept t nextLease binding plan)
    {a : IdempotencyRequest} (member : a ∈ t.reservations) (key : a.keyHash = binding.keySha256) :
    a.requestHash = binding.requestSha256 ∧
      ∃ o ∈ t.orders, a.orderId = o.id ∧ plan = makePlan a o plan.leaseId := by
  obtain ⟨⟨b, there, o, known, keyB, request, owner, made⟩, _⟩ := made
  obtain rfl := List.inj_on_of_nodup_map kept.keys there member (keyB.trans key.symm)
  exact ⟨request, o, known, owner, made⟩

theorem OutputKept.reservation {t : CheckoutTables} (kept : TablesKept provider t)
    {binding : IdempotencyBinding} {output : CheckoutOutput} (told : OutputKept t binding output)
    {a : IdempotencyRequest} (member : a ∈ t.reservations) (key : a.keyHash = binding.keySha256) :
    a.requestHash = binding.requestSha256 ∧ ∃ body, a.responseBody = some body ∧
      output.orderReference = body.orderReference ∧ output.checkoutUrl = body.checkoutUrl := by
  obtain ⟨b, there, keyB, request, _, body⟩ := told
  obtain rfl := List.inj_on_of_nodup_map kept.keys there member (keyB.trans key.symm)
  exact ⟨request, body⟩

section Kept

variable {w : CheckoutWorld} (kept : WorldKept provider w)

include kept

theorem oneRequest {c d : Call} (memberC : c ∈ w.calls) (memberD : d ∈ w.calls)
    (same : c.binding.keySha256 = d.binding.keySha256) {p q : CheckoutPlan}
    (holdsP : c.stage.plan = some p) (holdsQ : d.stage.plan = some q) :
    p.providerIdempotencyKey = q.providerIdempotencyKey ∧ p.hosted = q.hosted := by
  have madeQ := (kept.calls d memberD).plan q holdsQ
  obtain ⟨⟨a, member, o, known, key, _, owner, madeP⟩, _⟩ := (kept.calls c memberC).plan p holdsP
  obtain ⟨_, o', known', owner', made'⟩ :=
    madeQ.reservation kept.tables member (key.trans same)
  obtain rfl := List.inj_on_of_nodup_map kept.tables.orders known known' (owner.symm.trans owner')
  rw [madeP, made']
  exact ⟨rfl, rfl⟩

theorem oneSession (rest : List CheckoutStep) {o : Order} (member : o ∈ w.tables.orders)
    {s : String} (bound : o.checkoutSessionId = some s) {o' : Order}
    (later : o' ∈ (checkoutRun provider rest w).tables.orders) (same : o'.id = o.id) :
    o'.checkoutSessionId = some s := by
  obtain ⟨p, there, toP⟩ := (run_onward rest kept).orders o member
  obtain rfl := List.inj_on_of_nodup_map (run_kept rest kept).tables.orders there later
    (toP.id.trans same.symm)
  exact toP.session s bound

theorem sameAnswer {c d : Call} (memberC : c ∈ w.calls) (memberD : d ∈ w.calls)
    (same : c.binding.keySha256 = d.binding.keySha256) {x y : CheckoutOutput}
    (endedX : c.stage.output = some x) (endedY : d.stage.output = some y) :
    x.orderReference = y.orderReference ∧ x.checkoutUrl = y.checkoutUrl := by
  obtain ⟨a, member, key, _, _, body, stored, reference, url⟩ :=
    (kept.calls c memberC).output x endedX
  obtain ⟨_, body', stored', reference', url'⟩ :=
    ((kept.calls d memberD).output y endedY).reservation kept.tables member (key.trans same)
  obtain rfl := Option.some.inj (stored.symm.trans stored')
  exact ⟨reference.trans reference'.symm, url.trans url'.symm⟩

theorem fencedCall (rest : List CheckoutStep) {i : Nat} {c : Call} {p : CheckoutPlan}
    (found : w.calls[i]? = some c) (holds : c.stage.plan = some p)
    (takenOver : TakenOver w.tables p.reservationId p.leaseId) {d : Call}
    (later : (checkoutRun provider rest w).calls[i]? = some d) : d.stage.output = none := by
  have fenced : CallFenced w i := by
    refine ⟨c, found, ?_⟩
    cases stage : c.stage with
    | planned plan =>
      rw [stage] at holds
      cases holds
      exact takenOver
    | answered plan result =>
      rw [stage] at holds
      cases holds
      exact takenOver
    | _ =>
      rw [stage] at holds
      cases holds
  obtain ⟨e, atI, fenced⟩ := run_fenced rest kept fenced
  obtain rfl := Option.some.inj (atI.symm.trans later)
  cases stage : e.stage with
  | ended outcome =>
    cases outcome with
    | ok output =>
      rw [stage] at fenced
      exact fenced.elim
    | error e => rfl
  | _ => rfl

end Kept

variable (provider) in
/-- What a step of call `i` is, in terms of its next stage. -/
theorem serve_eq {w : CheckoutWorld} {i : Nat} {c : Call} (env : CheckoutEnv)
    (found : w.calls[i]? = some c) :
    (checkoutStep provider w (.serve i env)).tables =
        (advance provider c w.nextLease env w.tables).2 ∧
      (checkoutStep provider w (.serve i env)).calls[i]? =
        some { c with stage := (advance provider c w.nextLease env w.tables).1 } := by
  simp only [checkoutStep, found]
  refine ⟨trivial, ?_⟩
  exact List.getElem?_set_self (List.getElem?_eq_some_iff.1 found).1

section Refused

variable {c : Call} {nextLease : Nat} {env : CheckoutEnv} {t : CheckoutTables}

variable (provider) in
/-- A finalization that finds its lease expired fails. -/
theorem advance_expired {p : CheckoutPlan} {result : HostedCheckoutResult}
    (stage : c.stage = .answered p result)
    (expired : ∀ a ∈ t.reservations, a.id = p.reservationId → leaseLive a env.now = false) :
    (advance provider c nextLease env t).2 = t ∧
      (advance provider c nextLease env t).1.plan = none ∧
      (advance provider c nextLease env t).1.output = none := by
  unfold advance
  rw [stage]
  dsimp only
  cases done : finalize c.settings p c.binding result env.now env.rawToken t with
  | ok out =>
    obtain ⟨output, t'⟩ := out
    obtain ⟨a, order, body, known, _, _, _, live, _⟩ := finalize_ok done
    obtain ⟨member, named⟩ := reservationById_mem known
    rw [expired a member named] at live
    cases live
  | error e => exact ⟨rfl, rfl, rfl⟩

/-- The unique column of the keys refuses a second reservation. -/
theorem insertReservation_taken {a : IdempotencyRequest} (member : a ∈ t.reservations)
    (key : a.keyHash = c.binding.keySha256) :
    insertReservation c.settings c.request c.binding env c.now nextLease t = .error .integrity := by
  cases inserted : insertReservation c.settings c.request c.binding env c.now nextLease t with
  | ok out =>
    obtain ⟨plan, t'⟩ := out
    obtain ⟨free, _⟩ := insertReservation_ok inserted
    exact absurd key ((keysFree_apart free).2 a member).2.1
  | error e =>
    simp only [insertReservation] at inserted
    split at inserted
    · cases inserted
    · exact inserted.symm

theorem advance_inserting {a : IdempotencyRequest} (member : a ∈ t.reservations)
    (key : a.keyHash = c.binding.keySha256) (stage : c.stage = .inserting) :
    advance provider c nextLease env t = (.retrying, t) := by
  simp only [advance, stage, insertReservation_taken member key]

theorem advance_conflict {a : IdempotencyRequest}
    (found : t.reservation c.binding.keySha256 = some a)
    (other : a.requestHash ≠ c.binding.requestSha256)
    (stage : c.stage = .looking ∨ c.stage = .retrying) :
    advance provider c nextLease env t = (.ended (.error boundElsewhere), t) := by
  have refused : resumeBound c.settings a c.binding c.now nextLease env.rawToken t =
      .error boundElsewhere := if_pos other
  rcases stage with stage | stage
  · simp only [advance, stage, found, refused, afterResume, boundElsewhere]
  · simp only [advance, stage, found, refused, afterResume, boundElsewhere]

theorem afterResume_error {onIntegrity : CallStage} {e : CheckoutError}
    (quiet : onIntegrity.plan = none ∧ onIntegrity.output = none) :
    (afterResume t onIntegrity (.error e)).2 = t ∧
      (afterResume t onIntegrity (.error e)).1.plan = none ∧
      (afterResume t onIntegrity (.error e)).1.output = none := by
  cases e with
  | integrity => exact ⟨rfl, quiet⟩
  | _ => exact ⟨rfl, rfl, rfl⟩

variable (provider) in
theorem advance_live {a : IdempotencyRequest} (found : t.reservation c.binding.keySha256 = some a)
    (live : leaseLive a c.now = true) (unreserved : c.stage.unreserved = true) :
    (advance provider c nextLease env t).2 = t ∧
      (advance provider c nextLease env t).1.plan = none ∧
      (advance provider c nextLease env t).1.output = none := by
  cases resumed : resumeBound c.settings a c.binding c.now nextLease env.rawToken t with
  | ok out =>
    obtain ⟨out, t'⟩ := out
    have expired := (resumeBound_ok resumed).2.1
    rw [live] at expired
    cases expired
  | error e =>
    obtain ⟨member, key⟩ := reservation_mem found
    cases stage : c.stage with
    | looking =>
      simp only [advance, stage, found, resumed]
      exact afterResume_error ⟨rfl, rfl⟩
    | inserting =>
      rw [advance_inserting member key stage]
      exact ⟨rfl, rfl, rfl⟩
    | retrying =>
      simp only [advance, stage, found, resumed]
      exact afterResume_error ⟨rfl, rfl⟩
    | _ =>
      rw [stage] at unreserved
      cases unreserved

/-- A call whose key is bound to another request never gets a plan or a success. -/
theorem CallKept.boundElsewhere {a : IdempotencyRequest} (call : CallKept provider t nextLease c)
    (tables : TablesKept provider t) (member : a ∈ t.reservations)
    (key : a.keyHash = c.binding.keySha256) (other : a.requestHash ≠ c.binding.requestSha256) :
    c.stage.plan = none ∧ c.stage.output = none := by
  constructor
  · cases held : c.stage.plan with
    | none => rfl
    | some plan => exact absurd ((call.plan plan held).reservation tables member key).1 other
  · cases ended : c.stage.output with
    | none => rfl
    | some output => exact absurd ((call.output output ended).reservation tables member key).1 other

theorem advance_unchanged {a : IdempotencyRequest} (member : a ∈ t.reservations)
    (found : t.reservation c.binding.keySha256 = some a)
    (other : a.requestHash ≠ c.binding.requestSha256) (idle : c.stage.plan = none) :
    (advance provider c nextLease env t).2 = t := by
  cases stage : c.stage with
  | looking => rw [advance_conflict found other (Or.inl stage)]
  | inserting => rw [advance_inserting member (reservation_mem found).2 stage]
  | retrying => rw [advance_conflict found other (Or.inr stage)]
  | planned plan =>
    rw [stage] at idle
    cases idle
  | answered plan result =>
    rw [stage] at idle
    cases idle
  | ended outcome => simp only [advance, stage]
  | crashed => simp only [advance, stage]

end Refused

theorem WorldKept.idempotent {w : CheckoutWorld} (kept : WorldKept provider w) :
    IdempotentCheckout provider w where
  oneOrder := kept.tables.oneOrder
  everyOrder := fun _ member => kept.tables.everyOrder member
  oneProviderKey := by
    intro key
    rw [List.length_map]
    exact kept.tables.oneReservation key
  oneRequest := fun _ memberC _ memberD same _ _ holdsP holdsQ =>
    CheckoutReservations.oneRequest kept memberC memberD same holdsP holdsQ
  oneSession := fun rest _ member _ bound _ later same =>
    CheckoutReservations.oneSession kept rest member bound later same
  finalizedOnce := kept.finalized
  oneHolder := kept.apart
  fenced := fun rest _ _ _ found holds takenOver _ later =>
    fencedCall kept rest found holds takenOver later
  expired := by
    intro i c env p result found stage expired
    obtain ⟨tables, next⟩ := serve_eq provider env found
    obtain ⟨unchanged, idle⟩ := advance_expired provider stage expired
    refine ⟨tables.trans unchanged, ?_⟩
    intro d atI
    obtain rfl := Option.some.inj (next.symm.trans atI)
    exact idle
  sameAnswer := fun _ memberC _ memberD same _ _ endedX endedY =>
    CheckoutReservations.sameAnswer kept memberC memberD same endedX endedY
  conflict := by
    intro i c env a member found key other
    have call := kept.calls c (List.mem_of_getElem? found)
    obtain ⟨idle, silent⟩ := call.boundElsewhere kept.tables member key other
    have known : w.tables.reservation c.binding.keySha256 = some a :=
      key ▸ kept.tables.reservation_eq member
    obtain ⟨tables, next⟩ := serve_eq provider env found
    refine ⟨idle, silent, tables.trans (advance_unchanged member known other idle), ?_, ?_⟩
    · intro stage
      rw [next, advance_conflict known other stage]
    · intro stage
      rw [next, advance_inserting member key stage]
  liveLease := by
    intro i c env a member found unreserved key live
    have known : w.tables.reservation c.binding.keySha256 = some a :=
      key ▸ kept.tables.reservation_eq member
    obtain ⟨tables, next⟩ := serve_eq provider env found
    obtain ⟨unchanged, idle⟩ := advance_live provider known live unreserved
    refine ⟨tables.trans unchanged, ?_⟩
    intro d atI
    obtain rfl := Option.some.inj (next.symm.trans atI)
    exact idle

/-- Creating a checkout is idempotent: whatever calls run, however their transactions
interleave, crash and are taken over, the calls of one key share one order, one provider key,
one session and one answer. -/
theorem checkout_is_idempotent
    (provider : String → HostedCheckoutRequest → HostedCheckoutResult)
    (steps : List CheckoutStep) :
    IdempotentCheckout provider (checkoutRun provider steps emptyTables) :=
  (run_kept steps emptyTables_kept).idempotent

/-! ## A run with a takeover and a replay -/

open VerifiedOrders (sampleOrder sampleTime)

def checkoutSettings : CheckoutSettings where
  checkoutEnabled := true
  paymentMode := .stripeLive
  providerMode := .stripeLive
  stripePriceId := some "price_1"
  checkoutAmountMinor := 500
  checkoutCurrency := "eur"
  checkoutSuccessUrl := none
  checkoutCancelUrl := none
  expectedTermsVersion := "1"
  expectedPrivacyVersion := "1"
  credentialGrace := 60000000
  tokenTtl := 2592000000000
  hashToken raw := ⟨1, raw.toList.map fun c => c.toNat.toUInt8⟩
  validCheckoutUrl _ _ := true

def checkoutRequest : CheckoutInput :=
  ⟨sampleOrder.snapshot.certificateReference, sampleOrder.snapshot.manifestDigest,
    sampleOrder.snapshot.email, "1", "1"⟩

def checkoutBinding : IdempotencyBinding :=
  ⟨⟨List.replicate 32 1, rfl⟩, ⟨List.replicate 32 2, rfl⟩⟩

def checkoutEnv (seconds : Int) (raw : String) : CheckoutEnv where
  now := sampleTime seconds
  reservationId := 1
  orderId := 1
  orderReference := sampleOrder.snapshot.orderReference
  rawToken := raw
  price := some ⟨"price_1", 500, "eur"⟩
  created := true

def sampleProvider (_ : String) (_ : HostedCheckoutRequest) : HostedCheckoutResult :=
  ⟨"cs_live_1", "https://checkout.stripe.com/c/pay/cs_live_1"⟩

/-- The first caller is late with its answer, the second has taken its lease and finalizes, and
the third is told the same after the grace period. -/
def takeoverSteps : List CheckoutStep :=
  [.create checkoutSettings checkoutRequest checkoutBinding (sampleTime 0),
    .serve 0 (checkoutEnv 0 "a"), .serve 0 (checkoutEnv 0 "a"), .serve 0 (checkoutEnv 1 "a"),
    .create checkoutSettings checkoutRequest checkoutBinding (sampleTime 61),
    .serve 1 (checkoutEnv 61 "b"), .serve 1 (checkoutEnv 62 "b"),
    .serve 0 (checkoutEnv 62 "a"),
    .serve 1 (checkoutEnv 63 "b"),
    .create checkoutSettings checkoutRequest checkoutBinding (sampleTime 124),
    .serve 2 (checkoutEnv 124 "c")]

example : (checkoutRun sampleProvider takeoverSteps emptyTables).finalized = [1] ∧
    (checkoutRun sampleProvider takeoverSteps emptyTables).calls.map
        (fun c => c.stage.output.map CheckoutOutput.statusToken) =
      [none, some "b", some "c"] := by
  decide

end CheckoutReservations
