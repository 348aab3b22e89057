import SpacerocksCoa.DeliveryGuard
import SpacerocksCoa.PendingDownload
import SpacerocksCoa.SessionStorage
import SpacerocksCoa.SubmissionTimes

/-!
# The status that the service reports and the browser reads

The status route reads one order with one statement after another and without a lock, so that
other transactions commit in between. The browser refuses what contradicts itself. No answer of
the route is refused: until money is confirmed an order waits, a paid order does not wait, and
no verification is older than the submission.
-/
namespace StatusContract
open OrderStates ProofRecords OrderRows JobClaims FulfillmentAdapters
open FulfillmentHandlers WorkerRuns PaymentWebhooks OrderStateMachine
open CheckoutReservations (HashedToken OrderToken)
open DeliveryGuard (DeliveryArrival deliveryService arriveDelivery validDeliverySender)
open JsonText (Json Text)
open JsonText (units)
open SubmissionTimes (Datetime Timely Follows clocked submitted)
open TransactionalPrograms

variable {N : Type}

/-! ## The route -/

structure StatusServices where
  route : PendingDownload.Route
  store : Bool
  proofStore : Bool
  proofBundler : Bool

/-- What authentication reads: the hash of a well-formed bearer token and the token rows. -/
structure StatusRequest where
  bearer : Option HashedToken
  now : Instant
  tokens : List OrderToken

/-- What each statement of the route sees, and the two dates of the order row. -/
structure Reads where
  order : OrderRecord
  createdAt : Instant
  updatedAt : Instant
  metadata : OrderRecord
  proof : OrderRecord
  verification : OrderRecord
  observation : OrderRecord
  bundle : OrderRecord
  sender : OrderRecord
  boundObservation : OrderRecord
  deliveredEvent : OrderRecord

structure HttpError where
  status : Nat
  detail : String
  deriving DecidableEq

def unauthorized : HttpError := ⟨401, "not authorized"⟩
def serviceUnavailable : HttpError := ⟨503, "service unavailable"⟩
def statusUnavailable : HttpError := ⟨503, "status unavailable"⟩

/-- `authenticate`, without a lock. -/
def authenticate (q : StatusRequest) (order : Order) : Option Order :=
  match q.bearer.bind (TokenRotation.tokenOf q.tokens) with
  | none => none
  | some stored =>
    if TokenRotation.authentic stored q.now = true ∧ stored.orderId = order.id then some order
    else none

/-- `matches_metadata` -/
def matchesMetadata (proof selected : ProofVersion) : Bool :=
  proof.version == selected.version && proof.targetDigest == selected.targetDigest &&
    proof.proofSha256 == selected.proofSha256 &&
    proof.proofBytes.length == selected.proofBytes.length &&
    proof.verificationMetadata.isSome == selected.verificationMetadata.isSome &&
    proof.calendarSubmittedAt == selected.calendarSubmittedAt

/-- Whether the order, as it was loaded, shows the verification of its proof. -/
def projectsVerification (order : Order) : Bool :=
  order.fulfillmentState == .bitcoinVerified || order.fulfillmentState == .delivered

/-- `latest_for_order`: a select chooses the version, and each row is read by its own. -/
def latestForOrder (s : StatusServices) (order : Order) (r : Reads) :
    Except AdapterError (Option (StoredProof Instant)) :=
  match r.metadata.latestProof with
  | none => .ok none
  | some selected =>
    if ¬(1 ≤ selected.proofBytes.length ∧ selected.proofBytes.length ≤ maxProofBytes) then
      .error (.value "stored_proof_metadata_invalid")
    else
      match r.proof.proof selected.version with
      | none => .error (.value "stored_proof_disappeared")
      | some proof =>
        if matchesMetadata proof selected = false then .error (.value "stored_proof_changed")
        else
          let verification := r.verification.verification proof.version
          match ProofStore.checkStored s.route.database
              (storedProof proof order.snapshot.orderReference verification
                (verification.bind fun _ => r.observation.latestObservation proof.version)
                (projectsVerification order)) with
          | .ok stored => .ok (some stored)
          | .error e => .error e

/-- The notice of a delivered order, with the observation and the event that back it. -/
def deliveredSender (order : Order) (version : Nat) (r : Reads) : Bool :=
  (r.sender.message (.milestone ⟨.initialConfirmation, version,
      order.snapshot.orderReference⟩)).any
    (validDeliverySender { r.boundObservation with
      resendEvents := r.deliveredEvent.resendEvents } version)

structure ProofStatus where
  calendarSubmittedAt : Option Instant
  bitcoinVerifiedAt : Option Instant
  proofAvailable : Bool
  deriving DecidableEq

/-- What the route reports of a proof that was read. -/
def proofStatus (s : StatusServices) (order : Order) (r : Reads) (proof : StoredProof Instant) :
    Except HttpError ProofStatus :=
  if order.fulfillmentState = .calendarPending then
    if proof.proofState ≠ .calendarPending ∨ s.proofBundler = false then
      .error statusUnavailable
    else .ok ⟨some proof.calendarSubmittedAt, none, true⟩
  else
    match proof.verification with
    | none => .error statusUnavailable
    | some evidence =>
      let available := (r.bundle.bundle proof.version).any (PendingDownload.validBundle s.route)
      if order.fulfillmentState = .delivered ∧
          (available = false ∨ deliveredSender order proof.version r = false) then
        .error statusUnavailable
      else .ok ⟨some proof.calendarSubmittedAt, some evidence.verifiedAt, available⟩

def proofStates : List FulfillmentState := [.calendarPending, .bitcoinVerified, .delivered]

def orderProof (s : StatusServices) (order : Order) (r : Reads) : Except HttpError ProofStatus :=
  if order.fulfillmentState ∉ proofStates then .ok ⟨none, none, false⟩
  else if s.proofStore = false then .error statusUnavailable
  else
    match latestForOrder s order r with
    | .ok (some proof) => proofStatus s order r proof
    | _ => .error statusUnavailable

/-- `_message_code` -/
def messageCode : FulfillmentState → String
  | .awaitingPayment => "payment_pending"
  | .queued => "timestamp_queued"
  | .stamping => "timestamp_stamping"
  | .calendarPending => "bitcoin_confirmation_pending"
  | .bitcoinVerified => "bitcoin_verified"
  | .delivered => "proof_delivered"
  | .manualReview => "manual_review"

structure OrderStatusResponse where
  orderReference : OrderReference
  certificateReference : CertificateReference
  manifestSha256 : Text
  paymentState : PaymentState
  fulfillmentState : FulfillmentState
  createdAt : Instant
  updatedAt : Instant
  proof : ProofStatus
  messageCode : String
  deriving DecidableEq

def hex (bytes : Bytes) : Text := (HexText.toHex bytes).map Char.toNat

/-- `order_status` -/
def orderStatus (s : StatusServices) (q : StatusRequest) (r : Reads) :
    Except HttpError OrderStatusResponse :=
  if s.store = false then .error serviceUnavailable
  else
    match authenticate q r.order.order with
    | none => .error unauthorized
    | some order =>
      match orderProof s order r with
      | .error e => .error e
      | .ok proof => .ok
        { orderReference := order.snapshot.orderReference
          certificateReference := order.snapshot.certificateReference
          manifestSha256 := hex order.snapshot.manifestDigest.value
          paymentState := order.paymentState
          fulfillmentState := order.fulfillmentState
          createdAt := r.createdAt
          updatedAt := r.updatedAt
          proof := proof
          messageCode := messageCode order.fulfillmentState }

/-! ## The answer as JSON -/

def optionalTime (isoformat : Instant → Text) (key : String) (time : Option Instant) :
    List (Text × Json N) :=
  (time.map fun t => (units key, Json.text (isoformat t))).toList

/-- The fields in their order; what is absent is left out. -/
def OrderStatusResponse.fields (isoformat : Instant → Text) (a : OrderStatusResponse) :
    List (Text × Json N) :=
  [(units "order_reference", Json.text (units a.orderReference.value)),
    (units "certificate_reference", .text (units a.certificateReference.value)),
    (units "manifest_sha256", .text a.manifestSha256),
    (units "payment_state", .text (units a.paymentState.value)),
    (units "fulfillment_state", .text (units a.fulfillmentState.value)),
    (units "created_at", .text (isoformat a.createdAt)),
    (units "updated_at", .text (isoformat a.updatedAt))] ++
  optionalTime isoformat "calendar_submitted_at" a.proof.calendarSubmittedAt ++
  optionalTime isoformat "bitcoin_verified_at" a.proof.bitcoinVerifiedAt ++
  [(units "proof_available", Json.bool a.proof.proofAvailable),
    (units "message_code", .text (units a.messageCode))]

/-! ## The browser -/

/-- A text starts as a template does, in which `d` stands for a digit. -/
def template : Text → Text → Option Text
  | [], s => some s
  | _ :: _, [] => none
  | t :: ts, c :: s =>
    if (if t = 100 then CodeUnits.digit c else c == t) then template ts s else none

/-- `(?:Z|[+-]\d{2}:\d{2})$` -/
def zone (s : Text) : Bool :=
  s == units "Z" || (s.head?.any fun c => c == 43 || c == 45) &&
    template (units "dd:dd") s.tail == some []

/-- `(?:\.\d+)?` and the zone. -/
def fractionZone : Text → Bool
  | 46 :: s => s.head?.any CodeUnits.digit && zone (s.dropWhile CodeUnits.digit)
  | s => zone s

/-- `^\d{4}-\d{2}-\d{2}T\d{2}:\d{2}:\d{2}(?:\.\d+)?(?:Z|[+-]\d{2}:\d{2})$` -/
def dateTimePattern (s : Text) : Bool := (template (units "dddd-dd-ddTdd:dd:dd") s).any fractionZone

/-- `isDateTime`; `Date.parse` gives milliseconds or no finite number. -/
def isDateTime (dateParse : Text → Option Int) (s : Text) : Bool :=
  decide (s.length ≤ 40) && dateTimePattern s && (dateParse s).isSome

/-- `^[a-z0-9_]{1,64}$` -/
def messagePattern (s : Text) : Bool :=
  decide (1 ≤ s.length ∧ s.length ≤ 64) &&
    s.all fun c => CodeUnits.lower c || CodeUnits.digit c || c == 95

def paymentStates : List PaymentState :=
  [.checkoutOpen, .processing, .paid, .failed, .expired, .refunded, .disputed]

def fulfillmentStates : List FulfillmentState :=
  [.awaitingPayment, .queued, .stamping, .calendarPending, .bitcoinVerified, .delivered,
    .manualReview]

def paymentStateOf (s : Text) : Option PaymentState :=
  paymentStates.find? fun state => units state.value == s

def fulfillmentStateOf (s : Text) : Option FulfillmentState :=
  fulfillmentStates.find? fun state => units state.value == s

structure OrderStatus where
  orderReference : Text
  certificateReference : Text
  manifestSha256 : Text
  paymentState : PaymentState
  fulfillmentState : FulfillmentState
  createdAt : Text
  updatedAt : Text
  calendarSubmittedAt : Option Text
  bitcoinVerifiedAt : Option Text
  proofAvailable : Bool
  messageCode : Option Text
  deriving DecidableEq

/-- A property of an object; the object has each key once. -/
def valueOf (fields : List (Text × Json N)) (key : String) : Option (Json N) :=
  (fields.find? fun field => field.1 == units key).map Prod.snd

def textField (fields : List (Text × Json N)) (key : String) (holds : Text → Bool) :
    Option Text :=
  match valueOf fields key with
  | some (.text s) => if holds s then some s else none
  | _ => none

/-- An optional property may be absent; `null` is not absent. -/
def optionalField (fields : List (Text × Json N)) (key : String) (holds : Text → Bool) :
    Option (Option Text) :=
  match valueOf fields key with
  | none => some none
  | some (.text s) => if holds s then some (some s) else none
  | some _ => none

def boolField (fields : List (Text × Json N)) (key : String) : Option Bool :=
  match valueOf fields key with
  | some (.bool b) => some b
  | _ => none

def requiredKeys : List String :=
  ["order_reference", "certificate_reference", "manifest_sha256", "payment_state",
    "fulfillment_state", "created_at", "updated_at", "proof_available"]

def optionalKeys : List String := ["calendar_submitted_at", "bitcoin_verified_at", "message_code"]

def hasExactKeys (fields : List (Text × Json N)) : Bool :=
  requiredKeys.all (fun key => fields.any fun field => field.1 == units key) &&
    fields.all fun field => (requiredKeys ++ optionalKeys).any fun key => field.1 == units key

/-- The check of each field by itself. -/
def statusFields (dateParse : Text → Option Int) (fields : List (Text × Json N)) :
    Option OrderStatus := do
  let orderReference ← textField fields "order_reference" SessionStorage.orderPattern
  let certificateReference ←
    textField fields "certificate_reference" SessionStorage.certificatePattern
  let manifestSha256 ← textField fields "manifest_sha256" CodeUnits.sha256Pattern
  let paymentState ← (textField fields "payment_state" fun _ => true).bind paymentStateOf
  let fulfillmentState ←
    (textField fields "fulfillment_state" fun _ => true).bind fulfillmentStateOf
  let createdAt ← textField fields "created_at" (isDateTime dateParse)
  let updatedAt ← textField fields "updated_at" (isDateTime dateParse)
  let proofAvailable ← boolField fields "proof_available"
  let calendarSubmittedAt ← optionalField fields "calendar_submitted_at" (isDateTime dateParse)
  let bitcoinVerifiedAt ← optionalField fields "bitcoin_verified_at" (isDateTime dateParse)
  let messageCode ← optionalField fields "message_code" messagePattern
  some ⟨orderReference, certificateReference, manifestSha256, paymentState, fulfillmentState,
    createdAt, updatedAt, calendarSubmittedAt, bitcoinVerifiedAt, proofAvailable, messageCode⟩

def prePayment : List PaymentState := [.checkoutOpen, .processing, .failed, .expired]

def proofForbidden : List FulfillmentState := [.awaitingPayment, .queued, .stamping, .manualReview]

def verifiedStates : List FulfillmentState := [.bitcoinVerified, .delivered]

/-- Whether the verification is dated before the submission. -/
def disordered (dateParse : Text → Option Int) (calendar bitcoin : Option Text) : Bool :=
  match calendar.bind dateParse, bitcoin.bind dateParse with
  | some c, some b => b < c
  | _, _ => false

/-- The contradictions, in the order in which they are looked for. -/
def contradiction (dateParse : Text → Option Int) (a : OrderStatus) : Option String :=
  let hasCalendarTime := a.calendarSubmittedAt.isSome
  let hasBitcoinTime := a.bitcoinVerifiedAt.isSome
  if a.paymentState ∈ prePayment ∧ a.fulfillmentState ≠ .awaitingPayment ∧
      a.fulfillmentState ≠ .manualReview then
    some "The timestamp service returned a contradictory payment and fulfillment status."
  else if a.paymentState = .paid ∧ a.fulfillmentState = .awaitingPayment then
    some "The timestamp service returned a contradictory paid status."
  else if a.fulfillmentState ∈ proofForbidden ∧ (hasCalendarTime ∨ hasBitcoinTime) then
    some "The timestamp service returned timestamps for an unfinished fulfillment state."
  else if (a.fulfillmentState = .calendarPending ∨ a.fulfillmentState = .delivered) ∧
      a.proofAvailable = false then
    some "The timestamp service returned a proof-bearing state without an available proof."
  else if a.fulfillmentState ∈ proofForbidden ∧ a.proofAvailable then
    some ("The timestamp service returned an available proof for a state without a " ++
      "downloadable bundle.")
  else if a.fulfillmentState ∉ verifiedStates ∧ hasBitcoinTime then
    some "The timestamp service returned Bitcoin verification time outside a verified state."
  else if a.fulfillmentState = .calendarPending ∧ (hasCalendarTime = false ∨ hasBitcoinTime) then
    some "The timestamp service returned an invalid pending-calendar status."
  else if a.fulfillmentState ∈ verifiedStates ∧
      (hasCalendarTime = false ∨ hasBitcoinTime = false) then
    some "The timestamp service returned an incomplete Bitcoin verification status."
  else if hasBitcoinTime ∧ hasCalendarTime = false then
    some "The timestamp service returned Bitcoin time without calendar submission time."
  else if disordered dateParse a.calendarSubmittedAt a.bitcoinVerifiedAt then
    some "The timestamp service returned timestamps in an invalid order."
  else none

def unexpectedStatus : String := "The timestamp service returned an unexpected order status."
def invalidStatus : String := "The timestamp service returned an invalid order status."

def parseOrderStatus (dateParse : Text → Option Int) : Json N → Except String OrderStatus
  | .object fields =>
    if hasExactKeys fields = false then .error unexpectedStatus
    else
      match statusFields dateParse fields with
      | none => .error invalidStatus
      | some status =>
        match contradiction dateParse status with
        | some message => .error message
        | none => .ok status
  | _ => .error unexpectedStatus

/-! ## A paid order does not wait -/

def Begun (order : Order) : Prop :=
  order.paymentState = .paid → order.fulfillmentState ≠ .awaitingPayment

theorem not_waiting_edge {before after : FulfillmentState} (edge : FulfillmentEdge before after)
    (begun : before ≠ .awaitingPayment) : after ≠ .awaitingPayment := by
  revert edge begun
  cases before <;> cases after <;> decide

theorem begun_move {before after : Order} (move : FulfillmentMove before after)
    (begun : Begun before) : Begun after := by
  intro paid
  rw [move.payment] at paid
  exact not_waiting_edge move.fulfillment (begun paid)

theorem begun_same {before after : Order} (payment : after.paymentState = before.paymentState)
    (fulfillment : after.fulfillmentState = before.fulfillmentState) (begun : Begun before) :
    Begun after :=
  begun_move ⟨payment, Or.inl fulfillment⟩ begun

/-- A payment becomes `paid` in the transaction that queues the order. -/
theorem applyToRecord_begun (event : ProviderEvent) (canonical : CanonicalCheckout)
    (now : Instant) (jobId messageId : Nat) {r : OrderRecord} (begun : Begun r.order) :
    Begun (applyToRecord event canonical now jobId messageId r).order := by
  rcases applyToRecord_states event canonical now jobId messageId r with
    ⟨payment, fulfillment, -⟩ | ⟨-, ⟨-, queued⟩ | ⟨unpaid, -⟩⟩
  · exact begun_same payment fulfillment begun
  · intro _ waiting
    rw [queued] at waiting
    cases waiting
  · exact fun paid => absurd paid unpaid

theorem performPayment_begun (settings : PaymentSettings) (env : PaymentEnv) (q : PaymentRequest)
    {r : OrderRecord} (begun : Begun r.order) :
    Begun (performPayment settings env q r).2.order := by
  exact performPayment_of_events settings env q (fun r => Begun r.order) begun
    (fun _ => begun) fun event checkout _ =>
      applyToRecord_begun event checkout env.now env.jobId env.messageId begun

section
variable (s : Services) (settings : PaymentSettings)

theorem arriveOrder_begun (a : OrderArrival) {w : World} (begun : Begun w.record.order) :
    Begun (arriveOrder s settings w a).1.record.order := by
  refine arriveOrder_of_each s settings a (fun r => Begun r.order) begun
    (fun arriving _ => ?_) (fun env q _ => performPayment_begun settings env q begun)
    fun _ => begun_same rfl rfl begun
  have move := arrive_move s arriving.now w.record arriving.arrival
  exact begun_move move.toFulfillmentMove begun

theorem step_begun (m : Move Env DeliveryArrival) {c : OrderConfig}
    (begun : Begun c.world.record.order) :
    Begun ((deliveryService s settings).step c m).world.record.order := by
  cases m with
  | serve i env =>
    simp only [Service.step]
    split
    · exact begun_move (answer_move s env _ c.world.record) begun
    · exact begun
  | arrive a =>
    cases a with
    | order arrival =>
      simp only [Service.step, deliveryService, arriveDelivery]
      split
      · exact arriveOrder_begun s settings arrival begun
      · exact begun
    | sender arrival => exact begun
  | crash i => exact begun

theorem run_begun (moves : List (Move Env DeliveryArrival)) {c : OrderConfig}
    (begun : Begun c.world.record.order) :
    Begun ((deliveryService s settings).run moves c).world.record.order := by
  induction moves generalizing c with
  | nil => exact begun
  | cons m rest ih => exact ih (step_begun s settings m begun)

end

/-! ## One statement after another -/

/-- A new order: nothing is paid, begun or proven. -/
structure New (r : OrderRecord) : Prop extends Created r where
  proofs : r.proofs = []
  verifications : r.verifications = []
  calendar : r.order.calendarSubmittedAt = none

theorem New.timely {w : World} (new : New w.record) : Timely w := by
  refine ⟨fun t known => ?_, fun p member => ?_, fun v member => ?_⟩
  · rw [submitted, new.calendar] at known
    cases known
  · rw [new.proofs] at member
    cases member
  · rw [new.verifications] at member
    cases member

/-- After how many moves of the service each statement of the route runs. -/
structure Moments where
  order : Nat
  metadata : Nat
  proof : Nat
  verification : Nat
  observation : Nat
  bundle : Nat
  sender : Nat
  boundObservation : Nat
  deliveredEvent : Nat
  ordered : List.Pairwise (· ≤ ·) [order, metadata, proof, verification, observation, bundle,
    sender, boundObservation, deliveredEvent]

def Moments.reads (m : Moments) (createdAt updatedAt : Instant) (after : Nat → OrderRecord) :
    Reads where
  order := after m.order
  createdAt := createdAt
  updatedAt := updatedAt
  metadata := after m.metadata
  proof := after m.proof
  verification := after m.verification
  observation := after m.observation
  bundle := after m.bundle
  sender := after m.sender
  boundObservation := after m.boundObservation
  deliveredEvent := after m.deliveredEvent

/-- What the database shows after the first moves of a run. -/
def recordAfter (s : Services) (settings : PaymentSettings)
    (moves : List (Move Env DeliveryArrival)) (w : World) (count : Nat) : OrderRecord :=
  ((deliveryService s settings).run (moves.take count) ⟨w, []⟩).world.record

/-- What the route may find in the records that it reads. -/
structure Consistent (r : Reads) : Prop where
  legal : LegalState r.order
  begun : Begun r.order.order
  versions : ∀ p ∈ r.proof.proofs, p.verificationMetadata = none ∧ Datetime p.calendarSubmittedAt
  verified : ∀ p ∈ r.proof.proofs, ∀ v ∈ r.verification.verifications,
    p.calendarSubmittedAt ≤ v.verifiedAt ∧ Datetime v.verifiedAt

section
variable {s : Services} {settings : PaymentSettings}

theorem meetsAll_take {moves : List (Move Env DeliveryArrival)} {c : OrderConfig} (count : Nat)
    (meets : clocked.MeetsAll (deliveryService s settings) moves c) :
    clocked.MeetsAll (deliveryService s settings) (moves.take count) c := by
  induction moves generalizing c count with
  | nil =>
    rw [List.take_nil]
    trivial
  | cons m rest ih =>
    cases count with
    | zero => trivial
    | succ count => exact ⟨meets.1, ih count meets.2⟩

end

section
variable {s : Services} {settings : PaymentSettings} {w : World}
  {moves : List (Move Env DeliveryArrival)}

theorem timely_after (new : New w.record)
    (meets : clocked.MeetsAll (deliveryService s settings) moves ⟨w, []⟩) (count : Nat) :
    Timely ((deliveryService s settings).run (moves.take count) ⟨w, []⟩).world :=
  SubmissionTimes.run_timely settings new.timely (meetsAll_take count meets)

theorem coupled_after (new : New w.record) (count : Nat) :
    Coupled (recordAfter s settings moves w count) := by
  have start : Disciplined (deliveryService s settings) stateDiscipline (fun _ _ _ => True)
      (⟨w, []⟩ : OrderConfig) :=
    ⟨fun _ => ⟨new.fulfillment, new.jobs⟩, fun _ none => absurd none List.not_mem_nil⟩
  exact (run_disciplined (DeliveryGuard.deliveryArrivals_safe s settings) start
    (DeliveryGuard.deliveryMeets_any s settings _ _)).inv

/-- Whatever the service does between the statements. -/
theorem consistent_after (new : New w.record)
    (meets : clocked.MeetsAll (deliveryService s settings) moves ⟨w, []⟩) (m : Moments)
    (createdAt updatedAt : Instant) :
    Consistent (m.reads createdAt updatedAt (recordAfter s settings moves w)) := by
  have known : ∀ p ∈ (recordAfter s settings moves w m.proof).proofs, _ :=
    (timely_after new meets m.proof).versions
  have past := (timely_after new meets m.proof).past
  have later : m.proof ≤ m.verification := by
    have ordered := m.ordered
    simp only [List.pairwise_cons, List.mem_cons] at ordered
    exact ordered.2.2.1 _ (Or.inl rfl)
  constructor
  · exact legalState_of_coupled (coupled_after new m.order)
  · refine run_begun s settings _ fun paid => ?_
    rw [new.payment] at paid
    cases paid
  · intro p member
    exact ⟨(known p member).2, (past _ (known p member).1).2⟩
  · intro p member v found
    obtain ⟨⟨t, shown, before⟩, valid⟩ := (timely_after new meets m.verification).verified v found
    have same := (SubmissionTimes.run_follows settings new.timely meets later).submitted _
      (known p member).1
    rw [same] at shown
    cases shown
    exact ⟨before, valid⟩

end

/-! ## What the route answers -/

/-- The three shapes of what is reported of a proof. -/
inductive Shape : FulfillmentState → ProofStatus → Prop where
  | unfinished {state : FulfillmentState} (without : state ∈ proofForbidden) :
    Shape state ⟨none, none, false⟩
  | pending {calendar : Instant} (shown : Datetime calendar) :
    Shape .calendarPending ⟨some calendar, none, true⟩
  | verified {state : FulfillmentState} {calendar bitcoin : Instant} {available : Bool}
    (after : state ∈ verifiedStates) (calendarShown : Datetime calendar)
    (bitcoinShown : Datetime bitcoin) (ordered : calendar ≤ bitcoin)
    (delivered : state = .delivered → available = true) :
    Shape state ⟨some calendar, some bitcoin, available⟩

/-- The proof that is read is a stored version, and its verification a stored row. -/
theorem latestForOrder_dated {s : StatusServices} {order : Order} {r : Reads}
    {stored : StoredProof Instant} (consistent : Consistent r)
    (read : latestForOrder s order r = .ok (some stored)) :
    Datetime stored.calendarSubmittedAt ∧ ∀ e, stored.verification = some e →
      stored.calendarSubmittedAt ≤ e.verifiedAt ∧ Datetime e.verifiedAt := by
  unfold latestForOrder at read
  split at read
  · cases read
  · next selected chosen =>
    split at read
    · cases read
    · split at read
      · cases read
      · next proof found =>
        have member : proof ∈ r.proof.proofs := List.mem_of_find?_eq_some found
        obtain ⟨bare, dated⟩ := consistent.versions proof member
        split at read
        · cases read
        · simp only at read
          split at read
          · next made =>
            cases read
            cases PendingDownload.checkStored_same made
            refine ⟨dated, fun e shown => ?_⟩
            simp only [storedProof] at shown
            split at shown
            · split at shown
              · next v _ separate _ =>
                cases shown
                exact consistent.verified proof member v (List.mem_of_find?_eq_some separate)
              · rw [bare] at shown
                cases shown
            · cases shown
          · cases read

theorem orderProof_shape {s : StatusServices} {order : Order} {r : Reads} {proof : ProofStatus}
    (consistent : Consistent r) (answered : orderProof s order r = .ok proof) :
    Shape order.fulfillmentState proof := by
  unfold orderProof at answered
  split at answered
  · next outside =>
    cases answered
    refine .unfinished ?_
    revert outside
    cases order.fulfillmentState <;> decide
  · next inside =>
    split at answered
    · cases answered
    · split at answered
      · next stored read =>
        obtain ⟨dated, verified⟩ := latestForOrder_dated consistent read
        unfold proofStatus at answered
        split at answered
        · next pending =>
          split at answered
          · cases answered
          · cases answered
            rw [pending]
            exact .pending dated
        · next notPending =>
          split at answered
          · cases answered
          · next evidence shown =>
            simp only at answered
            split at answered
            · cases answered
            · next deliverable =>
              cases answered
              obtain ⟨ordered, bitcoin⟩ := verified evidence shown
              refine .verified ?_ dated bitcoin ordered fun delivered => ?_
              · revert inside notPending
                cases order.fulfillmentState <;> decide
              · by_contra missing
                exact deliverable ⟨delivered, Or.inl (Bool.not_eq_true _ ▸ missing)⟩
      · cases answered

/-- What an answer says, before it becomes JSON. -/
structure Sound (a : OrderStatusResponse) : Prop where
  waiting : a.paymentState ∈ prePayment →
    a.fulfillmentState = .awaitingPayment ∨ a.fulfillmentState = .manualReview
  begun : a.paymentState = .paid → a.fulfillmentState ≠ .awaitingPayment
  manifest : ∃ digest : ManifestDigest, a.manifestSha256 = hex digest.value
  message : a.messageCode = messageCode a.fulfillmentState
  shape : Shape a.fulfillmentState a.proof

theorem prePayment_unsettled {payment : PaymentState} (unpaid : payment ∈ prePayment) :
    ¬Settled payment := by
  revert unpaid
  cases payment <;> decide

theorem orderStatus_sound {s : StatusServices} {q : StatusRequest} {r : Reads}
    {a : OrderStatusResponse} (consistent : Consistent r) (answered : orderStatus s q r = .ok a) :
    Sound a ∧ a.createdAt = r.createdAt ∧ a.updatedAt = r.updatedAt := by
  unfold orderStatus at answered
  split at answered
  · cases answered
  · split at answered
    · cases answered
    · next order authenticated =>
      have loaded : order = r.order.order := by
        unfold authenticate at authenticated
        split at authenticated
        · cases authenticated
        · split at authenticated
          · exact (Option.some.inj authenticated).symm
          · cases authenticated
      split at answered
      · cases answered
      · next proof reported =>
        cases answered
        refine ⟨⟨fun unpaid => ?_, ?_, ⟨_, rfl⟩, rfl, orderProof_shape consistent reported⟩,
          rfl, rfl⟩
        · by_contra working
          obtain ⟨begun, unreviewed⟩ := not_or.1 working
          rw [loaded] at begun unreviewed unpaid
          exact prePayment_unsettled unpaid (consistent.legal.worked begun unreviewed)
        · rw [loaded]
          exact consistent.begun

/-! ## What the browser finds -/

/-- What is relied on in a datetime's text and in `Date.parse`: the text is of the browser's
form and of at most 40 characters, and a later instant is not read as an earlier one. -/
structure ShowsInstants (isoformat : Instant → Text) (dateParse : Text → Option Int) : Prop where
  pattern : ∀ t, Datetime t → dateTimePattern (isoformat t) = true
  short : ∀ t, Datetime t → (isoformat t).length ≤ 40
  parsed : ∀ t, Datetime t → (dateParse (isoformat t)).isSome = true
  ordered : ∀ t u, Datetime t → Datetime u → t ≤ u →
    ∀ a ∈ dateParse (isoformat t), ∀ b ∈ dateParse (isoformat u), a ≤ b

/-- The browser's record of an answer. -/
def OrderStatusResponse.shown (isoformat : Instant → Text) (a : OrderStatusResponse) :
    OrderStatus where
  orderReference := units a.orderReference.value
  certificateReference := units a.certificateReference.value
  manifestSha256 := a.manifestSha256
  paymentState := a.paymentState
  fulfillmentState := a.fulfillmentState
  createdAt := isoformat a.createdAt
  updatedAt := isoformat a.updatedAt
  calendarSubmittedAt := a.proof.calendarSubmittedAt.map isoformat
  bitcoinVerifiedAt := a.proof.bitcoinVerifiedAt.map isoformat
  proofAvailable := a.proof.proofAvailable
  messageCode := some (units a.messageCode)

section
variable (isoformat : Instant → Text)

theorem valueOf_calendar (a : OrderStatusResponse) :
    valueOf (N := N) (a.fields isoformat) "calendar_submitted_at" =
      a.proof.calendarSubmittedAt.map fun t => .text (isoformat t) := by
  obtain ⟨_, _, _, _, _, _, _, ⟨calendar, bitcoin, _⟩, _⟩ := a
  cases calendar <;> cases bitcoin <;> rfl

theorem valueOf_bitcoin (a : OrderStatusResponse) :
    valueOf (N := N) (a.fields isoformat) "bitcoin_verified_at" =
      a.proof.bitcoinVerifiedAt.map fun t => .text (isoformat t) := by
  obtain ⟨_, _, _, _, _, _, _, ⟨calendar, bitcoin, _⟩, _⟩ := a
  cases calendar <;> cases bitcoin <;> rfl

theorem valueOf_available (a : OrderStatusResponse) :
    valueOf (N := N) (a.fields isoformat) "proof_available" =
      some (.bool a.proof.proofAvailable) := by
  obtain ⟨_, _, _, _, _, _, _, ⟨calendar, bitcoin, _⟩, _⟩ := a
  cases calendar <;> cases bitcoin <;> rfl

theorem valueOf_message (a : OrderStatusResponse) :
    valueOf (N := N) (a.fields isoformat) "message_code" = some (.text (units a.messageCode)) := by
  obtain ⟨_, _, _, _, _, _, _, ⟨calendar, bitcoin, _⟩, _⟩ := a
  cases calendar <;> cases bitcoin <;> rfl

theorem fields_exact (a : OrderStatusResponse) :
    hasExactKeys (N := N) (a.fields isoformat) = true := by
  obtain ⟨_, _, _, _, _, _, _, ⟨calendar, bitcoin, _⟩, _⟩ := a
  cases calendar <;> cases bitcoin <;> rfl

end

section
variable {fields : List (Text × Json N)} {key : String} {holds : Text → Bool} {s : Text}

theorem textField_text (value : valueOf fields key = some (.text s)) (valid : holds s = true) :
    textField fields key holds = some s := by
  simp only [textField, value, valid, if_true]

theorem optionalField_text (value : valueOf fields key = some (.text s))
    (valid : holds s = true) : optionalField fields key holds = some (some s) := by
  simp only [optionalField, value, valid, if_true]

/-- An optional instant that is shown, or left out. -/
theorem optionalField_time {isoformat : Instant → Text} {time : Option Instant}
    (value : valueOf fields key = time.map fun t => .text (isoformat t))
    (valid : ∀ t ∈ time, holds (isoformat t) = true) :
    optionalField fields key holds = some (time.map isoformat) := by
  cases time with
  | none => simp only [optionalField, value, Option.map_none]
  | some t => exact optionalField_text value (valid t rfl)

end

/-! ### Patterns -/

theorem char_le {a c : Char} (le : a ≤ c) : a.toNat ≤ c.toNat := le

theorem crockford_orderChar {c : Char} (valid : crockford c = true) :
    SessionStorage.orderChar c.toNat = true := by
  simp only [crockford, Bool.or_eq_true, Bool.and_eq_true, decide_eq_true_eq, beq_iff_eq] at valid
  simp only [SessionStorage.orderChar, CodeUnits.digit, CodeUnits.upper,
    Bool.or_eq_true, Bool.and_eq_true, decide_eq_true_eq, bne_iff_ne]
  have between : ∀ {a b : Char}, a ≤ c ∧ c ≤ b → a.toNat ≤ c.toNat ∧ c.toNat ≤ b.toNat :=
    fun h => ⟨char_le h.1, char_le h.2⟩
  rcases valid with ((((((digit | early) | j) | k) | m) | n) | middle) | late
  · exact Or.inl (between digit)
  · have := between early
    simp only [show 'A'.toNat = 65 from rfl, show 'H'.toNat = 72 from rfl] at this
    omega
  · rw [j]
    decide
  · rw [k]
    decide
  · rw [m]
    decide
  · rw [n]
    decide
  · have := between middle
    simp only [show 'P'.toNat = 80 from rfl, show 'T'.toNat = 84 from rfl] at this
    omega
  · have := between late
    simp only [show 'V'.toNat = 86 from rfl, show 'Z'.toNat = 90 from rfl] at this
    omega

theorem orderChar_ascii {c : Nat} (valid : SessionStorage.orderChar c = true) : c < 128 := by
  simp only [SessionStorage.orderChar, CodeUnits.digit, CodeUnits.upper, Bool.or_eq_true,
    Bool.and_eq_true, decide_eq_true_eq] at valid
  omega

theorem order_accepted (reference : OrderReference) :
    SessionStorage.orderPattern (units reference.value) = true := by
  have valid := reference.valid
  unfold orderReferencePattern at valid
  split at valid
  · next rest shape =>
    rw [Bool.and_eq_true, decide_eq_true_eq, List.all_eq_true] at valid
    have ascii : ∀ c ∈ reference.value.toList, c.toNat < 128 := by
      intro c member
      rw [shape, List.mem_cons, List.mem_cons, List.mem_cons] at member
      rcases member with rfl | rfl | rfl | inside
      · decide
      · decide
      · decide
      · exact orderChar_ascii (crockford_orderChar (valid.2 c inside))
    have text : units reference.value = units "ts_" ++ rest.map Char.toNat := by
      rw [JsonText.units_ascii ascii, shape]
      rfl
    have start : SessionStorage.after (units "ts_") (units "ts_" ++ rest.map Char.toNat) =
        some (rest.map Char.toNat) := rfl
    rw [SessionStorage.orderPattern, text, start]
    simp only [Option.any_some, List.length_map, valid.1, beq_self_eq_true, Bool.true_and,
      List.all_eq_true, List.mem_map]
    rintro _ ⟨c, member, rfl⟩
    exact crockford_orderChar (valid.2 c member)
  · cases valid

theorem alphanumeric_unit {c : Char} (valid : OrderStates.alphanumeric c = true) :
    CodeUnits.alphanumeric c.toNat = true := by
  simp only [OrderStates.alphanumeric, Bool.or_eq_true, Bool.and_eq_true,
    decide_eq_true_eq] at valid
  simp only [CodeUnits.alphanumeric, CodeUnits.digit, CodeUnits.letter, CodeUnits.upper,
    CodeUnits.lower, Bool.or_eq_true, Bool.and_eq_true, decide_eq_true_eq]
  rcases valid with (upper | lower) | digit
  · exact Or.inr (Or.inl ⟨char_le upper.1, char_le upper.2⟩)
  · exact Or.inr (Or.inr ⟨char_le lower.1, char_le lower.2⟩)
  · exact Or.inl ⟨char_le digit.1, char_le digit.2⟩

theorem certificateChar_unit {c : Char}
    (valid : (OrderStates.alphanumeric c || ['.', '_', ':', '/', '-'].contains c) = true) :
    SessionStorage.certificateChar c.toNat = true := by
  rw [Bool.or_eq_true] at valid
  rcases valid with plain | mark
  · rw [SessionStorage.certificateChar, alphanumeric_unit plain, Bool.true_or]
  · rw [List.contains_iff_mem] at mark
    simp only [List.mem_cons, List.not_mem_nil, or_false] at mark
    rcases mark with rfl | rfl | rfl | rfl | rfl <;> decide

theorem certificateChar_ascii {c : Nat} (valid : SessionStorage.certificateChar c = true) :
    c < 128 := by
  have marks : units "._:-/" = [46, 95, 58, 45, 47] := by decide
  simp only [SessionStorage.certificateChar, marks, Bool.or_eq_true, CodeUnits.alphanumeric_iff,
    List.contains_iff_mem, List.mem_cons, List.not_mem_nil, or_false] at valid
  omega

theorem certificate_accepted (reference : CertificateReference) :
    SessionStorage.certificatePattern (units reference.value) = true := by
  have valid := reference.valid
  unfold OrderStates.certificatePattern at valid
  split at valid
  · cases valid
  · next c rest shape =>
    rw [Bool.and_eq_true, Bool.and_eq_true, decide_eq_true_eq, List.all_eq_true] at valid
    obtain ⟨⟨first, short⟩, others⟩ := valid
    have start := alphanumeric_unit first
    have initial : SessionStorage.certificateChar c.toNat = true := by
      rw [SessionStorage.certificateChar, start, Bool.true_or]
    have ascii : ∀ d ∈ reference.value.toList, d.toNat < 128 := by
      intro d member
      rw [shape, List.mem_cons] at member
      rcases member with rfl | inside
      · exact certificateChar_ascii initial
      · exact certificateChar_ascii (certificateChar_unit (others d inside))
    have text : units reference.value = c.toNat :: rest.map Char.toNat := by
      rw [JsonText.units_ascii ascii, shape, List.map_cons]
    rw [SessionStorage.certificatePattern, text]
    simp only [List.head?_cons, Option.any_some, List.length_cons, List.length_map, start,
      Bool.true_and, Bool.and_eq_true, decide_eq_true_eq, List.all_eq_true, List.mem_cons,
      List.mem_map]
    refine ⟨by omega, ?_⟩
    rintro _ (rfl | ⟨d, member, rfl⟩)
    · exact initial
    · exact certificateChar_unit (others d member)

theorem lowerHex_unit {c : Char} (valid : HexText.lowerHex c = true) :
    (CodeUnits.digit c.toNat || (97 ≤ c.toNat && c.toNat ≤ 102)) = true := by
  simp only [HexText.lowerHex, Bool.or_eq_true, Bool.and_eq_true, decide_eq_true_eq] at valid
  simp only [CodeUnits.digit, Bool.or_eq_true, Bool.and_eq_true, decide_eq_true_eq]
  rcases valid with digit | letter
  · exact Or.inl ⟨char_le digit.1, char_le digit.2⟩
  · exact Or.inr ⟨char_le letter.1, char_le letter.2⟩

theorem hex_accepted (digest : ManifestDigest) :
    CodeUnits.sha256Pattern (hex digest.value) = true := by
  have lower := List.all_eq_true.1 (HexText.toHex_lowerHex digest.value)
  have length : (hex digest.value).length = 64 := by
    rw [hex, List.length_map, HexText.toHex_length, digest.length]
  rw [CodeUnits.sha256Pattern, length, beq_self_eq_true, Bool.true_and, List.all_eq_true]
  intro unit member
  obtain ⟨c, found, rfl⟩ := List.mem_map.1 member
  exact lowerHex_unit (lower c found)

theorem message_accepted (state : FulfillmentState) :
    messagePattern (units (messageCode state)) = true := by
  cases state <;> decide

theorem paymentStateOf_value (state : PaymentState) :
    paymentStateOf (units state.value) = some state := by
  cases state <;> rfl

theorem fulfillmentStateOf_value (state : FulfillmentState) :
    fulfillmentStateOf (units state.value) = some state := by
  cases state <;> rfl

theorem disordered_none (dateParse : Text → Option Int) (calendar : Option Text) :
    disordered dateParse calendar none = false := by
  unfold disordered
  split
  · next impossible => cases impossible
  · rfl

section
variable {isoformat : Instant → Text} {dateParse : Text → Option Int}
  (shows : ShowsInstants isoformat dateParse)
include shows

theorem time_accepted {t : Instant} (shown : Datetime t) :
    isDateTime dateParse (isoformat t) = true := by
  simp only [isDateTime, shows.pattern t shown, shows.parsed t shown, shows.short t shown,
    decide_true, Bool.and_true]

theorem shape_times {state : FulfillmentState} {proof : ProofStatus} (shape : Shape state proof) :
    (∀ t ∈ proof.calendarSubmittedAt, isDateTime dateParse (isoformat t) = true) ∧
      ∀ t ∈ proof.bitcoinVerifiedAt, isDateTime dateParse (isoformat t) = true := by
  cases shape with
  | unfinished without =>
    exact ⟨fun t none => absurd none (Option.not_mem_none t),
      fun t none => absurd none (Option.not_mem_none t)⟩
  | pending shown =>
    refine ⟨fun t same => ?_, fun t none => absurd none (Option.not_mem_none t)⟩
    cases same
    exact time_accepted shows shown
  | verified after calendarShown bitcoinShown ordered delivered =>
    refine ⟨fun t same => ?_, fun t same => ?_⟩
    · cases same
      exact time_accepted shows calendarShown
    · cases same
      exact time_accepted shows bitcoinShown

/-- Each field passes its own check. -/
theorem fields_accepted {a : OrderStatusResponse} (sound : Sound a)
    (created : Datetime a.createdAt) (updated : Datetime a.updatedAt) :
    statusFields dateParse (a.fields isoformat : List (Text × Json N)) =
      some (a.shown isoformat) := by
  obtain ⟨digest, manifest⟩ := sound.manifest
  obtain ⟨calendar, bitcoin⟩ := shape_times shows sound.shape
  have reference : textField (a.fields isoformat : List (Text × Json N)) "order_reference"
      SessionStorage.orderPattern = some (units a.orderReference.value) :=
    textField_text rfl (order_accepted a.orderReference)
  have certificate : textField (a.fields isoformat : List (Text × Json N))
      "certificate_reference" SessionStorage.certificatePattern =
        some (units a.certificateReference.value) :=
    textField_text rfl (certificate_accepted a.certificateReference)
  have sha256 : textField (a.fields isoformat : List (Text × Json N)) "manifest_sha256"
      CodeUnits.sha256Pattern = some a.manifestSha256 :=
    textField_text rfl (manifest ▸ hex_accepted digest)
  have payment : textField (a.fields isoformat : List (Text × Json N)) "payment_state"
      (fun _ => true) = some (units a.paymentState.value) := textField_text rfl rfl
  have fulfillment : textField (a.fields isoformat : List (Text × Json N)) "fulfillment_state"
      (fun _ => true) = some (units a.fulfillmentState.value) := textField_text rfl rfl
  have createdAt : textField (a.fields isoformat : List (Text × Json N)) "created_at"
      (isDateTime dateParse) = some (isoformat a.createdAt) :=
    textField_text rfl (time_accepted shows created)
  have updatedAt : textField (a.fields isoformat : List (Text × Json N)) "updated_at"
      (isDateTime dateParse) = some (isoformat a.updatedAt) :=
    textField_text rfl (time_accepted shows updated)
  have available : boolField (a.fields isoformat : List (Text × Json N)) "proof_available" =
      some a.proof.proofAvailable := by
    rw [boolField, valueOf_available]
  have message : optionalField (a.fields isoformat : List (Text × Json N)) "message_code"
      messagePattern = some (some (units a.messageCode)) :=
    optionalField_text (valueOf_message isoformat a)
      (sound.message ▸ message_accepted a.fulfillmentState)
  simp only [statusFields, reference, certificate, sha256, payment, fulfillment, createdAt,
    updatedAt, available, message, optionalField_time (valueOf_calendar isoformat a) calendar,
    optionalField_time (valueOf_bitcoin isoformat a) bitcoin, Option.bind_some,
    paymentStateOf_value, fulfillmentStateOf_value, Option.bind_eq_bind]
  rfl

theorem dates_ordered {calendar bitcoin : Instant} (first : Datetime calendar)
    (second : Datetime bitcoin) (ordered : calendar ≤ bitcoin) :
    disordered dateParse (some (isoformat calendar)) (some (isoformat bitcoin)) = false := by
  have read := shows.ordered calendar bitcoin first second ordered
  simp only [disordered, Option.bind_some]
  cases early : dateParse (isoformat calendar) with
  | none => rfl
  | some c =>
    cases late : dateParse (isoformat bitcoin) with
    | none => rfl
    | some b => exact decide_eq_false (not_lt.2 (read c early b late))

/-- Nothing in an answer contradicts anything else. -/
theorem no_contradiction {a : OrderStatusResponse} (sound : Sound a) :
    contradiction dateParse (a.shown isoformat) = none := by
  have pay : ¬((a.shown isoformat).paymentState ∈ prePayment ∧
      (a.shown isoformat).fulfillmentState ≠ .awaitingPayment ∧
      (a.shown isoformat).fulfillmentState ≠ .manualReview) := by
    rintro ⟨unpaid, begun, working⟩
    exact (sound.waiting unpaid).elim begun working
  have queued : ¬((a.shown isoformat).paymentState = .paid ∧
      (a.shown isoformat).fulfillmentState = .awaitingPayment) :=
    fun both => sound.begun both.1 both.2
  have shape := sound.shape
  simp only [contradiction]
  rw [if_neg pay, if_neg queued]
  clear pay queued sound
  obtain ⟨reference, certificate, sha256, payment, fulfillment, createdAt, updatedAt, proof,
    message⟩ := a
  simp only [OrderStatusResponse.shown] at shape ⊢
  cases shape with
  | unfinished without =>
    obtain ⟨notPending, notDelivered, unverified⟩ : fulfillment ≠ .calendarPending ∧
        fulfillment ≠ .delivered ∧ fulfillment ∉ verifiedStates := by
      revert without
      cases fulfillment <;> decide
    simp only [Option.map_none, Option.isSome_none, Bool.false_eq_true, or_self, and_false,
      false_and, unverified, notPending, notDelivered, disordered_none, if_false]
  | pending shown =>
    have allowed : FulfillmentState.calendarPending ∉ proofForbidden := by decide
    have unverified : FulfillmentState.calendarPending ∉ verifiedStates := by decide
    simp only [Option.map_some, Option.map_none, Option.isSome_some, Option.isSome_none, allowed,
      unverified, disordered_none, Bool.true_eq_false, Bool.false_eq_true, false_and, and_false,
      or_self, if_false]
  | verified after calendarShown bitcoinShown ordered delivered =>
    have dates := dates_ordered shows calendarShown bitcoinShown ordered
    obtain ⟨allowed, notPending⟩ : fulfillment ∉ proofForbidden ∧
        fulfillment ≠ .calendarPending := by
      revert after
      cases fulfillment <;> decide
    have bundled : ¬(fulfillment = .delivered ∧ _ = false) := fun both =>
      Bool.false_ne_true (both.2.symm.trans (delivered both.1))
    simp only [Option.map_some, Option.isSome_some, allowed, notPending, after, dates,
      false_and, false_or, bundled, not_true_eq_false, Bool.true_eq_false, or_self, and_false,
      Bool.false_eq_true, if_false]

end

/-! ## The contract -/

/-- Whatever the service does from a new order on, and however its transactions come between the
statements of the status route: an answer of the route is accepted, and shows what it says. -/
theorem status_contract (s : Services) (settings : PaymentSettings) (services : StatusServices)
    {isoformat : Instant → Text} {dateParse : Text → Option Int}
    (shows : ShowsInstants isoformat dateParse) {w : World} (new : New w.record)
    {moves : List (Move Env DeliveryArrival)}
    (meets : clocked.MeetsAll (deliveryService s settings) moves ⟨w, []⟩) (m : Moments)
    {createdAt updatedAt : Instant} (created : Datetime createdAt) (updated : Datetime updatedAt)
    (q : StatusRequest) {a : OrderStatusResponse}
    (answered : orderStatus services q
      (m.reads createdAt updatedAt (recordAfter s settings moves w)) = .ok a) :
    parseOrderStatus dateParse (.object (a.fields isoformat) : Json N) =
      .ok (a.shown isoformat) := by
  have consistent := consistent_after new meets m createdAt updatedAt
  obtain ⟨sound, first, last⟩ := orderStatus_sound consistent answered
  have accepted : statusFields dateParse (a.fields isoformat : List (Text × Json N)) =
      some (a.shown isoformat) :=
    fields_accepted shows sound (first ▸ created) (last ▸ updated)
  simp only [parseOrderStatus, fields_exact, accepted, no_contradiction shows sound,
    Bool.true_eq_false, if_false]

/-! ## A delivered order -/

open VerifiedOrders (sampleTime sampleEnv sampleDigest)
open PendingDownload (sampleRoute linkToken)
open DeliveryGuard (deliveringServices checkoutToDelivery workerMove)

def sampleStatusServices : StatusServices := ⟨sampleRoute, true, true, true⟩

def sampleRequest : StatusRequest :=
  ⟨some linkToken, sampleTime 11, [⟨1, 1, linkToken, none, sampleTime 100, sampleTime 0⟩]⟩

/-- The order is created in the first second and changed in the tenth; the route reads it when
its notice is delivered. -/
def sampleReads : Reads :=
  Moments.reads ⟨51, 51, 51, 51, 51, 51, 51, 51, 51, by decide⟩ (sampleTime 0) (sampleTime 10)
    (recordAfter deliveringServices sampleSettings checkoutToDelivery
      ⟨createdRecord, sampleTime 0, 100⟩)

def sampleAnswer : OrderStatusResponse where
  orderReference := createdRecord.order.snapshot.orderReference
  certificateReference := createdRecord.order.snapshot.certificateReference
  manifestSha256 := hex sampleDigest.value
  paymentState := .paid
  fulfillmentState := .delivered
  createdAt := sampleTime 0
  updatedAt := sampleTime 10
  proof := ⟨some (sampleTime 3), some (sampleTime 5), true⟩
  messageCode := "proof_delivered"

/-- How many of the instants that the sample shows are past. -/
def sampleMark (t : Instant) : Nat :=
  [0, 3, 5, 10].countP fun seconds => decide (sampleTime seconds ≤ t)

def sampleText (mark : Nat) : Text :=
  units (["0001-01-01T00:00:00Z", "2026-01-01T00:00:00Z", "2026-01-01T00:00:03Z",
    "2026-01-01T00:00:05Z", "2026-01-01T00:00:10Z"].getD mark "")

def sampleMillis (mark : Nat) : Int :=
  [-62135596800000, 1767225600000, 1767225603000, 1767225605000, 1767225610000].getD mark 0

/-- Exact at the instants that the sample shows. -/
def sampleIso (t : Instant) : Text := sampleText (sampleMark t)

def sampleParse (s : Text) : Option Int :=
  ((List.range 5).find? fun mark => sampleText mark == s).map sampleMillis

theorem sampleMark_mono {t u : Instant} (le : t ≤ u) : sampleMark t ≤ sampleMark u :=
  List.countP_mono_left fun _ _ past => decide_eq_true ((of_decide_eq_true past).trans le)

theorem sampleMark_small (t : Instant) : sampleMark t < 5 :=
  Nat.lt_succ_of_le List.countP_le_length

theorem sampleParse_text : ∀ mark < 5,
    sampleParse (sampleText mark) = some (sampleMillis mark) := by decide

theorem sample_shows : ShowsInstants sampleIso sampleParse := by
  have patterns : ∀ mark < 5, dateTimePattern (sampleText mark) = true := by decide
  have lengths : ∀ mark < 5, (sampleText mark).length ≤ 40 := by decide
  have rising : ∀ j < 5, ∀ i ≤ j, sampleMillis i ≤ sampleMillis j := by decide
  refine ⟨fun t _ => patterns _ (sampleMark_small t), fun t _ => lengths _ (sampleMark_small t),
    fun t _ => ?_, fun t u _ _ le a first b second => ?_⟩
  · rw [sampleIso, sampleParse_text _ (sampleMark_small t)]
    rfl
  · rw [sampleIso, sampleParse_text _ (sampleMark_small _)] at first second
    cases first
    cases second
    exact rising _ (sampleMark_small u) _ (sampleMark_mono le)

/-- Requests that are answered later than the clock shows. -/
theorem meets_serves {run count freshId : Nat} {seconds : Int} {bytes : Bytes}
    {rest : List (Move Env DeliveryArrival)} {c : OrderConfig}
    (dated : Datetime (sampleTime seconds))
    (before : c.world.clock ≤ sampleTime seconds)
    (next : ∀ c' : OrderConfig, c'.world.clock ≤ sampleTime seconds →
      clocked.MeetsAll (deliveryService deliveringServices sampleSettings) rest c') :
    clocked.MeetsAll (deliveryService deliveringServices sampleSettings)
      (List.replicate count (Move.serve run (sampleEnv seconds freshId bytes)) ++ rest) c := by
  induction count generalizing c with
  | zero => exact next c before
  | succ count ih =>
    refine ⟨?_, ih ?_⟩
    · simp only [StepCondition.Meets]
      split
      · refine ⟨before, ?_, ?_⟩
        · rintro _ ⟨⟩
          exact ⟨le_rfl, dated⟩
        · rintro _ ⟨⟩
          exact ⟨before, dated⟩
      · trivial
    · simp only [Service.step]
      split
      · exact le_rfl
      · exact before

theorem meets_worker {seconds : Int} {arrival : Arrival} {rest : List (Move Env DeliveryArrival)}
    {c : OrderConfig} (before : c.world.clock ≤ sampleTime seconds)
    (next : ∀ c' : OrderConfig, c'.world.clock ≤ sampleTime seconds →
      clocked.MeetsAll (deliveryService deliveringServices sampleSettings) rest c') :
    clocked.MeetsAll (deliveryService deliveringServices sampleSettings)
      (workerMove seconds arrival :: rest) c :=
  ⟨before, next _ le_rfl⟩

theorem clock_later {w : World} {a b : Int} (before : w.clock ≤ sampleTime a)
    (le : sampleTime a ≤ sampleTime b) : w.clock ≤ sampleTime b := before.trans le

theorem sample_meets :
    clocked.MeetsAll (deliveryService deliveringServices sampleSettings) checkoutToDelivery
      ⟨⟨createdRecord, sampleTime 0, 100⟩, []⟩ := by
  unfold checkoutToDelivery
  simp only [List.append_assoc, List.cons_append, List.nil_append]
  refine ⟨trivial, trivial, meets_worker (show sampleTime 0 ≤ sampleTime 2 by decide)
    fun c₂ at₂ => ?_⟩
  refine meets_serves (by decide) (clock_later at₂ (by decide)) fun c₃ at₃ => ?_
  refine meets_worker (clock_later at₃ (by decide)) fun c₄ at₄ => ?_
  refine meets_serves (by decide) (clock_later at₄ (by decide)) fun c₅ at₅ => ?_
  refine meets_worker (clock_later at₅ (by decide)) fun c₆ at₆ => ?_
  refine meets_serves (by decide) (clock_later at₆ (by decide)) fun c₇ at₇ => ?_
  refine ⟨trivial, meets_worker (clock_later at₇ (by decide)) fun c₉ at₉ => ?_⟩
  exact meets_worker (clock_later at₉ (by decide)) fun _ _ => trivial

theorem sample_answered :
    orderStatus sampleStatusServices sampleRequest sampleReads = .ok sampleAnswer := by
  decide +kernel

theorem created_new : New createdRecord := ⟨⟨rfl, rfl, rfl⟩, rfl, rfl, rfl⟩

theorem delivered_order_is_shown :
    orderStatus sampleStatusServices sampleRequest sampleReads = .ok sampleAnswer ∧
      parseOrderStatus sampleParse (.object (sampleAnswer.fields sampleIso) : Json Int) =
        .ok (sampleAnswer.shown sampleIso) :=
  ⟨sample_answered, status_contract deliveringServices sampleSettings sampleStatusServices
    sample_shows created_new sample_meets
    ⟨51, 51, 51, 51, 51, 51, 51, 51, 51, by decide⟩ (by decide) (by decide) sampleRequest
    sample_answered⟩

end StatusContract
