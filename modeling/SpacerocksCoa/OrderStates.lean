import Mathlib.Data.Int.Order.Basic
import Mathlib.Data.List.Basic
import Mathlib.Data.String.Basic

/-!
# Identifiers, digests and the two state tables of an order

The payment and fulfillment tables, and the two transition functions that consult
them, as the domain module declares them. The functions are generic in the immutable
snapshot, which they carry and never read. Later modules also assign the two states
directly; whether those assignments follow the tables is not decided here.
-/
namespace OrderStates

abbrev Bytes := List UInt8

/-- Microseconds since the epoch: what an aware timestamp column compares. -/
abbrev Instant := Int

/-- The order in which rows are selected is computed; this keeps its instance computable. -/
instance (priority := 2000) instantPreorder : Preorder Int := Int.instLinearOrder.toPreorder

/-! ## Identifiers and digests -/

def alphanumeric (c : Char) : Bool :=
  ('A' ≤ c && c ≤ 'Z') || ('a' ≤ c && c ≤ 'z') || ('0' ≤ c && c ≤ '9')

/-- A letter or digit, then at most 127 letters, digits, dots, underscores, colons,
slashes or hyphens. -/
def certificatePattern (value : String) : Bool :=
  match value.toList with
  | [] => false
  | c :: rest => alphanumeric c && decide (rest.length ≤ 127) &&
    rest.all (fun c => alphanumeric c || ['.', '_', ':', '/', '-'].contains c)

/-- The set `[0-9A-HJKMNP-TV-Z]`. -/
def crockford (c : Char) : Bool :=
  ('0' ≤ c && c ≤ '9') || ('A' ≤ c && c ≤ 'H') || c == 'J' || c == 'K' || c == 'M' || c == 'N' ||
    ('P' ≤ c && c ≤ 'T') || ('V' ≤ c && c ≤ 'Z')

/-- The pattern `ts_[0-9A-HJKMNP-TV-Z]{26}` on the whole text. -/
def orderReferencePattern (value : String) : Bool :=
  match value.toList with
  | 't' :: 's' :: '_' :: rest => decide (rest.length = 26) && rest.all crockford
  | _ => false

structure CertificateReference where
  value : String
  valid : certificatePattern value = true
  deriving DecidableEq

structure OrderReference where
  value : String
  valid : orderReferencePattern value = true
  deriving DecidableEq

/-- The exact SHA-256 result supplied by the browser, never an input to SHA-256. -/
structure ManifestDigest where
  value : Bytes
  length : value.length = 32
  deriving DecidableEq

structure Sha256 where
  value : Bytes
  length : value.length = 32
  deriving DecidableEq

/-! ## States -/

inductive PaymentState where
  | checkoutOpen | processing | paid | failed | expired | refunded | disputed
  deriving DecidableEq, Repr

inductive FulfillmentState where
  | awaitingPayment | queued | stamping | calendarPending | bitcoinVerified | delivered
  | manualReview
  deriving DecidableEq, Repr

def PaymentState.value : PaymentState → String
  | checkoutOpen => "checkout_open"
  | processing => "processing"
  | paid => "paid"
  | failed => "failed"
  | expired => "expired"
  | refunded => "refunded"
  | disputed => "disputed"

def FulfillmentState.value : FulfillmentState → String
  | awaitingPayment => "awaiting_payment"
  | queued => "queued"
  | stamping => "stamping"
  | calendarPending => "calendar_pending"
  | bitcoinVerified => "bitcoin_verified"
  | delivered => "delivered"
  | manualReview => "manual_review"

def paymentTransitions : PaymentState → List PaymentState
  | .checkoutOpen => [.processing, .paid, .failed, .expired, .refunded, .disputed]
  | .processing => [.paid, .failed, .expired, .refunded, .disputed]
  | .paid => [.refunded, .disputed]
  | .disputed => [.refunded]
  | .failed => []
  | .expired => []
  | .refunded => []

def fulfillmentTransitions : FulfillmentState → List FulfillmentState
  | .awaitingPayment => [.queued, .manualReview]
  | .queued => [.stamping, .manualReview]
  | .stamping => [.calendarPending, .manualReview]
  | .calendarPending => [.bitcoinVerified, .manualReview]
  | .bitcoinVerified => [.delivered, .manualReview]
  | .delivered => [.manualReview]
  | .manualReview => []

structure OrderState (Snapshot : Type) where
  snapshot : Snapshot
  payment : PaymentState := .checkoutOpen
  fulfillment : FulfillmentState := .awaitingPayment
  deriving DecidableEq

variable {Snapshot : Type}

def OrderState.transitionPayment (self : OrderState Snapshot) (target : PaymentState) :
    Except String (OrderState Snapshot) :=
  if target = self.payment then .ok self
  else if target ∉ paymentTransitions self.payment then
    .error ("illegal payment transition: " ++ self.payment.value ++ " -> " ++ target.value)
  else .ok { self with payment := target }

def OrderState.transitionFulfillment (self : OrderState Snapshot) (target : FulfillmentState) :
    Except String (OrderState Snapshot) :=
  if target = self.fulfillment then .ok self
  else if target ∉ fulfillmentTransitions self.fulfillment then
    .error ("illegal fulfillment transition: " ++ self.fulfillment.value ++ " -> " ++ target.value)
  else if self.payment ≠ .paid ∧ self.fulfillment = .awaitingPayment ∧ target = .queued then
    .error "fulfillment cannot be queued before payment"
  else .ok { self with fulfillment := target }

/-! ## What a transition can do -/

/-- A state is left alone or moves along one edge of the table. -/
def PaymentEdge (before after : PaymentState) : Prop :=
  after = before ∨ after ∈ paymentTransitions before

def FulfillmentEdge (before after : FulfillmentState) : Prop :=
  after = before ∨ after ∈ fulfillmentTransitions before

instance (a b : PaymentState) : Decidable (PaymentEdge a b) :=
  instDecidableOr
instance (a b : FulfillmentState) : Decidable (FulfillmentEdge a b) :=
  instDecidableOr

lemma transitionPayment_ok {self next : OrderState Snapshot} {target : PaymentState}
    (h : self.transitionPayment target = .ok next) :
    next = { self with payment := target } ∧ PaymentEdge self.payment target := by
  unfold OrderState.transitionPayment at h
  split at h
  · next same =>
    cases h
    subst same
    exact ⟨rfl, Or.inl rfl⟩
  · split at h
    · cases h
    · next edge =>
      cases h
      exact ⟨rfl, Or.inr (not_not.1 edge)⟩

lemma transitionFulfillment_ok {self next : OrderState Snapshot} {target : FulfillmentState}
    (h : self.transitionFulfillment target = .ok next) :
    next = { self with fulfillment := target } ∧ FulfillmentEdge self.fulfillment target ∧
      (self.fulfillment = .awaitingPayment → target = .queued → self.payment = .paid) := by
  unfold OrderState.transitionFulfillment at h
  split at h
  · next same =>
    cases h
    subst same
    refine ⟨rfl, Or.inl rfl, fun waiting queued => ?_⟩
    rw [waiting] at queued
    cases queued
  · split at h
    · cases h
    · next edge =>
      split at h
      · cases h
      · next paid =>
        cases h
        refine ⟨rfl, Or.inr (not_not.1 edge), fun waiting queued => ?_⟩
        by_contra unpaid
        exact paid ⟨unpaid, waiting, queued⟩

/-- Whether money has ever been confirmed for the order. -/
def Settled (payment : PaymentState) : Prop :=
  payment = .paid ∨ payment = .refunded ∨ payment = .disputed

instance (payment : PaymentState) : Decidable (Settled payment) :=
  instDecidableOr

lemma settled_edge {before after : PaymentState} (edge : PaymentEdge before after)
    (settled : Settled before) : Settled after := by
  revert edge settled
  cases before <;> cases after <;> decide

/-- The position of a state on the way from payment to delivery. -/
def FulfillmentState.rank : FulfillmentState → Nat
  | awaitingPayment => 0
  | queued => 1
  | stamping => 2
  | calendarPending => 3
  | bitcoinVerified => 4
  | delivered => 5
  | manualReview => 6

lemma rank_le_of_edge {before after : FulfillmentState} (edge : FulfillmentEdge before after) :
    before.rank ≤ after.rank := by
  revert edge
  cases before <;> cases after <;> decide

end OrderStates
