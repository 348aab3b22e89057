import SpacerocksCoa.FallibleSteps
import SpacerocksCoa.PaymentWebhooks

/-!
# Recognising a full refund

The two readers of Stripe's objects, of an event and of a checkout session with its expanded
charge, and what the webhook makes of them for a refund. A value is what Stripe's client
returns for a JSON value; how Python writes a list or an object and how it reads a number from
a text are parameters, since no refund depends on them.

The reader of the session asks that every refund of the charge succeeded, where the webhook
needs the sum of those that did. An event may be late: it carries its refund, or the charge,
as they were when it was made.
-/
namespace RefundRecognition
open OrderStates OrderRows FallibleSteps PaymentWebhooks

/-! ## Values -/

inductive Value where
  | null
  | bool (value : Bool)
  | int (value : Int)
  | text (value : String)
  | list (items : List Value)
  | object (fields : List (String × Value))

inductive GatewayError where
  | signature (text : String)
  | provider (text : String)
  deriving DecidableEq

/-- `dict.get`. -/
def field (fields : List (String × Value)) (key : String) : Value :=
  (fields.lookup key).getD .null

/-- `value.get(key)` if `value` is a mapping. -/
def fieldOf (value : Value) (key : String) : Value :=
  match value with
  | .object fields => field fields key
  | _ => .null

/-- How Python converts values that no refund depends on. -/
structure Conversions where
  writeContainer : Value → String
  readInt : String → Option Int

variable (py : Conversions)

/-- `str`. -/
def str : Value → String
  | .null => "None"
  | .bool true => "True"
  | .bool false => "False"
  | .int n => toString n
  | .text t => t
  | container => py.writeContainer container

/-- `int`; a value it does not read raises. -/
def int : Value → Option Int
  | .bool b => some b.toNat
  | .int n => some n
  | .text t => py.readInt t
  | _ => none

/-- `int(value) if type(value) is int else None`. -/
def exactInt : Value → Option Int
  | .int n => some n
  | _ => none

/-- Whether Python takes a value for true. -/
def truthyValue : Value → Bool
  | .null => false
  | .bool b => b
  | .int n => n != 0
  | .text t => t != ""
  | .list items => !items.isEmpty
  | .object fields => !fields.isEmpty

/-- `_reference_id`. -/
def referenceId : Value → Option String
  | .text t => some t
  | .object fields =>
    if truthyValue (field fields "id") then some (str py (field fields "id")) else none
  | _ => none

/-! ## Events -/

def eventTypeOf (name : String) : StripeEventType :=
  if name = "checkout.session.completed" then .checkoutSessionCompleted
  else if name = "checkout.session.async_payment_succeeded" then .asyncPaymentSucceeded
  else if name = "checkout.session.async_payment_failed" then .asyncPaymentFailed
  else if name = "checkout.session.expired" then .checkoutSessionExpired
  else if name = "charge.refunded" then .chargeRefunded
  else if name = "refund.created" then .refundCreated
  else if name = "refund.updated" then .refundUpdated
  else if name = "charge.dispute.created" then .chargeDisputeCreated
  else if name = "charge.dispute.updated" then .chargeDisputeUpdated
  else .other name

def startsWith (name head : String) : Bool := head.toList.isPrefixOf name.toList

/-- The refund of an event: its status and its amount. -/
def eventRefund (eventType : String) (object : List (String × Value)) :
    Option String × Option Int :=
  if startsWith eventType "refund." then
    (match field object "status" with
      | .null => none
      | status => some (str py status),
      exactInt (field object "amount"))
  else if eventType = "charge.refunded" then
    (match field object "refunded" with
      | .bool true => some "succeeded"
      | _ => none,
      exactInt (field object "amount_refunded"))
  else (none, none)

def internalOrderIdOf (metadata : Value) : Option String :=
  match metadata with
  | .object fields =>
    if truthyValue (field fields "order_id") then some (str py (field fields "order_id")) else none
  | _ => none

/-- `_provider_event`. -/
def providerEvent (event : List (String × Value)) : Except GatewayError ProviderEvent :=
  match event.lookup "id", event.lookup "type", event.lookup "livemode", event.lookup "data" with
  | some id, some eventType, some livemode, some data =>
    match data, livemode with
    | .object dataFields, .bool livemode =>
      match dataFields.lookup "object" with
      | some (.object object) =>
        let eventType := str py eventType
        let refund := eventRefund py eventType object
        .ok ⟨str py id, eventTypeOf eventType, livemode,
          internalOrderIdOf py (field object "metadata"),
          if startsWith eventType "checkout.session." then some (str py (field object "id"))
          else none,
          referenceId py (field object "payment_intent"), refund.1, refund.2⟩
      | _ => .error (.signature "invalid webhook event shape")
    | _, _ => .error (.signature "invalid webhook event shape")
  | _, _, _, _ => .error (.signature "invalid webhook event shape")

/-! ## Checkout sessions -/

/-- The status of one refund; entries that are no mappings are passed over. -/
def refundStatusOf (refund : Value) : Option String :=
  match refund with
  | .object fields => some (str py (field fields "status"))
  | _ => none

def incomplete : GatewayError := .provider "canonical checkout is incomplete"

/-- The entries of `refund_data or []`; a value that is no collection raises. -/
def refundData (charge : List (String × Value)) : Except GatewayError (List Value) :=
  match fieldOf (field charge "refunds") "data" with
  | .list items => .ok items
  | .int n => if n = 0 then .ok [] else .error incomplete
  | .bool true => .error incomplete
  | _ => .ok []

/-- The two refund fields of a checkout. -/
def chargeRefunds (charge : Value) : Except GatewayError (Option String × Int) :=
  match charge with
  | .object charge =>
    let total := (exactInt (field charge "amount_refunded")).getD 0
    if 0 < total then
      match refundData charge with
      | .error e => .error e
      | .ok data =>
        let statuses := data.filterMap (refundStatusOf py)
        .ok (some (if statuses ≠ [] ∧ ∀ status ∈ statuses, status = "succeeded" then "succeeded"
          else "pending"), total)
    else .ok (none, total)
  | _ => .ok (none, 0)

/-- `session[key]`, whose absence raises. -/
def required (session : List (String × Value)) (key : String) : Except GatewayError Value :=
  match session.lookup key with
  | some value => .ok value
  | none => .error incomplete

def requiredInt (fields : List (String × Value)) (key : String) : Except GatewayError Int := do
  let value ← required fields key
  match int py value with
  | some n => .ok n
  | none => .error incomplete

def metadataOf (fields : List (String × Value)) : List (String × String) :=
  fields.map fun entry => (entry.1, str py entry.2)

/-- `_canonical_checkout`. -/
def canonicalCheckout (session : List (String × Value)) : Except GatewayError CanonicalCheckout :=
  match fieldOf (field session "line_items") "data" with
  | .list [.object item] =>
    match field session "metadata", referenceId py (field item "price"),
      field session "livemode" with
    | .object metadata, some priceId, .bool livemode => do
      let refunds ← chargeRefunds py (fieldOf (field session "payment_intent") "latest_charge")
      let sessionId ← required session "id"
      let mode ← required session "mode"
      let status ← required session "status"
      let paymentStatus ← required session "payment_status"
      let amountTotal ← requiredInt py session "amount_total"
      let currency ← required session "currency"
      let quantity ← requiredInt py item "quantity"
      return ⟨str py sessionId, referenceId py (field session "payment_intent"), livemode,
        str py mode, str py status, str py paymentStatus, metadataOf py metadata, priceId,
        amountTotal, str py currency, quantity, refunds.1, refunds.2⟩
    | _, _, _ => .error incomplete
  | _ => .error (.provider "canonical checkout must contain exactly one line item")

/-! ## The refunds of a charge -/

/-- Stripe refunds positive amounts. -/
structure Refund where
  status : String
  amount : Int
  positive : 0 < amount

def Refund.succeeded (refund : Refund) : Bool := refund.status == "succeeded"

/-- The sum of the refunds that succeeded. -/
def succeededTotal : List Refund → Int
  | [] => 0
  | refund :: rest =>
    (if refund.succeeded = true then refund.amount else 0) + succeededTotal rest

/-- An object of a refund. -/
structure ShowsRefund (object : List (String × Value)) (refund : Refund) : Prop where
  status : field object "status" = .text refund.status
  amount : field object "amount" = .int refund.amount

/-- A session whose charge has these refunds and whose `amount_refunded` is the sum of those
that succeeded. -/
structure ShowsRefunds (session : List (String × Value)) (refunds : List Refund) : Prop where
  charge : ∃ charge objects, fieldOf (field session "payment_intent") "latest_charge" =
      .object charge ∧ field charge "amount_refunded" = .int (succeededTotal refunds) ∧
    fieldOf (field charge "refunds") "data" = .list (objects.map Value.object) ∧
    List.Forall₂ ShowsRefund objects refunds

/-- The object of an event. -/
def eventObject (event : List (String × Value)) : Value :=
  fieldOf ((event.lookup "data").getD .null) "object"

/-- An event of a refund that has succeeded. A refund event carries the refund, perhaps in an
earlier status; a charge event carries the charge with the refunds it had at the time, the
refund among them. -/
inductive SucceededRefundEvent (refunds : List Refund) (total : Int)
    (event : List (String × Value)) : Prop
  | refund (name : String) (object : List (String × Value)) (refund shown : Refund)
      (named : event.lookup "type" = some (.text name))
      (kind : name = "refund.created" ∨ name = "refund.updated")
      (carries : eventObject event = .object object) (shows : ShowsRefund object shown)
      (same : shown.amount = refund.amount)
      (listed : refund ∈ refunds) (success : refund.succeeded = true)
  | charge (object : List (String × Value)) (earlier : List Refund) (refund : Refund)
      (named : event.lookup "type" = some (.text "charge.refunded"))
      (carries : eventObject event = .object object)
      (full : field object "refunded" = .bool (succeededTotal earlier == total))
      (amount : field object "amount_refunded" = .int (succeededTotal earlier))
      (happened : refund ∈ earlier) (listed : refund ∈ refunds)
      (success : refund.succeeded = true)

/-- What the event itself shows: the refund succeeded, or the charge was refunded in full. -/
def ShowsSuccess (event : List (String × Value)) : Prop :=
  (event.lookup "type" = some (.text "charge.refunded") →
      fieldOf (eventObject event) "refunded" = .bool true) ∧
    (event.lookup "type" ≠ some (.text "charge.refunded") →
      fieldOf (eventObject event) "status" = .text "succeeded")

/-! ## Recognition -/

/-- The succeeded refunds add up to a positive total. -/
def FullyRefunded (refunds : List Refund) (total : Int) : Prop :=
  succeededTotal refunds = total ∧ 0 < total

/-- Every refund of the charge succeeded. -/
def OnlySucceeded (refunds : List Refund) : Prop := ∀ refund ∈ refunds, refund.succeeded = true

def Recognised (event : ProviderEvent) (canonical : CanonicalCheckout) : Prop :=
  eventTarget event canonical = some .refunded

theorem succeededTotal_cons (head : Refund) (rest : List Refund) :
    succeededTotal (head :: rest) =
      (if head.succeeded = true then head.amount else 0) + succeededTotal rest := rfl

theorem succeededTotal_nonneg (refunds : List Refund) : 0 ≤ succeededTotal refunds := by
  induction refunds with
  | nil => exact Int.le_refl 0
  | cons head rest ih =>
    have first := head.positive
    rw [succeededTotal_cons]
    split
    · omega
    · omega

theorem succeededTotal_positive {refunds : List Refund} {refund : Refund}
    (listed : refund ∈ refunds) (success : refund.succeeded = true) :
    0 < succeededTotal refunds := by
  induction refunds with
  | nil => exact absurd listed List.not_mem_nil
  | cons head rest ih =>
    rw [succeededTotal_cons]
    rcases List.mem_cons.1 listed with rfl | later
    · have first := refund.positive
      have others := succeededTotal_nonneg rest
      rw [if_pos success]
      omega
    · have others := ih later
      have first := head.positive
      split
      · omega
      · omega

theorem statuses_of_shown {objects : List (List (String × Value))} {refunds : List Refund}
    (shown : List.Forall₂ ShowsRefund objects refunds) :
    (objects.map Value.object).filterMap (refundStatusOf py) = refunds.map Refund.status := by
  induction shown with
  | nil => rfl
  | cons first _ ih =>
    have status : refundStatusOf py (Value.object _) = some _ :=
      congrArg (some ∘ str py) first.status
    rw [List.map_cons, List.filterMap_cons_some status, ih]
    rfl

/-- The reader of the session takes the refunds for succeeded when all of them are. -/
theorem chargeRefunds_shown {session : List (String × Value)} {refunds : List Refund}
    (shown : ShowsRefunds session refunds) (positive : 0 < succeededTotal refunds) :
    ∃ status, chargeRefunds py (fieldOf (field session "payment_intent") "latest_charge") =
      .ok (some status, succeededTotal refunds) ∧
        (status = "succeeded" ↔ OnlySucceeded refunds) := by
  obtain ⟨charge, objects, found, amount, data, each⟩ := shown.charge
  have entries : refundData charge = .ok (objects.map Value.object) := by
    unfold refundData
    rw [data]
  have statuses := statuses_of_shown py each
  have some_refund : refunds.map Refund.status ≠ [] := by
    intro none
    rw [List.map_eq_nil_iff.1 none] at positive
    exact absurd positive (by decide)
  have total : (exactInt (field charge "amount_refunded")).getD 0 = succeededTotal refunds := by
    rw [amount]
    rfl
  rw [found]
  unfold chargeRefunds
  simp only [total, if_pos positive, entries, statuses, some_refund, ne_eq, not_false_eq_true,
    true_and]
  have all : (∀ status ∈ refunds.map Refund.status, status = "succeeded") ↔
      OnlySucceeded refunds := by
    simp only [List.forall_mem_map, OnlySucceeded, Refund.succeeded, beq_iff_eq]
  by_cases only : OnlySucceeded refunds
  · refine ⟨_, rfl, ?_⟩
    rw [if_pos (all.2 only)]
    exact ⟨fun _ => only, fun _ => rfl⟩
  · refine ⟨_, rfl, ?_⟩
    rw [if_neg fun statuses => only (all.1 statuses)]
    exact ⟨fun same => absurd same (by decide), fun held => absurd held only⟩

theorem requiredInt_ok {fields : List (String × Value)} {key : String} {n : Int}
    (read : requiredInt py fields key = .ok n) :
    ∃ value, fields.lookup key = some value ∧ int py value = some n := by
  unfold requiredInt required at read
  cases found : fields.lookup key with
  | none =>
    rw [found] at read
    cases read
  | some value =>
    rw [found] at read
    cases number : int py value with
    | none =>
      simp only [Except.bind, bind, number] at read
      cases read
    | some m =>
      simp only [Except.bind, bind, number] at read
      cases read
      exact ⟨value, rfl, number⟩

/-- The fields of a checkout that a refund is judged by. -/
theorem canonicalCheckout_ok {session : List (String × Value)} {canonical : CanonicalCheckout}
    (read : canonicalCheckout py session = .ok canonical) :
    chargeRefunds py (fieldOf (field session "payment_intent") "latest_charge") =
        .ok (canonical.refundStatus, canonical.refundedAmountTotal) ∧
      ∃ value, session.lookup "amount_total" = some value ∧
        int py value = some canonical.amountTotal := by
  unfold canonicalCheckout at read
  split at read
  · split at read
    · obtain ⟨refunds, refundsRead, read⟩ := except_bind_ok read
      obtain ⟨sessionId, _, read⟩ := except_bind_ok read
      obtain ⟨mode, _, read⟩ := except_bind_ok read
      obtain ⟨status, _, read⟩ := except_bind_ok read
      obtain ⟨paymentStatus, _, read⟩ := except_bind_ok read
      obtain ⟨amountTotal, amountRead, read⟩ := except_bind_ok read
      obtain ⟨currency, _, read⟩ := except_bind_ok read
      obtain ⟨quantity, _, read⟩ := except_bind_ok read
      cases read
      exact ⟨refundsRead, requiredInt_ok py amountRead⟩
    · cases read
  · cases read

/-- The fields of an event that a refund is judged by. -/
theorem providerEvent_ok {event : List (String × Value)} {e : ProviderEvent}
    {object : List (String × Value)} {name : String} (read : providerEvent py event = .ok e)
    (named : event.lookup "type" = some (.text name))
    (carries : eventObject event = .object object) :
    e.eventType = eventTypeOf name ∧
      (e.refundStatus, e.refundedAmount) = eventRefund py name object := by
  unfold providerEvent at read
  split at read
  · next id eventType livemode data _ typed _ dataFound =>
    rw [named] at typed
    cases typed
    split at read
    · next dataFields flag _ =>
      split at read
      · next object' objectFound =>
        cases read
        have same : eventObject event = .object object' := by
          unfold eventObject
          rw [dataFound]
          show (dataFields.lookup "object").getD .null = _
          rw [objectFound]
          rfl
        rw [carries] at same
        cases same
        exact ⟨rfl, rfl⟩
      · cases read
    · cases read
  · cases read

/-- An event of a succeeded refund asks for a refund of a positive amount, and its status is
what it shows. -/
theorem refundEvent_asks {refunds : List Refund} {total : Int} {event : List (String × Value)}
    {e : ProviderEvent} (read : providerEvent py event = .ok e)
    (authentic : SucceededRefundEvent refunds total event) :
    StripeEventType.isRefund e.eventType = true ∧
      (e.refundStatus = some "succeeded" ↔ ShowsSuccess event) ∧
        ∃ amount, e.refundedAmount = some amount ∧ 0 < amount := by
  cases authentic with
  | refund name object refund shown named kind carries shows same listed success =>
    obtain ⟨typed, told⟩ := providerEvent_ok py read named carries
    have starts : startsWith name "refund." = true := by
      rcases kind with rfl | rfl
      · decide
      · decide
    have other : name ≠ "charge.refunded" := by
      rcases kind with rfl | rfl
      · decide
      · decide
    unfold eventRefund at told
    rw [if_pos starts, shows.status, shows.amount] at told
    obtain ⟨statusTold, amountTold⟩ := Prod.mk.inj told
    have status : e.refundStatus = some shown.status := statusTold
    refine ⟨?_, ?_, shown.amount, amountTold, shown.positive⟩
    · rw [typed]
      rcases kind with rfl | rfl
      · decide
      · decide
    · have shows_status : fieldOf (.object object) "status" = .text shown.status := shows.status
      unfold ShowsSuccess
      rw [named, carries, shows_status, status]
      simp [other]
  | charge object earlier refund named carries full amount happened listed success =>
    obtain ⟨typed, told⟩ := providerEvent_ok py read named carries
    have starts : startsWith "charge.refunded" "refund." = false := by decide
    unfold eventRefund at told
    rw [starts, full, amount] at told
    obtain ⟨statusTold, amountTold⟩ := Prod.mk.inj told
    refine ⟨?_, ?_, _, amountTold, succeededTotal_positive happened success⟩
    · rw [typed]
      decide
    · have shows_full : fieldOf (.object object) "refunded" =
          .bool (succeededTotal earlier == total) := full
      unfold ShowsSuccess
      rw [named, carries, shows_full, statusTold]
      cases succeededTotal earlier == total with
      | true => simp
      | false => simp

theorem refundEvent_listed {refunds : List Refund} {total : Int} {event : List (String × Value)}
    (authentic : SucceededRefundEvent refunds total event) : 0 < succeededTotal refunds := by
  cases authentic with
  | refund name object refund shown named kind carries shows same listed success =>
    exact succeededTotal_positive listed success
  | charge object earlier refund named carries full amount happened listed success =>
    exact succeededTotal_positive listed success

theorem recognised_iff_authoritative {e : ProviderEvent} {canonical : CanonicalCheckout}
    (refund : StripeEventType.isRefund e.eventType = true) :
    Recognised e canonical ↔ authoritativeFullRefund e canonical = true := by
  unfold Recognised eventTarget
  cases kind : e.eventType with
  | chargeRefunded => simp
  | refundCreated => simp
  | refundUpdated => simp
  | _ =>
    rw [kind] at refund
    cases refund

/-- A full refund is recognised if and only if the refunds add up, none of them failed and the
event shows the success. -/
theorem recognised_iff {session event : List (String × Value)} {refunds : List Refund}
    {canonical : CanonicalCheckout} {e : ProviderEvent}
    (read : canonicalCheckout py session = .ok canonical) (shown : ShowsRefunds session refunds)
    (eventRead : providerEvent py event = .ok e)
    (authentic : SucceededRefundEvent refunds canonical.amountTotal event) :
    Recognised e canonical ↔
      FullyRefunded refunds canonical.amountTotal ∧ OnlySucceeded refunds ∧ ShowsSuccess event := by
  obtain ⟨asks, told, amount, amountTold, positive⟩ := refundEvent_asks py eventRead authentic
  obtain ⟨status, refundsRead, only⟩ :=
    chargeRefunds_shown py shown (refundEvent_listed authentic)
  obtain ⟨same, _⟩ := canonicalCheckout_ok py read
  rw [refundsRead] at same
  obtain ⟨statusSame, sum⟩ := Prod.mk.inj (Except.ok.inj same)
  rw [recognised_iff_authoritative asks, ← told, ← only]
  unfold authoritativeFullRefund FullyRefunded
  rw [← statusSame, ← sum, amountTold]
  simp only [Option.any_some, Bool.and_eq_true, beq_iff_eq, decide_eq_true_eq,
    Option.some.injEq]
  constructor
  · rintro ⟨⟨⟨⟨eventShows, -⟩, succeeded⟩, full⟩, paid⟩
    exact ⟨⟨full, paid⟩, succeeded, eventShows⟩
  · rintro ⟨⟨full, paid⟩, succeeded, eventShows⟩
    exact ⟨⟨⟨⟨eventShows, positive⟩, succeeded⟩, full⟩, paid⟩

/-- Recognition agrees with the sums exactly if no refund failed and the event shows the
success, or the sums fall short. -/
theorem full_refund_recognition {session event : List (String × Value)} {refunds : List Refund}
    {canonical : CanonicalCheckout} {e : ProviderEvent}
    (read : canonicalCheckout py session = .ok canonical) (shown : ShowsRefunds session refunds)
    (eventRead : providerEvent py event = .ok e)
    (authentic : SucceededRefundEvent refunds canonical.amountTotal event) :
    (Recognised e canonical ↔ FullyRefunded refunds canonical.amountTotal) ↔
      (OnlySucceeded refunds ∧ ShowsSuccess event ∨
        ¬ FullyRefunded refunds canonical.amountTotal) := by
  have recognised := recognised_iff py read shown eventRead authentic
  constructor
  · intro agree
    by_cases full : FullyRefunded refunds canonical.amountTotal
    · exact Or.inl (recognised.1 (agree.2 full)).2
    · exact Or.inr full
  · intro condition
    constructor
    · intro seen
      exact (recognised.1 seen).1
    · intro full
      rcases condition with shows | short
      · exact recognised.2 ⟨full, shows⟩
      · exact absurd full short

/-! ## A refund that needed a second attempt -/

/-- Neither conversion is reached. -/
def plainConversions : Conversions := ⟨fun _ => "", fun _ => none⟩

theorem sample_positive : (0 : Int) < 500 := by decide

def failedRefund : Refund := ⟨"failed", 500, sample_positive⟩
def fullRefund : Refund := ⟨"succeeded", 500, sample_positive⟩

def refundObject (refund : Refund) : List (String × Value) :=
  [("status", .text refund.status), ("amount", .int refund.amount)]

def refundedSession (refunds : List Refund) : List (String × Value) :=
  [("id", .text "cs_test_refunded"),
    ("payment_intent", .object [("id", .text "pi_1"),
      ("latest_charge", .object [("amount_refunded", .int (succeededTotal refunds)),
        ("refunds", .object [("data", .list ((refunds.map refundObject).map Value.object))])])]),
    ("livemode", .bool false), ("mode", .text "payment"), ("status", .text "complete"),
    ("payment_status", .text "paid"), ("metadata", .object [("order_id", .text "1")]),
    ("amount_total", .int 500), ("currency", .text "usd"),
    ("line_items", .object [("data", .list [.object
      [("price", .object [("id", .text "price_test")]), ("quantity", .int 1)]])])]

def refundedCheckout (refundStatus : String) : CanonicalCheckout :=
  ⟨"cs_test_refunded", some "pi_1", false, "payment", "complete", "paid", [("order_id", "1")],
    "price_test", 500, "usd", 1, some refundStatus, 500⟩

def updatedRefundEvent : List (String × Value) :=
  [("id", .text "evt_1"), ("type", .text "refund.updated"), ("livemode", .bool false),
    ("data", .object [("object", .object (("payment_intent", .text "pi_1") ::
      refundObject fullRefund))])]

def updatedRefund : ProviderEvent :=
  ⟨"evt_1", .refundUpdated, false, none, none, some "pi_1", some "succeeded", some 500⟩

theorem refundedSession_shows (refunds : List Refund) :
    ShowsRefunds (refundedSession refunds) refunds := by
  refine ⟨⟨_, refunds.map refundObject, rfl, rfl, rfl, ?_⟩⟩
  induction refunds with
  | nil => exact .nil
  | cons head rest ih => exact .cons ⟨rfl, rfl⟩ ih

theorem updatedRefund_authentic {refunds : List Refund} (listed : fullRefund ∈ refunds) :
    SucceededRefundEvent refunds 500 updatedRefundEvent :=
  .refund "refund.updated" _ fullRefund fullRefund rfl (Or.inr rfl) rfl ⟨rfl, rfl⟩ rfl listed rfl

theorem updatedRefund_shows : ShowsSuccess updatedRefundEvent :=
  ⟨fun charge => absurd (Value.text.inj (Option.some.inj charge)) (by decide), fun _ => rfl⟩

/-- A single refund of the whole amount is recognised. -/
theorem single_refund_is_recognised :
    Recognised updatedRefund (refundedCheckout "succeeded") ↔ FullyRefunded [fullRefund] 500 :=
  (full_refund_recognition plainConversions
    (show canonicalCheckout plainConversions (refundedSession [fullRefund]) =
      .ok (refundedCheckout "succeeded") from rfl)
    (refundedSession_shows [fullRefund])
    (show providerEvent plainConversions updatedRefundEvent = .ok updatedRefund from rfl)
    (updatedRefund_authentic List.mem_cons_self)).2
      (Or.inl ⟨fun _ listed => List.mem_singleton.1 listed ▸ rfl, updatedRefund_shows⟩)

/-- After a failed attempt the refund of the whole amount is not recognised. -/
theorem failed_attempt_hides_refund :
    let refunds := [failedRefund, fullRefund]
    canonicalCheckout plainConversions (refundedSession refunds) =
        .ok (refundedCheckout "pending") ∧
      ShowsRefunds (refundedSession refunds) refunds ∧
      providerEvent plainConversions updatedRefundEvent = .ok updatedRefund ∧
      SucceededRefundEvent refunds 500 updatedRefundEvent ∧ FullyRefunded refunds 500 ∧
      ¬ Recognised updatedRefund (refundedCheckout "pending") := by
  intro refunds
  refine ⟨rfl, refundedSession_shows refunds, rfl,
    updatedRefund_authentic (List.mem_cons_of_mem _ List.mem_cons_self), ⟨rfl, by decide⟩, ?_⟩
  intro recognised
  cases recognised

/-- The charge after the first of two refunds. -/
def lateChargeEvent : List (String × Value) :=
  [("id", .text "evt_2"), ("type", .text "charge.refunded"), ("livemode", .bool false),
    ("data", .object [("object", .object [("payment_intent", .text "pi_1"),
      ("refunded", .bool false), ("amount_refunded", .int 200)])])]

-- The event of the first refund arrives when the second has succeeded too.
example :
    (providerEvent plainConversions lateChargeEvent).toOption.bind
        (fun e => eventTarget e (refundedCheckout "succeeded")) = none ∧
      SucceededRefundEvent [⟨"succeeded", 200, by decide⟩, ⟨"succeeded", 300, by decide⟩] 500
        lateChargeEvent :=
  ⟨rfl, .charge _ [⟨"succeeded", 200, by decide⟩] ⟨"succeeded", 200, by decide⟩ rfl rfl rfl rfl
    List.mem_cons_self List.mem_cons_self rfl⟩

end RefundRecognition
