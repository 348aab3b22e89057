import SpacerocksCoa.OrderStateMachine
import SpacerocksCoa.HandlerRequests

/-!
# Stamping again after a crash

The stamp handler alone on one order, run again and again, each time stopped at any of its
requests or not at all, with anything the payment provider reports in between. Nothing is
assumed about the calendars or about the time; the order begins as the checkout created it.

What the runner does around the handler, and the upgrade that follows, are left out: the runs
here are those of an order that waits to be stamped.
-/
namespace StampRecovery
open OrderStates ProofRecords OrderRows FulfillmentAdapters PaymentWebhooks
open FulfillmentHandlers WorkerRuns OrderStateMachine TransactionalPrograms
open TransactionalPrograms.Prog

/-- A run of the handler, stopped where its list ends, or something of the payment side. -/
inductive Phase where
  | run (envs : List Env)
  | payment (env : PaymentEnv) (q : PaymentRequest)
  | bindSession (sessionId : String)

def phaseStep (s : Services) (settings : PaymentSettings) (w : World) : Phase → World
  | .run envs => (serve (perform s) (stampHandler s) envs w).2
  | .payment env q => (arriveOrder s settings w (.payment env q)).1
  | .bindSession sessionId => (arriveOrder s settings w (.bindSession sessionId)).1

/-- An order as the checkout created it. -/
structure Opened (r : OrderRecord) : Prop where
  payment : r.order.paymentState = .checkoutOpen
  fulfillment : r.order.fulfillmentState = .awaitingPayment
  proofs : r.proofs = []
  events : ∀ e ∈ r.stateEvents, e.fulfillmentState = .awaitingPayment

/-- One proof, its first version, with the order where it belongs. -/
def Stamped (r : OrderRecord) : Prop :=
  ∃ p, r.proofs = [p] ∧ p.version = 1 ∧ r.order.fulfillmentState = .calendarPending ∧
    r.order.calendarSubmittedAt = some p.calendarSubmittedAt

/-! ## What every stop leaves behind -/

/-- The states of an order up to its submission to the calendars. -/
def Early (state : FulfillmentState) : Prop :=
  state = .awaitingPayment ∨ state = .queued ∨ state = .stamping ∨ state = .calendarPending

theorem early_queued : Early .queued := Or.inr (Or.inl rfl)

theorem early_stamping : Early .stamping := Or.inr (Or.inr (Or.inl rfl))

theorem early_pending : Early .calendarPending := Or.inr (Or.inr (Or.inr rfl))

/-- No proof, or the first version and its submission time on the order. -/
structure Resumable (r : OrderRecord) : Prop where
  unpaid : ¬Settled r.order.paymentState → r.order.fulfillmentState = .awaitingPayment
  early : Early r.order.fulfillmentState
  stored : r.proofs = [] ∨ ∃ p, r.proofs = [p] ∧ p.version = 1 ∧
    r.order.calendarSubmittedAt = some p.calendarSubmittedAt
  waiting : r.order.fulfillmentState = .awaitingPayment → r.proofs = []
  pending : r.order.fulfillmentState = .calendarPending → r.proofs ≠ []
  events : ∀ e ∈ r.stateEvents, e.fulfillmentState = .calendarPending →
    r.order.fulfillmentState = .calendarPending

theorem Opened.resumable {r : OrderRecord} (opened : Opened r) : Resumable r := by
  constructor
  · intro _
    exact opened.fulfillment
  · exact Or.inl opened.fulfillment
  · exact Or.inl opened.proofs
  · intro _
    exact opened.proofs
  · intro pending
    rw [opened.fulfillment] at pending
    cases pending
  · intro e member late
    rw [opened.events e member] at late
    cases late

theorem Resumable.stamped {r : OrderRecord} (resumable : Resumable r)
    (reached : r.order.fulfillmentState = .calendarPending) : Stamped r := by
  rcases resumable.stored with none | ⟨p, stored, first, submitted⟩
  · exact absurd none (resumable.pending reached)
  · exact ⟨p, stored, first, reached, submitted⟩

/-- Only the state of the payment and the columns of the checkout differ. -/
theorem resumable_of_same {r r' : OrderRecord} (resumable : Resumable r)
    (payment : PaymentEdge r.order.paymentState r'.order.paymentState)
    (fulfillment : r'.order.fulfillmentState = r.order.fulfillmentState)
    (submitted : r'.order.calendarSubmittedAt = r.order.calendarSubmittedAt)
    (proofs : r'.proofs = r.proofs)
    (events : ∀ e ∈ r'.stateEvents,
      e ∈ r.stateEvents ∨ e.fulfillmentState = r.order.fulfillmentState) : Resumable r' := by
  constructor
  · intro unsettled
    rw [fulfillment]
    exact resumable.unpaid fun settled => unsettled (settled_edge payment settled)
  · rw [fulfillment]
    exact resumable.early
  · rw [proofs, submitted]
    exact resumable.stored
  · rw [fulfillment, proofs]
    exact resumable.waiting
  · rw [fulfillment, proofs]
    exact resumable.pending
  · intro e member late
    rw [fulfillment]
    rcases events e member with known | same
    · exact resumable.events e known late
    · rw [← same]
      exact late

/-! ## The payment side -/

theorem adoptIntent_submitted (order : Order) (canonical : CanonicalCheckout) :
    (adoptIntent order canonical).calendarSubmittedAt = order.calendarSubmittedAt := by
  unfold adoptIntent
  split
  · rfl
  · rfl

theorem enqueueFulfillment_proofs (order : Order) (now : Instant) (jobId messageId : Nat)
    (r : OrderRecord) : (enqueueFulfillment order now jobId messageId r).proofs = r.proofs := by
  unfold enqueueFulfillment
  split
  · rfl
  · rfl

/-- A payment that becomes paid queues an order that waited; any other payment leaves the
fulfillment alone. -/
theorem applyToRecord_resumable (event : ProviderEvent) (canonical : CanonicalCheckout)
    (now : Instant) (jobId messageId : Nat) {r : OrderRecord} (resumable : Resumable r) :
    Resumable (applyToRecord event canonical now jobId messageId r) := by
  cases applied : applyEvent r.order event canonical with
  | none =>
    have adopted : applyToRecord event canonical now jobId messageId r =
        { r with order := adoptIntent r.order canonical } := by
      simp only [applyToRecord, applied]
    obtain ⟨payment, fulfillment⟩ := adoptIntent_states r.order canonical
    rw [adopted]
    exact resumable_of_same resumable (Or.inl payment) fulfillment
      (adoptIntent_submitted r.order canonical) rfl fun e member => Or.inl member
  | some changed =>
    obtain ⟨target, _, moved⟩ := Option.bind_eq_some_iff.1 applied
    obtain ⟨change, _, edge⟩ := transitionPayment_some moved
    subst change
    obtain ⟨payment, fulfillment⟩ :=
      adoptIntent_states { r.order with paymentState := target } canonical
    have submitted :=
      adoptIntent_submitted { r.order with paymentState := target } canonical
    by_cases paid : target = .paid
    · have unsettled : ¬Settled r.order.paymentState := by
        rw [paid] at edge
        revert edge
        cases r.order.paymentState <;> decide
      have waited := resumable.unpaid unsettled
      have paidNow : (adoptIntent { r.order with paymentState := target }
          canonical).paymentState = .paid := payment.trans paid
      have whole : applyToRecord event canonical now jobId messageId r =
          { enqueueFulfillment (settleOrder (adoptIntent
              { r.order with paymentState := target } canonical)) now jobId messageId r with
            order := settleOrder (adoptIntent { r.order with paymentState := target } canonical)
            stateEvents := r.stateEvents ++ [newStateEvent r (.stripe event.eventId)
              .stripeWebhook (settleOrder (adoptIntent
                { r.order with paymentState := target } canonical)) now] } := by
        have settledPaid : (settleOrder (adoptIntent { r.order with paymentState := target }
            canonical)).paymentState = .paid := by
          rw [settleOrder, if_pos paidNow]
          exact paidNow
        simp only [applyToRecord, applied]
        rw [if_pos settledPaid]
      have queued : settleOrder (adoptIntent { r.order with paymentState := target } canonical) =
          { adoptIntent { r.order with paymentState := target } canonical with
            fulfillmentState := .queued } := by
        rw [settleOrder, if_pos paidNow]
      rw [whole, queued]
      have empty : ∀ order : Order,
          (enqueueFulfillment order now jobId messageId r).proofs = [] := by
        intro order
        rw [enqueueFulfillment_proofs]
        exact resumable.waiting waited
      constructor
      · intro unpaid
        exact absurd (Or.inl paidNow) unpaid
      · exact early_queued
      · exact Or.inl (empty _)
      · intro wrong
        cases wrong
      · intro wrong
        cases wrong
      · intro e member late
        rcases List.mem_append.1 member with known | new
        · have reached := resumable.events e known late
          rw [waited] at reached
          cases reached
        · rw [List.mem_singleton.1 new] at late
          cases late
    · have unpaid : (adoptIntent { r.order with paymentState := target }
          canonical).paymentState ≠ .paid := fun same => paid (payment.symm.trans same)
      have whole : applyToRecord event canonical now jobId messageId r =
          { r with
            order := adoptIntent { r.order with paymentState := target } canonical
            stateEvents := r.stateEvents ++ [newStateEvent r (.stripe event.eventId)
              .stripeWebhook (adoptIntent { r.order with paymentState := target } canonical)
                now] } := by
        simp only [applyToRecord, applied, settleOrder, if_neg unpaid]
      rw [whole]
      refine resumable_of_same resumable ?_ fulfillment submitted rfl ?_
      · rw [payment]
        exact Or.inr edge
      · intro e member
        rcases List.mem_append.1 member with known | new
        · exact Or.inl known
        · rw [List.mem_singleton.1 new]
          exact Or.inr fulfillment

theorem performPayment_resumable (settings : PaymentSettings) (env : PaymentEnv)
    (q : PaymentRequest) {r : OrderRecord} (resumable : Resumable r) :
    Resumable (performPayment settings env q r).2 := by
  have recorded : ∀ {r' : OrderRecord} (event : StripeEvent), Resumable r' →
      Resumable (recordStripeEvent r' event) := fun _ held =>
    ⟨held.unpaid, held.early, held.stored, held.waiting, held.pending, held.events⟩
  exact performPayment_of_events settings env q Resumable resumable
    (fun event => recorded event resumable) fun _ _ event => recorded event (applyToRecord_resumable _ _ _ _ _ resumable)

theorem bindSession_resumable {sessionId : String} {r r' : OrderRecord} (resumable : Resumable r)
    (bound : bindSession sessionId r = .ok r') : Resumable r' := by
  rw [bindSession_ok bound]
  exact resumable_of_same resumable (Or.inl rfl) rfl rfl rfl fun e member => Or.inl member

/-! ## The requests of the handler -/

/-- Merging a time changes nothing once a proof is stored. -/
theorem merged_same {r : OrderRecord} (resumable : Resumable r) (stored : r.proofs ≠ [])
    {time : Option Instant} {order : Order} (merge : mergeCalendarTime r.order time = .ok order) :
    order = r.order := by
  rcases resumable.stored with none | ⟨p, _, _, submitted⟩
  · exact absurd none stored
  · obtain ⟨merged, _⟩ := mergeCalendarTime_ok merge
    rw [merged, submitted, Option.some_or, ← submitted]

theorem resumable_merged {r : OrderRecord} (resumable : Resumable r) {time : Option Instant}
    {order : Order} (merge : mergeCalendarTime r.order time = .ok order) :
    Resumable { r with order := order } := by
  by_cases none : r.proofs = []
  · obtain ⟨merged, _⟩ := mergeCalendarTime_ok merge
    subst merged
    exact ⟨resumable.unpaid, resumable.early, Or.inl none, resumable.waiting, resumable.pending,
      resumable.events⟩
  · rw [merged_same resumable none merge]
    exact resumable

/-- A transition towards the calendars. -/
theorem transition_resumable {p : Platform} {target : FulfillmentState} {key : EventKey}
    {time : Option Instant} {now : Instant} {r r' : OrderRecord} {result : FulfillmentOrder}
    (resumable : Resumable r)
    (towards : target = .stamping ∨ (target = .calendarPending ∧ r.proofs ≠ []))
    (done : transitionFulfillmentOnce p target key time now r = .ok (result, r')) :
    result = fulfillmentOrder r'.order ∧ Resumable r' ∧ r'.proofs = r.proofs ∧
      (target = .calendarPending → r'.order.fulfillmentState = .calendarPending) := by
  obtain ⟨same, merged, merge, outcome⟩ := transitionFulfillmentOnce_ok done
  have kept := resumable_merged resumable merge
  have state : merged.fulfillmentState = r.order.fulfillmentState := by
    rw [(mergeCalendarTime_ok merge).1]
  have payment : merged.paymentState = r.order.paymentState := (merge_move merge).payment
  rcases outcome with ⟨rfl, event, found, targeted⟩ | ⟨_, edge, _, _, rfl, _⟩
  · refine ⟨same, kept, rfl, ?_⟩
    intro last
    rw [← targeted] at last
    exact state.trans (resumable.events event (List.mem_of_find?_eq_some found) last)
  · refine ⟨same, ?_, rfl, fun last => last⟩
    have begun : r.order.fulfillmentState ≠ .awaitingPayment := by
      intro waiting
      rw [waiting] at edge
      rcases towards with rfl | ⟨rfl, _⟩
      · have never : ¬FulfillmentEdge .awaitingPayment .stamping := by decide
        exact never edge
      · have never : ¬FulfillmentEdge .awaitingPayment .calendarPending := by decide
        exact never edge
    constructor
    · intro unsettled
      rw [payment] at unsettled
      exact absurd (resumable.unpaid unsettled) begun
    · rcases towards with rfl | ⟨rfl, _⟩
      · exact early_stamping
      · exact early_pending
    · exact kept.stored
    · intro wrong
      rcases towards with rfl | ⟨rfl, _⟩
      · cases wrong
      · cases wrong
    · intro last
      rcases towards with rfl | ⟨_, stored⟩
      · cases last
      · exact stored
    · intro e member late
      rcases List.mem_append.1 member with known | new
      · have reached := resumable.events e known late
        rw [reached] at edge
        rcases towards with rfl | ⟨rfl, _⟩
        · have never : ¬FulfillmentEdge .calendarPending .stamping := by decide
          exact absurd edge never
        · rfl
      · rw [List.mem_singleton.1 new] at late
        exact late

/-- The first version is stored with its time. -/
theorem append_resumable {proof : StoredProof Instant} {r r' : OrderRecord}
    (resumable : Resumable r) (none : r.proofs = [])
    (begun : r.order.fulfillmentState = .stamping) (done : append proof r = .ok r') :
    Resumable r' ∧ r'.proofs ≠ [] ∧ r'.order.fulfillmentState = .stamping := by
  obtain ⟨order, merge, _, outcome⟩ := append_ok done
  obtain ⟨merged, agrees⟩ := mergeCalendarTime_ok merge
  have latest : r.latestProof = Option.none := by
    rw [OrderRecord.latestProof, none]
    rfl
  rcases outcome with ⟨_, old, found, _⟩ | ⟨rfl, ⟨_, first⟩ | ⟨old, found, _⟩⟩
  · rw [latest] at found
    cases found
  · have state : order.fulfillmentState = .stamping := by
      rw [merged]
      exact begun
    have submitted : order.calendarSubmittedAt = some proof.calendarSubmittedAt := by
      rw [merged]
      cases known : r.order.calendarSubmittedAt with
      | none => rfl
      | some time =>
        have same := agrees time known
        exact congrArg some (eq_of_beq same)
    have proofs : (insertProof proof { r with order := order }).proofs = [newVersion proof] := by
      simp only [insertProof, none, List.nil_append]
    refine ⟨?_, ?_, state⟩
    · constructor
      · intro unsettled
        have payment : order.paymentState = r.order.paymentState := (merge_move merge).payment
        have waiting := resumable.unpaid (payment ▸ unsettled)
        rw [begun] at waiting
        cases waiting
      · exact Or.inr (Or.inr (Or.inl state))
      · exact Or.inr ⟨newVersion proof, proofs, first, submitted⟩
      · intro waiting
        cases state.symm.trans waiting
      · intro pending
        rw [proofs]
        exact List.cons_ne_nil _ _
      · intro e member late
        have reached := resumable.events e member late
        rw [begun] at reached
        cases reached
    · rw [proofs]
      exact List.cons_ne_nil _ _
  · rw [latest] at found
    cases found

/-! ## One run -/

/-- What a run leaves wherever it stops, and what it has reached when it ends normally. -/
abbrev Leaves (s : Services) {α : Type} (p : Handler α) (w : World)
    (post : α → World → Prop) : Prop :=
  Keeps (perform s) (fun _ _ _ => True) (fun w' => Resumable w'.record)
    (fun result w' => ∀ a, result = .ok a → post a w') p w

variable {s : Services} {w : World} {α : Type} {post : α → World → Prop}

theorem error_ends {e : Failure} {P : α → Prop} :
    ∀ a : α, (.error e : Except Failure α) = .ok a → P a := by
  intro a same
  cases same

theorem leaves_transition {target : FulfillmentState} {key : EventKey} {time : Option Instant}
    {f : FulfillmentOrder → Handler α} (resumable : Resumable w.record)
    (towards : target = .stamping ∨ (target = .calendarPending ∧ w.record.proofs ≠ []))
    (next : ∀ w' : World, Resumable w'.record → w'.record.proofs = w.record.proofs →
      (target = .calendarPending → w'.record.order.fulfillmentState = .calendarPending) →
        Leaves s (f (fulfillmentOrder w'.record.order)) w' post) :
    Leaves s (transition target key time >>= f) w post := by
  refine ⟨resumable, fun env _ => ?_⟩
  cases done : transitionFulfillmentOnce s.platform target key time env.now w.record with
  | error e =>
    simp only [perform, answer, done, commit]
    exact ⟨resumable, error_ends⟩
  | ok result =>
    obtain ⟨order, r'⟩ := result
    obtain ⟨same, kept, proofs, reached⟩ := transition_resumable resumable towards done
    simp only [perform, answer, done, commit]
    rw [same]
    exact next ⟨r', env.now, env.tip⟩ kept proofs reached

/-- The last transition ends the run where a stamped order belongs. -/
theorem leaves_toPending {key : EventKey} {time : Option Instant} (resumable : Resumable w.record)
    (stored : w.record.proofs ≠ []) :
    Leaves s (transition .calendarPending key time >>= fun _ => pure ()) w
      fun _ w' => w'.record.order.fulfillmentState = .calendarPending := by
  refine leaves_transition resumable (Or.inr ⟨rfl, stored⟩) ?_
  intro w' kept _ reached
  refine ⟨kept, ?_⟩
  intro _ _
  exact reached rfl

theorem latest_stored {r : OrderRecord} {latest : StoredProof Instant}
    (found : FulfillmentAdapters.latest r = some latest) : r.proofs ≠ [] := by
  intro none
  rw [FulfillmentAdapters.latest, OrderRecord.latestProof, none] at found
  cases found

theorem stored_latest {r : OrderRecord} (stored : r.proofs ≠ []) :
    ∃ latest, FulfillmentAdapters.latest r = some latest := by
  cases found : r.latestProof with
  | none => exact absurd (List.argmax_eq_none.1 found) stored
  | some p =>
    rw [FulfillmentAdapters.latest, found]
    exact ⟨_, rfl⟩

theorem latest_none {r : OrderRecord} (missing : FulfillmentAdapters.latest r = none)
    (resumable : Resumable r) : r.proofs = [] := by
  rcases resumable.stored with none | ⟨p, stored, _⟩
  · exact none
  · rw [FulfillmentAdapters.latest, OrderRecord.latestProof, stored] at missing
    cases missing

/-- With a stored proof the run only moves the order. -/
theorem leaves_stampReplay {latest : StoredProof Instant} (resumable : Resumable w.record)
    (found : FulfillmentAdapters.latest w.record = some latest) :
    Leaves s (stampReplay s (FulfillmentAdapters.getForFulfillment w.record) latest) w
      fun _ w' => w'.record.order.fulfillmentState = .calendarPending := by
  have stored := latest_stored found
  have state : (FulfillmentAdapters.getForFulfillment w.record).state.fulfillment =
      w.record.order.fulfillmentState := rfl
  unfold stampReplay
  split
  · exact ⟨resumable, error_ends⟩
  · split
    · exact ⟨resumable, error_ends⟩
    · split
      · exact ⟨resumable, error_ends⟩
      · split
        · refine leaves_transition resumable (Or.inl rfl) ?_
          intro w' kept proofs _
          exact leaves_toPending kept (proofs ▸ stored)
        · next notQueued =>
          split
          · exact leaves_toPending resumable stored
          · next notStamping =>
            refine ⟨resumable, ?_⟩
            intro _ _
            rw [state] at notQueued notStamping
            rcases resumable.early with waiting | queued | stamping | pending
            · exact absurd (resumable.waiting waiting) stored
            · exact absurd queued notQueued
            · exact absurd stamping notStamping
            · exact pending

theorem leaves_appendOnce {proof : StoredProof Instant} {f : Unit → Handler α}
    (resumable : Resumable w.record) (none : w.record.proofs = [])
    (begun : w.record.order.fulfillmentState = .stamping)
    (next : ∀ w' : World, Resumable w'.record → w'.record.proofs ≠ [] →
      Leaves s (f ()) w' post) : Leaves s (appendOnce proof >>= f) w post := by
  refine ⟨resumable, fun env _ => ?_⟩
  cases done : append proof w.record with
  | ok r' =>
    obtain ⟨kept, stored, _⟩ := append_resumable resumable none begun done
    simp only [perform, answer, done, commitUnit]
    exact next ⟨r', env.now, env.tip⟩ kept stored
  | error e =>
    simp only [perform, answer, done, commitUnit]
    cases e with
    | database => exact ⟨resumable, error_ends⟩
    | value message =>
      -- The conflict is forgiven only for a stored proof, and none is stored.
      refine ⟨resumable, fun env' _ => ?_⟩
      have missing : FulfillmentAdapters.latest w.record = Option.none := by
        rw [FulfillmentAdapters.latest, OrderRecord.latestProof, none]
        rfl
      simp only [perform, answer, missing]
      exact ⟨resumable, error_ends⟩

theorem leaves_stampSubmit {snapshot : OrderSnapshot} (resumable : Resumable w.record)
    (none : w.record.proofs = []) (begun : w.record.order.fulfillmentState = .stamping) :
    Leaves s (stampSubmit s snapshot) w
      fun _ w' => w'.record.order.fulfillmentState = .calendarPending := by
  refine ⟨resumable, fun env _ => ?_⟩
  cases answered : env.stamp with
  | error e =>
    simp only [perform, answer, answered]
    cases e with
    | proofInvalid => exact ⟨resumable, error_ends⟩
    | unavailable => exact ⟨resumable, error_ends⟩
  | ok pending =>
    simp only [perform, answer, answered, Prog.bind]
    split
    · exact ⟨resumable, error_ends⟩
    · cases made : makeStoredProof s.platform snapshot.orderReference 1 snapshot.manifestDigest
          pending.proofBytes pending.calendarSubmittedAt Option.none with
      | error e => exact ⟨resumable, error_ends⟩
      | ok stored =>
        refine @leaves_appendOnce s ⟨w.record, env.now, env.tip⟩ _ _ stored _ resumable none begun
          ?_
        intro w' kept present
        refine leaves_transition kept (Or.inl rfl) ?_
        intro w'' again proofs _
        exact leaves_toPending again (proofs ▸ present)

/-- A run of the handler from any state that another one left. -/
theorem leaves_stampHandler (resumable : Resumable w.record) :
    Leaves s (stampHandler s) w
      fun _ w' => w'.record.order.fulfillmentState = .calendarPending := by
  refine ⟨resumable, fun _ _ => ⟨resumable, fun env _ => ?_⟩⟩
  cases found : FulfillmentAdapters.latest w.record with
  | some latest =>
    simp only [perform, answer, found]
    exact @leaves_stampReplay s ⟨w.record, env.now, env.tip⟩ latest resumable found
  | none =>
    have none := latest_none found resumable
    simp only [perform, answer, found, Prog.bind]
    split
    · exact ⟨resumable, error_ends⟩
    · split
      · refine @leaves_transition s ⟨w.record, env.now, env.tip⟩ _ _ _ _ _ _ resumable
          (Or.inl rfl) ?_
        intro w' kept proofs _
        split
        · exact ⟨kept, error_ends⟩
        · next begun => exact leaves_stampSubmit kept (proofs.trans none) (not_not.1 begun)
      · have read : ∀ {β : Type} (order : FulfillmentOrder) (f : FulfillmentOrder → Handler β),
            (pure order >>= f) = f order := fun _ _ => rfl
        rw [read]
        split
        · exact ⟨resumable, error_ends⟩
        · next begun =>
          exact @leaves_stampSubmit s ⟨w.record, env.now, env.tip⟩ _ resumable none
            (not_not.1 begun)

/-- A run that ends normally has reached what it promises. -/
theorem serve_reaches {p : Handler α} {envs : List Env} {a : α} (leaves : Leaves s p w post)
    (ended : (serve (perform s) p envs w).1 = some (.ok a)) :
    Resumable (serve (perform s) p envs w).2.record ∧ post a (serve (perform s) p envs w).2 := by
  induction p generalizing envs w with
  | done b =>
    cases ended
    exact ⟨leaves.1, leaves.2 _ rfl⟩
  | fail e => cases ended
  | ask q k ih =>
    cases envs with
    | nil => cases ended
    | cons env rest => exact ih _ (leaves.2 env trivial) ended

/-! ## No submission without need -/

def contacts : Request → Bool
  | .stampExactDigest _ => true
  | _ => false

theorem quiet_transition {target : FulfillmentState} {key : EventKey} {time : Option Instant} :
    Only (fun q => contacts q = false) (transition target key time) :=
  ⟨rfl, fun reply => HandlerRequests.only_adapter reply⟩

theorem quiet_stampReplay (order : FulfillmentOrder) (latest : StoredProof Instant) :
    Only (fun q => contacts q = false) (stampReplay s order latest) := by
  unfold stampReplay
  split
  · trivial
  · split
    · trivial
    · split
      · trivial
      · split
        · exact only_bind quiet_transition fun _ => only_bind quiet_transition fun _ => trivial
        · split
          · exact only_bind quiet_transition fun _ => trivial
          · trivial

/-- A stored proof, or a payment that does not stand, keeps the run away from the calendars. -/
theorem no_contact (envs : List Env)
    (start : w.record.proofs ≠ [] ∨ w.record.order.paymentState ≠ .paid) :
    Along (perform s) (fun _ q _ => contacts q = false) (stampHandler s) envs w := by
  cases envs with
  | nil => trivial
  | cons first envs =>
    refine ⟨rfl, ?_⟩
    cases envs with
    | nil => trivial
    | cons second envs =>
      refine ⟨rfl, ?_⟩
      cases found : FulfillmentAdapters.latest w.record with
      | some latest =>
        simp only [perform, answer, found]
        exact along_of_only (quiet_stampReplay _ latest)
      | none =>
        have unpaid : (FulfillmentAdapters.getForFulfillment w.record).state.payment ≠ .paid := by
          rcases start with stored | unpaid
          · obtain ⟨p, latest⟩ := stored_latest stored
            rw [found] at latest
            cases latest
          · exact unpaid
        simp only [perform, answer, found, Prog.bind]
        rw [if_pos unpaid]
        trivial

/-! ## Any number of runs -/

variable {settings : PaymentSettings}

/-- One phase, wherever it stops. -/
theorem phase_resumable (phase : Phase) (resumable : Resumable w.record) :
    Resumable (phaseStep s settings w phase).record := by
  cases phase with
  | run envs =>
    refine serve_keeps (leaves_stampHandler resumable) ?_
    exact along_of_only only_any
  | payment env q => exact performPayment_resumable settings env q resumable
  | bindSession sessionId =>
    simp only [phaseStep, arriveOrder]
    cases bound : bindSession sessionId w.record with
    | error message => exact resumable
    | ok r' => exact bindSession_resumable resumable bound

theorem phases_resumable (phases : List Phase) (resumable : Resumable w.record) :
    Resumable (phases.foldl (phaseStep s settings) w).record := by
  induction phases generalizing w with
  | nil => exact resumable
  | cons phase rest ih => exact ih (phase_resumable phase resumable)

/-- After any runs that stopped anywhere and any payments, a run that ends normally leaves one
proof at version one, the order with the calendars and one submission time; and a run contacts
a calendar only for a paid order without a proof. -/
theorem stamping_survives_crashes (s : Services) (settings : PaymentSettings) (w : World)
    (opened : Opened w.record) (phases : List Phase) (envs : List Env) :
    ((serve (perform s) (stampHandler s) envs (phases.foldl (phaseStep s settings) w)).1 =
        some (.ok ()) →
      Stamped (serve (perform s) (stampHandler s) envs
        (phases.foldl (phaseStep s settings) w)).2.record) ∧
    ((phases.foldl (phaseStep s settings) w).record.proofs ≠ [] ∨
        (phases.foldl (phaseStep s settings) w).record.order.paymentState ≠ .paid →
      Along (perform s) (fun _ q _ => contacts q = false) (stampHandler s) envs
        (phases.foldl (phaseStep s settings) w)) := by
  have resumable : Resumable (phases.foldl (phaseStep s settings) w).record :=
    phases_resumable phases opened.resumable
  constructor
  · intro ended
    obtain ⟨kept, reached⟩ := serve_reaches (leaves_stampHandler resumable) ended
    exact kept.stamped reached
  · intro start
    exact no_contact envs start

open VerifiedOrders (sampleServices sampleTime sampleEnv stampedBytes)

def refundEvent : ProviderEvent :=
  { paidEvent with
    eventId := "evt_2"
    eventType := .chargeRefunded
    refundStatus := some "succeeded"
    refundedAmount := some 500 }

def refundedCheckout : CanonicalCheckout :=
  { paidCheckout with
    refundStatus := some "succeeded"
    refundedAmountTotal := 500 }

/-- The order is paid, a run stops right after it stored the proof, and the money goes back. -/
def crashThenRefund : List Phase :=
  [.bindSession "cs_live_1",
    .payment (paymentEnv 1 paidCheckout)
      (.commitEvent paidEvent samplePayload (some paidCheckout)),
    .run (List.replicate 5 (sampleEnv 2 2 stampedBytes)),
    .payment (paymentEnv 3 refundedCheckout)
      (.commitEvent refundEvent samplePayload (some refundedCheckout))]

set_option maxRecDepth 4000 in
theorem refunded_order_is_stamped :
    ((crashThenRefund.foldl (phaseStep sampleServices sampleSettings)
        ⟨createdRecord, sampleTime 0, 100⟩).record.order.paymentState = .refunded ∧
      (crashThenRefund.foldl (phaseStep sampleServices sampleSettings)
        ⟨createdRecord, sampleTime 0, 100⟩).record.order.fulfillmentState = .stamping) ∧
      Stamped (serve (perform sampleServices) (stampHandler sampleServices)
        (List.replicate 3 (sampleEnv 4 3 stampedBytes))
        (crashThenRefund.foldl (phaseStep sampleServices sampleSettings)
          ⟨createdRecord, sampleTime 0, 100⟩)).2.record := by
  have opened : Opened createdRecord :=
    ⟨rfl, rfl, rfl, fun _ member => absurd member List.not_mem_nil⟩
  refine ⟨⟨by decide, by decide⟩, ?_⟩
  refine (stamping_survives_crashes sampleServices sampleSettings
    ⟨createdRecord, sampleTime 0, 100⟩ opened crashThenRefund _).1 ?_
  rfl

end StampRecovery
