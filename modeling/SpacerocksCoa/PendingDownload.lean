import SpacerocksCoa.ProofStore
import SpacerocksCoa.RepeatedDelivery
import SpacerocksCoa.TokenRotation

/-!
# Downloading a pending proof

The route that returns the bundle of an order's latest proof. A verified order has a stored
bundle, which one transaction returns. For a pending order a first transaction selects the
version, the bundle is built outside any transaction, and a second one checks the selection and
records the download.

Each transaction first authenticates the token, which locks the token row and loads the order
without a lock, and then locks the order; the session shows the columns it has loaded, whatever
was committed while it waited for the lock. So a transaction is two steps here, and other
transactions may come between them.
-/
namespace PendingDownload
open OrderStates ProofRecords OrderRows
open ProofStore (Rows ProofMetadata latestForOrder latestMetadata)
open CheckoutReservations (HashedToken OrderToken)
open TokenRotation (authentic tokenOf)
open RepeatedDelivery (Bundling)

/-! ## Requests -/

structure Route where
  database : ProofStore.Database
  bundling : Bundling

/-- What the first transaction leaves: the order as it was loaded, the proof that was read and
the columns of its row. -/
structure Selection where
  order : Order
  stored : StoredProof Instant
  selected : ProofMetadata
  deriving DecidableEq

/-- A request before its first transaction, in it, between the two, in the second one with the
instant of its authentication, and at its end. -/
inductive Phase where
  | presented
  | authenticated (loaded : Order)
  | selected (s : Selection)
  | built (s : Selection) (bundle : Bytes)
  | again (s : Selection) (bundle : Bytes) (now : Instant) (loaded : Order)
  | returned (bundle : Bytes)
  | refused
  deriving DecidableEq

structure DownloadRequest where
  token : HashedToken
  phase : Phase
  deriving DecidableEq

inductive ArtifactKind where
  | persistedVerified | generatedPending
  deriving DecidableEq, Repr

/-- The state event of a download, with the request that wrote it. -/
structure DownloadEvent where
  request : Nat
  id : Nat
  proofVersion : Nat
  artifactSha256 : Sha256
  artifactKind : ArtifactKind
  paymentState : PaymentState
  fulfillmentState : FulfillmentState
  deriving DecidableEq

/-- What the transaction that records a pending download meets. -/
structure Grant where
  request : Nat
  selection : Selection
  bundle : Bytes
  authenticatedAt : Instant
  token : Option OrderToken
  rows : Rows

structure World where
  rows : Rows
  bundles : List ProofBundle
  tokens : List OrderToken
  requests : List DownloadRequest
  events : List DownloadEvent
  grants : List Grant

/-! ## The route -/

/-- `authenticate`; the order is the one of the token. -/
def authenticate (token : HashedToken) (now : Instant) (w : World) : Option Order :=
  match tokenOf w.tokens token with
  | none => none
  | some stored =>
    if authentic stored now = true ∧ stored.orderId = w.rows.order.id then some w.rows.order
    else none

def validBundle (r : Route) (bundle : ProofBundle) : Bool :=
  decide (1 ≤ bundle.bundleBytes.length) &&
    decide (bundle.bundleBytes.length ≤ FulfillmentAdapters.maxBundleBytes) &&
    r.database.sha256 bundle.bundleBytes == bundle.bundleSha256

/-- `record_download_event`: the states are the ones that the session holds. -/
def newEvent (request id version : Nat) (sha256 : Sha256) (kind : ArtifactKind) (loaded : Order) :
    DownloadEvent :=
  ⟨request, id, version, sha256, kind, loaded.paymentState, loaded.fulfillmentState⟩

/-- The first transaction once it has the lock on the order. -/
def select (r : Route) (request id : Nat) (loaded : Order) (w : World) :
    Phase × Option DownloadEvent :=
  if loaded.fulfillmentState = .manualReview then (.refused, none)
  else if loaded.fulfillmentState ≠ .calendarPending ∧
      loaded.fulfillmentState ≠ .bitcoinVerified ∧ loaded.fulfillmentState ≠ .delivered then
    (.refused, none)
  else
    match latestForOrder r.database { w.rows with order := loaded } with
    | .error _ => (.refused, none)
    | .ok none => (.refused, none)
    | .ok (some stored) =>
      if loaded.fulfillmentState = .bitcoinVerified ∨ loaded.fulfillmentState = .delivered then
        if stored.verification = none then (.refused, none)
        else
          match w.bundles.find? fun bundle => bundle.proofVersion == stored.version with
          | none => (.refused, none)
          | some record =>
            if validBundle r record then
              (.returned record.bundleBytes, some (newEvent request id stored.version
                record.bundleSha256 .persistedVerified loaded))
            else (.refused, none)
      else if stored.verification ≠ none then (.refused, none)
      else
        match latestMetadata w.rows with
        | .ok (some selected) => (.selected ⟨loaded, stored, selected⟩, none)
        | _ => (.refused, none)

/-- The receipt of the route and its bundle. -/
def routeBundle (b : Bundling) (order : Order) (stored : StoredProof Instant) :
    Except String Bytes :=
  match Receipts.routeReceipt order.snapshot.orderReference.value
      order.snapshot.certificateReference.value order.snapshot.manifestDigest.value
      (b.proof stored) b.serviceVersion with
  | .error code => .error code
  | .ok receipt =>
    b.build (b.proof stored) (b.dumps receipt)
      ⟨order.snapshot.certificateReference, b.serviceVersion⟩

/-- `_pending_selection_is_current` -/
def pendingSelectionIsCurrent (order : Order) (s : Selection) : Bool :=
  decide (order.id = s.order.id) &&
    decide (order.snapshot.orderReference = s.order.snapshot.orderReference) &&
    decide (order.snapshot.certificateReference = s.order.snapshot.certificateReference) &&
    decide (order.snapshot.manifestDigest = s.order.snapshot.manifestDigest) &&
    decide (order.fulfillmentState = .calendarPending) &&
    decide (s.selected.targetDigest = s.order.snapshot.manifestDigest) &&
    decide (s.selected.proofState = .calendarPending)

/-- The second transaction once it has the lock on the order. -/
def record (r : Route) (request id : Nat) (s : Selection) (bundle : Bytes) (loaded : Order)
    (w : World) : Phase × Option DownloadEvent :=
  if pendingSelectionIsCurrent loaded s = false then (.refused, none)
  else
    match latestMetadata w.rows with
    | .error _ => (.refused, none)
    | .ok current =>
      if current ≠ some s.selected then (.refused, none)
      else (.returned bundle, some (newEvent request id s.stored.version
        (r.database.sha256 bundle) .generatedPending loaded))

/-! ## Runs -/

inductive Move where
  | authenticate (request : Nat) (now : Instant)
  | select (request id : Nat)
  | build (request : Nat)
  | authenticateAgain (request : Nat) (now : Instant)
  | record (request id : Nat)

def World.setPhase (w : World) (i : Nat) (phase : Phase) : World :=
  { w with requests := w.requests.modify i fun x => { x with phase := phase } }

/-- A transaction commits with its event, unless the key of the event is taken. -/
def World.commit (w : World) (i : Nat) (result : Phase × Option DownloadEvent) : World :=
  match result.2 with
  | none => w.setPhase i result.1
  | some event =>
    if w.events.any (fun e => e.id == event.id) then w.setPhase i .refused
    else { w.setPhase i result.1 with events := w.events ++ [event] }

def authenticated (loaded : Option Order) (next : Order → Phase) : Phase :=
  match loaded with
  | none => .refused
  | some order => next order

/-- One step of a request; nothing happens when the request is elsewhere. -/
def step (r : Route) (w : World) : Move → World
  | .authenticate i now =>
    match w.requests[i]? with
    | some ⟨token, .presented⟩ =>
      w.setPhase i (authenticated (authenticate token now w) .authenticated)
    | _ => w
  | .select i id =>
    match w.requests[i]? with
    | some ⟨_, .authenticated loaded⟩ => w.commit i (select r i id loaded w)
    | _ => w
  | .build i =>
    match w.requests[i]? with
    | some ⟨_, .selected s⟩ =>
      match routeBundle r.bundling s.order s.stored with
      | .ok bundle => w.setPhase i (.built s bundle)
      | .error _ => w.setPhase i .refused
    | _ => w
  | .authenticateAgain i now =>
    match w.requests[i]? with
    | some ⟨token, .built s bundle⟩ =>
      w.setPhase i (authenticated (authenticate token now w) (.again s bundle now))
    | _ => w
  | .record i id =>
    match w.requests[i]? with
    | some ⟨token, .again s bundle now loaded⟩ =>
      let committed := w.commit i (record r i id s bundle loaded w)
      if committed.events.length = w.events.length then committed
      else
        { committed with
          grants := w.grants ++ [⟨i, s, bundle, now, tokenOf w.tokens token, w.rows⟩] }
    | _ => w

/-- The token row that an open transaction holds. -/
def Phase.holdsToken : Phase → Bool
  | .authenticated _ => true
  | .again _ _ _ _ => true
  | _ => false

/-- Other transactions write no download and leave a token row that is locked. -/
structure Others (w w' : World) : Prop where
  requests : w'.requests = w.requests
  events : w'.events = w.events
  grants : w'.grants = w.grants
  locked : ∀ x ∈ w.requests, x.phase.holdsToken = true →
    tokenOf w'.tokens x.token = tokenOf w.tokens x.token

/-- The worlds that requests lead to, in any order and with any other transactions between
their steps, as long as the steps are of a kind. -/
inductive Reached (r : Route) (allowed : World → Move → Prop) (start : World) : World → Prop
  | start : Reached r allowed start start
  | arrive {w : World} (before : Reached r allowed start w) (token : HashedToken) :
      Reached r allowed start { w with requests := w.requests ++ [⟨token, .presented⟩] }
  | move {w : World} (before : Reached r allowed start w) (m : Move) (ok : allowed w m) :
      Reached r allowed start (step r w m)
  | others {w w' : World} (before : Reached r allowed start w) (between : Others w w') :
      Reached r allowed start w'

/-! ## What is true of every run -/

/-- The bundle that ends a request. -/
def Phase.bundle : Phase → Option Bytes
  | .returned bundle => some bundle
  | _ => none

/-- The proof that was read is the version whose row was selected. -/
structure SameVersion (s : Selection) : Prop where
  version : s.stored.version = s.selected.version
  digest : s.stored.targetDigest = s.selected.targetDigest
  checksum : s.stored.proofSha256 = s.selected.proofSha256
  length : s.stored.proofBytes.length = s.selected.actualLength
  submitted : s.stored.calendarSubmittedAt = s.selected.calendarSubmittedAt

/-- The claim of a bundle that is returned: the token is live, the order is still pending, and
its latest version is the one of which the bundle was built. -/
structure Honest (r : Route) (g : Grant) : Prop where
  token : ∃ t, g.token = some t ∧ authentic t g.authenticatedAt = true
  pending : g.rows.order.fulfillmentState = .calendarPending
  current : latestMetadata g.rows = .ok (some g.selection.selected)
  same : SameVersion g.selection
  built : routeBundle r.bundling g.selection.order g.selection.stored = .ok g.bundle

def PhaseKept (r : Route) (tokens : List OrderToken) (token : HashedToken) : Phase → Prop
  | .selected s => SameVersion s
  | .built s bundle => SameVersion s ∧ routeBundle r.bundling s.order s.stored = .ok bundle
  | .again s bundle now _ => (SameVersion s ∧
      routeBundle r.bundling s.order s.stored = .ok bundle) ∧
      ∃ t, tokenOf tokens token = some t ∧ authentic t now = true
  | _ => True

/-- A returned bundle has one event, with its hash; any other request has none. -/
def EventsOf (r : Route) (w : World) (i : Nat) (phase : Phase) : Prop :=
  match phase.bundle with
  | none => w.events.filter (fun e => e.request == i) = []
  | some bundle => ∃ e, w.events.filter (fun e => e.request == i) = [e] ∧
      e.artifactSha256 = r.database.sha256 bundle ∧
      (e.artifactKind = .generatedPending → ∃ g ∈ w.grants, g.request = i ∧ g.bundle = bundle)

structure Kept (r : Route) (w : World) : Prop where
  phases : ∀ i x, w.requests[i]? = some x →
    PhaseKept r w.tokens x.token x.phase ∧ EventsOf r w i x.phase
  seen : ∀ e ∈ w.events, e.request < w.requests.length
  grants : ∀ g ∈ w.grants, Honest r g

section Fields
variable {d : ProofStore.Database}

theorem checkStored_same {T : Type} {proof stored : StoredProof T}
    (done : ProofStore.checkStored d proof = .ok stored) : stored = proof := by
  unfold ProofStore.checkStored at done
  split at done
  · cases done
  · split at done
    · cases done
    · split at done
      · cases done
      · split at done
        · cases done
        · exact (Except.ok.inj done).symm

/-- The proof that is read has the columns of the row that the metadata show. -/
theorem latestForOrder_fields {rows : Rows} {stored : StoredProof Instant}
    (done : latestForOrder d rows = .ok (some stored)) :
    ∃ m, latestMetadata rows = .ok (some m) ∧ stored.version = m.version ∧
      stored.targetDigest = m.targetDigest ∧ stored.proofSha256 = m.proofSha256 ∧
      stored.proofBytes.length = m.actualLength ∧
      stored.calendarSubmittedAt = m.calendarSubmittedAt := by
  unfold latestForOrder at done
  split at done
  · cases done
  · cases done
  · next m chosen =>
    refine ⟨m, chosen, ?_⟩
    split at done
    · cases done
    · next row _ =>
      split at done
      · cases done
      · next same =>
        have columns : row.metadata = m := not_not.1 same
        subst columns
        dsimp only at done
        split at done
        · next proof read =>
          cases done
          unfold ProofStore.storedProof at read
          split at read
          · cases read
          · split at read
            · cases read
            · cases checkStored_same read
              exact ⟨rfl, rfl, rfl, rfl, rfl⟩
        · cases done

end Fields

/-- A selection without an event matches its row; an event goes with the stored bundle. -/
theorem select_cases {r : Route} {i id : Nat} (token : HashedToken) {loaded : Order}
    {w : World} {phase : Phase} {event : Option DownloadEvent} (done : select r i id loaded w = (phase, event)) :
    (event = none ∧ phase.bundle = none ∧ PhaseKept r w.tokens token phase) ∨
      ∃ bundle e, phase = .returned bundle ∧ event = some e ∧ e.request = i ∧ e.id = id ∧
        e.artifactSha256 = r.database.sha256 bundle ∧ e.artifactKind = .persistedVerified := by
  have refused : ∀ {p : Phase × Option DownloadEvent}, p = (.refused, none) → p = (phase, event) →
      event = none ∧ phase.bundle = none ∧ PhaseKept r w.tokens token phase := by
    rintro _ rfl same
    cases same
    exact ⟨rfl, rfl, trivial⟩
  unfold select at done
  split at done
  · exact Or.inl (refused rfl done)
  split at done
  · exact Or.inl (refused rfl done)
  split at done
  · exact Or.inl (refused rfl done)
  · exact Or.inl (refused rfl done)
  next stored read =>
    split at done
    · split at done
      · exact Or.inl (refused rfl done)
      split at done
      · exact Or.inl (refused rfl done)
      next bundle _ =>
        split at done
        · next valid =>
          cases done
          simp only [validBundle, Bool.and_eq_true, beq_iff_eq] at valid
          exact Or.inr ⟨_, _, rfl, rfl, rfl, rfl, valid.2.symm, rfl⟩
        · exact Or.inl (refused rfl done)
    · split at done
      · exact Or.inl (refused rfl done)
      split at done
      · next selected latest =>
        cases done
        obtain ⟨m, chosen, version, digest, checksum, length, submitted⟩ :=
          latestForOrder_fields read
        have same : latestMetadata w.rows = .ok (some m) := chosen
        cases latest.symm.trans same
        exact Or.inl ⟨rfl, rfl, version, digest, checksum, length, submitted⟩
      · exact Or.inl (refused rfl done)

/-- A download is recorded only when the order looked pending and the version is the latest. -/
theorem record_cases {r : Route} {i id : Nat} {s : Selection} {bundle : Bytes} {loaded : Order}
    {w : World} {phase : Phase} {event : Option DownloadEvent}
    (done : record r i id s bundle loaded w = (phase, event)) :
    (phase = .refused ∧ event = none) ∨
      (phase = .returned bundle ∧ loaded.fulfillmentState = .calendarPending ∧
        latestMetadata w.rows = .ok (some s.selected) ∧
        ∃ e, event = some e ∧ e.request = i ∧ e.id = id ∧
          e.artifactSha256 = r.database.sha256 bundle) := by
  unfold record at done
  split at done
  · cases done
    exact Or.inl ⟨rfl, rfl⟩
  next current =>
    split at done
    · cases done
      exact Or.inl ⟨rfl, rfl⟩
    next found read =>
      split at done
      · cases done
        exact Or.inl ⟨rfl, rfl⟩
      · next same =>
        cases done
        have pending := Bool.eq_true_of_not_eq_false current
        simp only [pendingSelectionIsCurrent, Bool.and_eq_true, decide_eq_true_eq] at pending
        exact Or.inr ⟨rfl, pending.1.1.2, by rw [read, not_not.1 same], _, rfl, rfl, rfl, rfl⟩

/-! ### One step -/

section Step
variable {r : Route} {w : World}

theorem setPhase_get (i j : Nat) (phase : Phase) : (w.setPhase i phase).requests[j]? =
    if i = j then (w.requests[j]?).map (fun x => { x with phase := phase })
    else w.requests[j]? := by
  unfold World.setPhase
  rw [List.getElem?_modify]
  by_cases same : i = j
  · simp only [if_pos same]
    rfl
  · simp only [if_neg same]
    exact id_map _

theorem setPhase_length (i : Nat) (phase : Phase) :
    (w.setPhase i phase).requests.length = w.requests.length := List.length_modify ..

/-- An open request moves to another phase without a bundle. -/
theorem Kept.setPhase (kept : Kept r w) {i : Nat} {x : DownloadRequest} {phase : Phase}
    (found : w.requests[i]? = some x) (opened : x.phase.bundle = none)
    (next : phase.bundle = none) (new : PhaseKept r w.tokens x.token phase) :
    Kept r (w.setPhase i phase) := by
  refine ⟨fun j y at_j => ?_, fun e member => ?_, kept.grants⟩
  · rw [setPhase_get] at at_j
    by_cases same : i = j
    · subst same
      rw [if_pos rfl, found] at at_j
      cases at_j
      have none := (kept.phases i x found).2
      unfold EventsOf at none ⊢
      rw [opened] at none
      simp only [next]
      exact ⟨new, none⟩
    · rw [if_neg same] at at_j
      exact kept.phases j y at_j
  · rw [setPhase_length]
    exact kept.seen e member

/-- An open request ends with a bundle, its event and what its transaction met. -/
theorem Kept.recorded (kept : Kept r w) {i : Nat} {x : DownloadRequest} {bundle : Bytes}
    {event : DownloadEvent} {new : List Grant} (found : w.requests[i]? = some x)
    (opened : x.phase.bundle = none) (own : event.request = i)
    (hash : event.artifactSha256 = r.database.sha256 bundle)
    (granted : event.artifactKind = .generatedPending →
      ∃ g ∈ new, g.request = i ∧ g.bundle = bundle)
    (honest : ∀ g ∈ new, Honest r g) :
    Kept r { w.setPhase i (.returned bundle) with
      events := w.events ++ [event], grants := w.grants ++ new } := by
  refine ⟨fun j y at_j => ?_, fun e member => ?_, fun g member => ?_⟩
  · have at_j' : (w.setPhase i (.returned bundle)).requests[j]? = some y := at_j
    rw [setPhase_get] at at_j'
    by_cases same : i = j
    · subst same
      rw [if_pos rfl, found] at at_j'
      cases at_j'
      have none := (kept.phases i x found).2
      unfold EventsOf at none
      rw [opened] at none
      refine ⟨trivial, event, ?_, hash, fun kind => ?_⟩
      · rw [List.filter_append, none]
        simp [own]
      · obtain ⟨g, member, request, same⟩ := granted kind
        exact ⟨g, List.mem_append_right _ member, request, same⟩
    · rw [if_neg same] at at_j'
      obtain ⟨phase, events⟩ := kept.phases j y at_j'
      have other : (event.request == j) = false := by
        rw [own]
        exact beq_false_of_ne same
      have filtered : (w.events ++ [event]).filter (fun e => e.request == j) =
          w.events.filter fun e => e.request == j := by
        simp [List.filter_append, other]
      refine ⟨phase, ?_⟩
      unfold EventsOf at events ⊢
      simp only [filtered]
      cases shut : y.phase.bundle with
      | none =>
        rw [shut] at events
        exact events
      | some old =>
        rw [shut] at events
        obtain ⟨e, only, same, granted⟩ := events
        refine ⟨e, only, same, fun kind => ?_⟩
        obtain ⟨g, member, request⟩ := granted kind
        exact ⟨g, List.mem_append_left _ member, request⟩
  · show e.request < (w.setPhase i (.returned bundle)).requests.length
    rw [setPhase_length]
    rcases List.mem_append.1 member with old | added
    · exact kept.seen e old
    · rw [List.mem_singleton.1 added, own]
      exact (List.getElem?_eq_some_iff.1 found).1
  · exact (List.mem_append.1 member).elim (kept.grants g) (honest g)

end Step

/-! ### Every step -/

/-- The order left its state between the load and the lock, without a new version. -/
def Overtaken (s : Selection) (loaded : Order) (rows : Rows) : Prop :=
  loaded.fulfillmentState = .calendarPending ∧ rows.order.fulfillmentState ≠ .calendarPending ∧
    latestMetadata rows = .ok (some s.selected)

/-- No request records in an order that was overtaken. -/
def NotOvertaken (w : World) : Move → Prop
  | .record i _ => ∀ token s bundle now loaded,
      w.requests[i]? = some ⟨token, .again s bundle now loaded⟩ → ¬Overtaken s loaded w.rows
  | _ => True

section Steps
variable {r : Route} {w : World}

theorem authenticate_live {token : HashedToken} {now : Instant} {order : Order}
    (done : authenticate token now w = some order) :
    ∃ t, tokenOf w.tokens token = some t ∧ authentic t now = true := by
  unfold authenticate at done
  split at done
  · cases done
  · next t found =>
    split at done
    · next live => exact ⟨t, found, live.1⟩
    · cases done

theorem Kept.commit (kept : Kept r w) {i : Nat} {x : DownloadRequest}
    (found : w.requests[i]? = some x) (opened : x.phase.bundle = none)
    {result : Phase × Option DownloadEvent}
    (cases : (result.2 = none ∧ result.1.bundle = none ∧
        PhaseKept r w.tokens x.token result.1) ∨
      ∃ bundle e, result.1 = .returned bundle ∧ result.2 = some e ∧ e.request = i ∧
        e.artifactSha256 = r.database.sha256 bundle ∧ e.artifactKind = .persistedVerified) :
    Kept r (w.commit i result) := by
  rcases cases with ⟨none, shut, new⟩ | ⟨bundle, e, phase, some, own, hash, kind⟩
  · unfold World.commit
    rw [none]
    exact kept.setPhase found opened shut new
  · unfold World.commit
    rw [some, phase]
    dsimp only
    split
    · exact kept.setPhase found opened rfl trivial
    · have recorded := @Kept.recorded r w kept i x bundle e [] found opened own hash
        (fun pending => by rw [kind] at pending; cases pending)
        (fun g none => absurd none List.not_mem_nil)
      rwa [List.append_nil] at recorded

/-- What the second transaction of a request does. -/
theorem record_step {i id : Nat} {token : HashedToken} {s : Selection} {bundle : Bytes}
    {now : Instant} {loaded : Order}
    (found : w.requests[i]? = some ⟨token, .again s bundle now loaded⟩) :
    step r w (.record i id) = w.setPhase i .refused ∨
      (loaded.fulfillmentState = .calendarPending ∧
        latestMetadata w.rows = .ok (some s.selected) ∧
        ∃ e, e.request = i ∧ e.artifactSha256 = r.database.sha256 bundle ∧
          step r w (.record i id) = { w.setPhase i (.returned bundle) with
            events := w.events ++ [e]
            grants := w.grants ++ [⟨i, s, bundle, now, tokenOf w.tokens token, w.rows⟩] }) := by
  simp only [step, found]
  cases done : record r i id s bundle loaded w with
  | mk phase event =>
    obtain ⟨rfl, rfl⟩ | ⟨rfl, pending, latest, e, rfl, own, -, hash⟩ := record_cases done
    · exact Or.inl (if_pos rfl)
    · by_cases taken : w.events.any (fun other => other.id == e.id) = true
      · have same : w.commit i (.returned bundle, some e) = w.setPhase i .refused := if_pos taken
        rw [same]
        exact Or.inl (if_pos rfl)
      · have same : w.commit i (.returned bundle, some e) =
            { w.setPhase i (.returned bundle) with events := w.events ++ [e] } := if_neg taken
        have longer : ¬(w.events ++ [e]).length = w.events.length := by simp
        rw [same]
        exact Or.inr ⟨pending, latest, e, own, hash, if_neg longer⟩

theorem Kept.step (kept : Kept r w) (m : Move) (ok : NotOvertaken w m) : Kept r (step r w m) := by
  cases m with
  | authenticate i now =>
    unfold PendingDownload.step
    dsimp only
    split
    · next token found =>
      cases loaded : authenticate token now w with
      | none => exact kept.setPhase found rfl rfl trivial
      | some order => exact kept.setPhase found rfl rfl trivial
    · exact kept
  | select i id =>
    unfold PendingDownload.step
    dsimp only
    split
    · next token loaded found =>
      cases done : PendingDownload.select r i id loaded w with
      | mk phase event =>
        refine kept.commit found rfl ?_
        obtain none | ⟨bundle, e, rfl, rfl, own, -, hash, kind⟩ := select_cases token done
        · exact Or.inl none
        · exact Or.inr ⟨bundle, e, rfl, rfl, own, hash, kind⟩
    · exact kept
  | build i =>
    unfold PendingDownload.step
    dsimp only
    split
    · next token s found =>
      have same : SameVersion s := (kept.phases i _ found).1
      split
      · next bundle built => exact kept.setPhase found rfl rfl ⟨same, built⟩
      · exact kept.setPhase found rfl rfl trivial
    · exact kept
  | authenticateAgain i now =>
    unfold PendingDownload.step
    dsimp only
    split
    · next token s bundle found =>
      have built : SameVersion s ∧ routeBundle r.bundling s.order s.stored = .ok bundle :=
        (kept.phases i _ found).1
      cases loaded : authenticate token now w with
      | none => exact kept.setPhase found rfl rfl trivial
      | some order => exact kept.setPhase found rfl rfl ⟨built, authenticate_live loaded⟩
    · exact kept
  | record i id =>
    by_cases inside : ∃ token s bundle now loaded,
        w.requests[i]? = some ⟨token, .again s bundle now loaded⟩
    · obtain ⟨token, s, bundle, now, loaded, found⟩ := inside
      obtain ⟨⟨same, built⟩, live⟩ := (kept.phases i _ found).1
      rcases @record_step r w i id token s bundle now loaded found with refused |
        ⟨pending, latest, e, own, hash, granted⟩
      · rw [refused]
        exact kept.setPhase found rfl rfl trivial
      · rw [granted]
        refine kept.recorded found rfl own hash (fun _ => ⟨_, List.mem_singleton_self _, rfl, rfl⟩)
          fun g member => ?_
        rw [List.mem_singleton.1 member]
        refine ⟨live, ?_, latest, same, built⟩
        by_contra left
        exact ok token s bundle now loaded found ⟨pending, left, latest⟩
    · have idle : PendingDownload.step r w (.record i id) = w := by
        unfold PendingDownload.step
        dsimp only
        split
        · next token s bundle now loaded found =>
          exact absurd ⟨token, s, bundle, now, loaded, found⟩ inside
        · rfl
      rw [idle]
      exact kept

theorem Kept.others {w' : World} (kept : Kept r w) (between : Others w w') : Kept r w' := by
  refine ⟨fun i x found => ?_, ?_, ?_⟩
  · rw [between.requests] at found
    obtain ⟨phase, events⟩ := kept.phases i x found
    refine ⟨?_, ?_⟩
    · cases at_x : x.phase with
      | again s bundle now loaded =>
        rw [at_x] at phase
        have held : x.phase.holdsToken = true := by
          rw [at_x]
          rfl
        obtain ⟨built, live⟩ := phase
        refine ⟨built, ?_⟩
        rw [between.locked x (List.mem_of_getElem? found) held]
        exact live
      | presented => trivial
      | authenticated => trivial
      | selected s =>
        rw [at_x] at phase
        exact phase
      | built s bundle =>
        rw [at_x] at phase
        exact phase
      | returned => trivial
      | refused => trivial
    · unfold EventsOf at events ⊢
      rw [between.events, between.grants]
      exact events
  · rw [between.events, between.requests]
    exact kept.seen
  · rw [between.grants]
    exact kept.grants

theorem Kept.arrive (kept : Kept r w) (token : HashedToken) :
    Kept r { w with requests := w.requests ++ [⟨token, .presented⟩] } := by
  refine ⟨fun i x found => ?_, fun e member => ?_, kept.grants⟩
  · by_cases inside : i < w.requests.length
    · rw [List.getElem?_append_left inside] at found
      exact kept.phases i x found
    · rw [List.getElem?_append_right (Nat.not_lt.1 inside)] at found
      have new := List.mem_singleton.1 (List.mem_of_getElem? found)
      have fresh : w.events.filter (fun e => e.request == i) = [] := by
        refine List.filter_eq_nil_iff.2 fun e member same => inside ?_
        rw [← eq_of_beq same]
        exact kept.seen e member
      rw [new]
      exact ⟨trivial, fresh⟩
  · exact Nat.lt_of_lt_of_le (kept.seen e member) (by simp)

/-- The grant of a recorded download is honest exactly when the order was not overtaken. -/
theorem Kept.honest_iff (kept : Kept r w) {i id : Nat} {g : Grant}
    (granted : (PendingDownload.step r w (.record i id)).grants = w.grants ++ [g]) :
    Honest r g ↔ NotOvertaken w (.record i id) := by
  constructor
  · rintro honest token s bundle now loaded found ⟨-, left, -⟩
    rcases @record_step r w i id token s bundle now loaded found with
      refused | ⟨-, -, e, -, -, recorded⟩
    · rw [refused] at granted
      simp [World.setPhase] at granted
    · rw [recorded] at granted
      have same := List.append_cancel_left granted
      cases same
      exact left honest.pending
  · intro ok
    have after := (kept.step (.record i id) ok).grants
    rw [granted] at after
    exact after g (List.mem_append_right _ (List.mem_singleton_self g))

end Steps

theorem reached_kept {r : Route} {start w : World}
    (empty : start.requests = [] ∧ start.events = [] ∧ start.grants = [])
    (reached : Reached r NotOvertaken start w) : Kept r w := by
  induction reached with
  | start =>
    obtain ⟨requests, events, grants⟩ := empty
    refine ⟨fun i x found => ?_, fun e member => ?_, fun g member => ?_⟩
    · simp [requests] at found
    · simp [events] at member
    · simp [grants] at member
  | arrive _ token ih => exact ih.arrive token
  | move _ m ok ih => exact ih.step m ok
  | others _ between ih => exact ih.others between

/-- While no order is overtaken between the load and the lock of a recording transaction, every
bundle of a pending proof is returned under a live token, of an order that is still pending and
of its latest version, and a request has one event with the hash of its bundle or none; and a
recorded download is such exactly when its order was not overtaken. -/
theorem pending_downloads_are_current {r : Route} {start w : World}
    (empty : start.requests = [] ∧ start.events = [] ∧ start.grants = [])
    (reached : Reached r NotOvertaken start w) :
    (∀ g ∈ w.grants, Honest r g) ∧
      (∀ i x, w.requests[i]? = some x → EventsOf r w i x.phase) ∧
      ∀ i id g, (step r w (.record i id)).grants = w.grants ++ [g] →
        (Honest r g ↔ NotOvertaken w (.record i id)) := by
  have kept := reached_kept empty reached
  exact ⟨kept.grants, fun i x found => (kept.phases i x found).2, fun i id g => kept.honest_iff⟩

/-! ## A verification between the load and the lock -/

open Receipts (DateTime wholeSecond sampleEvidence)
open ProofStore (sampleDatabase)
open VerifiedOrders (sampleOrder sampleDigest sampleSha256 samplePlatform stampedBytes)

def pendingOrder : Order := { sampleOrder with fulfillmentState := .calendarPending }

def pendingProof : StoredProof DateTime :=
  ⟨pendingOrder.snapshot.orderReference, 1, sampleDigest, stampedBytes,
    sampleSha256 stampedBytes, wholeSecond, none⟩

def pendingRows : Rows :=
  (ProofStore.append sampleDatabase 7 pendingProof ⟨pendingOrder, [], [], []⟩).2

def pendingReceipt : Receipts.Receipt :=
  Receipts.receiptFields Receipts.isoformat pendingOrder.snapshot.orderReference.value
    pendingOrder.snapshot.certificateReference.value sampleDigest.value pendingProof "1.0.0"

/-- Texts and archives are stood for by the number of their fields and files. -/
def sampleRoute : Route where
  database := sampleDatabase
  bundling := ⟨samplePlatform, id, false, RepeatedDelivery.utcFrom, fun receipt => [UInt8.ofNat receipt.length],
    fun text => if text = [9] then some pendingReceipt else none,
    fun files => [80, 75, UInt8.ofNat files.length], "1.0.0"⟩

def linkToken : HashedToken := ⟨1, [1]⟩

def arrived : World where
  rows := pendingRows
  bundles := []
  tokens := [⟨1, 1, linkToken, none, 100, 0⟩]
  requests := []
  events := []
  grants := []

def requestedWorld : World :=
  { arrived with requests := arrived.requests ++ [⟨linkToken, .presented⟩] }

/-- The download up to the second authentication. -/
def loadedAgain : World :=
  step sampleRoute (step sampleRoute (step sampleRoute (step sampleRoute requestedWorld
    (.authenticate 0 10)) (.select 0 1)) (.build 0)) (.authenticateAgain 0 20)

/-- The upgrade handler stores the verification and moves the order on. -/
def verifiedMeanwhile : World :=
  { loadedAgain with
    rows :=
      { (ProofStore.insertVerification sampleDatabase 1 sampleEvidence loadedAgain.rows).2 with
        order := { loadedAgain.rows.order with fulfillmentState := .bitcoinVerified } } }

def recorded : World := step sampleRoute loadedAgain (.record 0 2)

def recordedStale : World := step sampleRoute verifiedMeanwhile (.record 0 2)

theorem others_rows (w : World) (rows : Rows) : Others w { w with rows := rows } :=
  ⟨rfl, rfl, rfl, fun _ _ _ => rfl⟩

theorem loadedAgain_reached (allowed : World → Move → Prop)
    (first : ∀ w, allowed w (.authenticate 0 10)) (selects : ∀ w, allowed w (.select 0 1))
    (builds : ∀ w, allowed w (.build 0)) (second : ∀ w, allowed w (.authenticateAgain 0 20)) :
    Reached sampleRoute allowed arrived loadedAgain := by
  have opened : Reached sampleRoute allowed arrived requestedWorld := .arrive .start linkToken
  have loaded := Reached.move opened (.authenticate 0 10) (first _)
  have selected := Reached.move loaded (.select 0 1) (selects _)
  have built := Reached.move selected (.build 0) (builds _)
  exact Reached.move built (.authenticateAgain 0 20) (second _)

theorem stale_grant : (recordedStale.grants.map fun g => g.rows.order.fulfillmentState) =
    [.bitcoinVerified] := by
  decide +kernel

theorem fresh_grant : recorded.grants.length = 1 ∧
    loadedAgain.rows.order.fulfillmentState = .calendarPending := by
  decide +kernel

/-- The pending bundle of an order that is verified by the time it is recorded is returned. -/
theorem stale_download_is_returned : ∃ w, Reached sampleRoute (fun _ _ => True) arrived w ∧
    ∃ g ∈ w.grants, g.rows.order.fulfillmentState = .bitcoinVerified ∧
      ¬Honest sampleRoute g := by
  have loaded := loadedAgain_reached (fun _ _ => True) (fun _ => trivial) (fun _ => trivial)
    (fun _ => trivial) fun _ => trivial
  have verified : Reached sampleRoute (fun _ _ => True) arrived verifiedMeanwhile :=
    .others loaded (others_rows loadedAgain _)
  refine ⟨recordedStale, .move verified (.record 0 2) trivial, ?_⟩
  have member : OrderStates.FulfillmentState.bitcoinVerified ∈
      recordedStale.grants.map fun g => g.rows.order.fulfillmentState := by
    rw [stale_grant]
    exact List.mem_singleton_self _
  obtain ⟨g, inside, verified⟩ := List.mem_map.1 member
  refine ⟨g, inside, verified, fun honest => ?_⟩
  rw [honest.pending] at verified
  cases verified

theorem pending_download_is_current : ∃ g ∈ recorded.grants, Honest sampleRoute g := by
  have pending : NotOvertaken loadedAgain (.record 0 2) :=
    fun _ _ _ _ _ _ overtaken => overtaken.2.1 fresh_grant.2
  have loaded := loadedAgain_reached NotOvertaken (fun _ => trivial) (fun _ => trivial)
    (fun _ => trivial) fun _ => trivial
  have reached : Reached sampleRoute NotOvertaken arrived recorded :=
    .move loaded (.record 0 2) pending
  obtain ⟨g, only⟩ := List.length_eq_one_iff.1 fresh_grant.1
  have member : g ∈ recorded.grants := by
    rw [only]
    exact List.mem_singleton_self g
  exact ⟨g, member, (pending_downloads_are_current ⟨rfl, rfl, rfl⟩ reached).1 g member⟩

end PendingDownload
