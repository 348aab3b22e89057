import SpacerocksCoa.CheckoutReservations

/-!
# One live capability token for an order

The three transactions that issue a token of an order, one SQL statement at a time under read
committed: the finalization of a checkout, the transaction that resumes a reservation and
replays it, and the rotation of a presented token. A statement that needs a row lock of
another transaction waits; a locking select takes its candidates from the snapshot at its
start and looks at each row again once it has the lock.

The insert of a token checks its foreign key: it takes a key-share lock on the order, which
the `FOR UPDATE` of the checkout transactions excludes. The parameter `foreignKey` says
whether the column has that constraint, as `order_tokens.order_id` has; without it two
tokens can stay live.
-/
namespace TokenRotation
open OrderStates ProofRecords OrderRows CheckoutReservations

/-! ## Transactions -/

inductive TokenOperation where
  | finalize (plan : CheckoutPlan) (binding : IdempotencyBinding) (result : HostedCheckoutResult)
  | resume (binding : IdempotencyBinding) (leaseId : Nat)
  | rotate (presented : String)

/-- A transaction with its instant and the token that it draws. -/
structure TokenCall where
  settings : CheckoutSettings
  operation : TokenOperation
  now : Instant
  raw : String

/-- `revoke_existing` of `issue_token`. -/
def TokenOperation.revokeExisting : TokenOperation → Bool
  | .finalize _ _ _ => false
  | .resume _ _ => true
  | .rotate _ => true

/-- The next statement of a transaction: its first locking select, the order `FOR UPDATE`, the
commit of a lease that was taken over, the start of the select of the active tokens, the lock
on the next of them, the highest version, the insert, the check of its foreign key, the
commit. -/
inductive TokenStage where
  | begun
  | ordering
  | leasing
  | selecting
  | locking (todo : List HashedToken) (active : List HashedToken)
  | counting (active : List HashedToken)
  | inserting (active : List HashedToken) (version : Nat)
  | linking (active : List HashedToken) (token : OrderToken)
  | committing (active : List HashedToken) (token : OrderToken)
  | ended (committed : Bool)
  deriving DecidableEq

/-- A transaction with what it holds: the reservation and the order `FOR UPDATE`, as it has
written them, the key share of the order, and token rows. -/
structure TokenTransaction where
  call : TokenCall
  stage : TokenStage
  reservation : Option IdempotencyRequest
  order : Option Order
  keyShare : Bool
  locked : List HashedToken

/-- The committed rows of one order; the tokens in the order of their commits. -/
structure TokenRows where
  reservation : IdempotencyRequest
  order : Order
  tokens : List OrderToken

def TokenCall.begin (call : TokenCall) : TokenTransaction :=
  ⟨call, .begun, none, none, false, []⟩

def TokenTransaction.finish (x : TokenTransaction) (committed : Bool) : TokenTransaction :=
  ⟨x.call, .ended committed, none, none, false, []⟩

/-! ## Checks -/

/-- The checks of `_finalize` on the reservation. -/
def finalizable (plan : CheckoutPlan) (binding : IdempotencyBinding) (now : Instant)
    (a : IdempotencyRequest) : Bool :=
  decide (a.id = plan.reservationId) && decide (a.requestHash = binding.requestSha256) &&
    decide (a.checkoutState = .processing) && decide (a.checkoutLeaseId = some plan.leaseId) &&
    leaseLive a now

/-- The checks of `_resume`, with those of `_replay` on a completed reservation. -/
def resumable (settings : CheckoutSettings) (binding : IdempotencyBinding) (now : Instant)
    (a : IdempotencyRequest) (order : Order) : Bool :=
  decide (a.keyHash = binding.keySha256) && decide (a.requestHash = binding.requestSha256) &&
    decide (order.snapshot.paymentMode = settings.paymentMode) && !leaseLive a now &&
    (decide (a.checkoutState ≠ .completed) || (a.completedAt.isSome && a.responseBody.isSome))

/-- `authenticate_status_token`. -/
def authentic (token : OrderToken) (now : Instant) : Bool :=
  token.revokedAt.isNone && decide (now < token.expiresAt)

def tokenOf (tokens : List OrderToken) (hash : HashedToken) : Option OrderToken :=
  tokens.find? fun token => token.tokenHash == hash

/-- `authenticate`. -/
def authenticate (settings : CheckoutSettings) (tokens : List OrderToken) (raw : String)
    (now : Instant) : Option OrderToken :=
  (tokenOf tokens (settings.hashToken raw)).filter fun token => authentic token now

/-- What a transaction checks and writes once it has locked the order. -/
def onOrder (call : TokenCall) (a : IdempotencyRequest) (order : Order) :
    Option (IdempotencyRequest × Order) :=
  match call.operation with
  | .finalize _ _ result =>
    if order.snapshot.paymentMode ≠ call.settings.paymentMode ∨
        order.checkoutSessionId.any (fun session => session != result.sessionId) then none
    else
      let body : SafeResponse := ⟨order.snapshot.orderReference, result.checkoutUrl,
        order.paymentState, order.fulfillmentState⟩
      some (completeReservation call.settings body call.now a,
        { order with checkoutSessionId := some result.sessionId })
  | .resume _ _ =>
    match a.responseBody, order.checkoutSessionId with
    | some body, some session =>
      if body.orderReference = order.snapshot.orderReference ∧
          call.settings.validCheckoutUrl body.checkoutUrl session = true then some (a, order)
      else none
    | _, _ => none
  | .rotate _ => none

/-! ## Statements -/

def highestVersion (tokens : List OrderToken) : Nat := (tokens.map OrderToken.version).foldl max 0

def drawnToken (call : TokenCall) (orderId version : Nat) : OrderToken :=
  ⟨orderId, version, call.settings.hashToken call.raw, none, call.now + call.settings.tokenTtl,
    call.now⟩

/-- The unique columns of `order_tokens`. -/
def clashes (token other : OrderToken) : Bool :=
  token.version == other.version || token.tokenHash == other.tokenHash

/-- The row that a transaction has inserted and not committed. -/
def TokenStage.inserted : TokenStage → Option OrderToken
  | .linking _ token => some token
  | .committing _ token => some token
  | _ => none

/-- The first locking select and the checks on its row; `none` waits. -/
def beginStatement (rows : TokenRows) (others : List TokenTransaction) (x : TokenTransaction) :
    Option TokenTransaction :=
  match x.call.operation with
  | .finalize plan binding _ =>
    if others.any fun y => y.reservation.isSome then none
    else if finalizable plan binding x.call.now rows.reservation then
      some { x with stage := .ordering, reservation := some rows.reservation }
    else some (x.finish false)
  | .resume binding leaseId =>
    if others.any fun y => y.reservation.isSome then none
    else if resumable x.call.settings binding x.call.now rows.reservation rows.order then
      let stage := if rows.reservation.checkoutState = .completed then TokenStage.ordering
        else .leasing
      some { x with
        stage := stage
        reservation := some (takeOver x.call.settings leaseId x.call.now rows.reservation) }
    else some (x.finish false)
  | .rotate presented =>
    match tokenOf rows.tokens (x.call.settings.hashToken presented) with
    | none => some (x.finish false)
    | some token =>
      if others.any fun y => y.locked.contains token.tokenHash then none
      else if authentic token x.call.now then
        some { x with stage := .selecting, locked := [token.tokenHash] }
      else some (x.finish false)

/-- The order `FOR UPDATE`. -/
def orderStatement (foreignKey : Bool) (rows : TokenRows) (others : List TokenTransaction)
    (x : TokenTransaction) : Option TokenTransaction :=
  if others.any fun y => y.order.isSome || (foreignKey && y.keyShare) then none
  else
    match x.reservation.bind fun a => onOrder x.call a rows.order with
    | none => some (x.finish false)
    | some (a, order) =>
      some { x with stage := .selecting, reservation := some a, order := some order }

/-- The lock on the next active token, which is passed over if it was revoked meanwhile. -/
def lockStatement (rows : TokenRows) (others : List TokenTransaction) (x : TokenTransaction)
    (hash : HashedToken) (todo active : List HashedToken) : Option TokenTransaction :=
  if others.any fun y => y.locked.contains hash then none
  else
    let active' := if (tokenOf rows.tokens hash).any fun token => token.revokedAt.isNone then
      active ++ [hash] else active
    some { x with stage := .locking todo active', locked := hash :: x.locked }

def insertStatement (rows : TokenRows) (others : List TokenTransaction) (x : TokenTransaction)
    (active : List HashedToken) (version : Nat) : Option TokenTransaction :=
  let token := drawnToken x.call rows.order.id version
  if others.any fun y => y.stage.inserted.any (clashes token) then none
  else if rows.tokens.any (clashes token) then some (x.finish false)
  else some { x with stage := .linking active token }

/-- The key share of the order that the foreign key of a new token takes. -/
def linkStatement (foreignKey : Bool) (others : List TokenTransaction) (x : TokenTransaction)
    (active : List HashedToken) (token : OrderToken) : Option TokenTransaction :=
  if foreignKey && others.any fun y => y.order.isSome then none
  else some { x with stage := .committing active token, keyShare := true }

/-- The next statement of a transaction short of its commit. -/
def statement (foreignKey : Bool) (rows : TokenRows) (others : List TokenTransaction)
    (x : TokenTransaction) : Option TokenTransaction :=
  match x.stage with
  | .begun => beginStatement rows others x
  | .ordering => orderStatement foreignKey rows others x
  | .selecting =>
    let active := rows.tokens.filter fun token => token.revokedAt.isNone
    some { x with stage := .locking (active.map OrderToken.tokenHash) [] }
  | .locking [] active => some { x with stage := .counting active }
  | .locking (hash :: todo) active => lockStatement rows others x hash todo active
  | .counting active =>
    some { x with stage := .inserting active (highestVersion rows.tokens + 1) }
  | .inserting active version => insertStatement rows others x active version
  | .linking active token => linkStatement foreignKey others x active token
  | .leasing => none
  | .committing _ _ => none
  | .ended _ => none

/-- The active tokens, revoked where the operation asks for it. -/
def revokeActive (call : TokenCall) (active : List HashedToken) (token : OrderToken) :
    OrderToken :=
  if call.operation.revokeExisting ∧ token.tokenHash ∈ active then
    { token with revokedAt := some call.now }
  else token

def commitRows (rows : TokenRows) (x : TokenTransaction) (active : List HashedToken)
    (token : OrderToken) : TokenRows where
  reservation := x.reservation.getD rows.reservation
  order := x.order.getD rows.order
  tokens := rows.tokens.map (revokeActive x.call active) ++ [token]

/-! ## Runs -/

structure TokenWorld where
  rows : TokenRows
  transactions : List TokenTransaction

/-- A new transaction, the next statement of one, or its rollback. -/
inductive TokenStep where
  | start (call : TokenCall)
  | run (transaction : Nat)
  | abort (transaction : Nat)

def runNext (foreignKey : Bool) (w : TokenWorld) (i : Nat) (x : TokenTransaction) : TokenWorld :=
  match x.stage with
  | .committing active token =>
    ⟨commitRows w.rows x active token, w.transactions.set i (x.finish true)⟩
  | .leasing =>
    ⟨{ w.rows with reservation := x.reservation.getD w.rows.reservation },
      w.transactions.set i (x.finish true)⟩
  | _ =>
    match statement foreignKey w.rows (w.transactions.eraseIdx i) x with
    | none => w
    | some x' => { w with transactions := w.transactions.set i x' }

def TokenTransaction.abort (x : TokenTransaction) : TokenTransaction :=
  match x.stage with
  | .ended _ => x
  | _ => x.finish false

def tokenStep (foreignKey : Bool) (w : TokenWorld) : TokenStep → TokenWorld
  | .start call =>
    { w with transactions := w.transactions ++ [call.begin] }
  | .run i =>
    match w.transactions[i]? with
    | none => w
    | some x => runNext foreignKey w i x
  | .abort i =>
    match w.transactions[i]? with
    | none => w
    | some x => { w with transactions := w.transactions.set i x.abort }

def tokenRun (foreignKey : Bool) (steps : List TokenStep) (w : TokenWorld) : TokenWorld :=
  steps.foldl (tokenStep foreignKey) w

/-- An order as its reservation leaves it. -/
def openedOrder (settings : CheckoutSettings) (request : CheckoutInput)
    (binding : IdempotencyBinding) (env : CheckoutEnv) (now : Instant) (leaseId : Nat) :
    TokenWorld :=
  ⟨⟨newReservation settings binding env now leaseId, newOrder settings request env, []⟩, []⟩

/-! ## What holds of the rows and of each transaction -/

structure RowsKept (r : TokenRows) : Prop where
  untouched : r.reservation.checkoutState ≠ .completed → r.tokens = []
  versions : r.tokens.Pairwise fun t u => t.version < u.version
  hashes : (r.tokens.map OrderToken.tokenHash).Nodup
  revoked : ∀ t ∈ r.tokens.dropLast, t.revokedAt ≠ none

/-- What the statements up to the lock on the reservation have established. -/
def Reserved (r : TokenRows) (x : TokenTransaction) : Prop :=
  match x.call.operation with
  | .finalize _ _ _ => x.reservation.isSome = true ∧ r.reservation.checkoutState ≠ .completed
  | .resume _ _ =>
    (∃ a, x.reservation = some a ∧ a.checkoutState = .completed) ∧
      r.reservation.checkoutState = .completed
  | .rotate _ => False

/-- What a transaction has established when it goes on to issue its token: the checkout
transactions hold the order, a rotation holds a token that is not revoked. -/
def Issuing (r : TokenRows) (x : TokenTransaction) : Prop :=
  match x.call.operation with
  | .finalize _ _ _ =>
    (∃ a, x.reservation = some a ∧ a.checkoutState = .completed) ∧ x.order.isSome = true ∧
      r.reservation.checkoutState ≠ .completed
  | .resume _ _ =>
    (∃ a, x.reservation = some a ∧ a.checkoutState = .completed) ∧ x.order.isSome = true ∧
      r.reservation.checkoutState = .completed
  | .rotate _ =>
    x.reservation = none ∧ ∃ t ∈ r.tokens, t.revokedAt = none ∧ t.tokenHash ∈ x.locked

/-- No live token is outside `hashes`. -/
def Covers (r : TokenRows) (hashes : List HashedToken) : Prop :=
  ∀ t ∈ r.tokens, t.revokedAt = none → t.tokenHash ∈ hashes

structure Selected (r : TokenRows) (x : TokenTransaction) (active : List HashedToken) : Prop where
  issuing : Issuing r x
  covers : Covers r active
  held : ∀ h ∈ active, h ∈ x.locked

def Newest (r : TokenRows) (version : Nat) : Prop := ∀ t ∈ r.tokens, t.version < version

def Unused (r : TokenRows) (token : OrderToken) : Prop :=
  token.revokedAt = none ∧ ∀ t ∈ r.tokens, t.tokenHash ≠ token.tokenHash

def TransactionKept (r : TokenRows) (x : TokenTransaction) : Prop :=
  match x.stage with
  | .begun => x.reservation = none
  | .ended _ => x.reservation = none
  | .ordering => Reserved r x
  | .leasing => x.reservation.isSome = true ∧ r.reservation.checkoutState ≠ .completed
  | .selecting => Issuing r x
  | .locking todo active =>
    Issuing r x ∧ Covers r (todo ++ active) ∧ ∀ h ∈ active, h ∈ x.locked
  | .counting active => Selected r x active
  | .inserting active version => Selected r x active ∧ Newest r version
  | .linking active token => Selected r x active ∧ Newest r token.version ∧ Unused r token
  | .committing active token =>
    Selected r x active ∧ Newest r token.version ∧ Unused r token ∧ x.keyShare = true

/-- What the locks exclude between two transactions. -/
structure Apart (x y : TokenTransaction) : Prop where
  reservation : x.reservation.isSome = true → y.reservation.isSome = true → False
  order : x.order.isSome = true → y.order.isSome = true → False
  share : x.order.isSome = true → y.keyShare = true → False
  shared : x.keyShare = true → y.order.isSome = true → False
  locked : ∀ h ∈ x.locked, h ∈ y.locked → False

theorem Apart.symm {x y : TokenTransaction} (apart : Apart x y) : Apart y x :=
  ⟨fun a b => apart.reservation b a, fun a b => apart.order b a, fun a b => apart.shared b a,
    fun a b => apart.share b a, fun h a b => apart.locked h b a⟩

theorem apart_finish (x y : TokenTransaction) (committed : Bool) : Apart (x.finish committed) y :=
  ⟨nofun, nofun, nofun, nofun, fun _ member => absurd member List.not_mem_nil⟩

theorem finish_kept (r : TokenRows) (x : TokenTransaction) (committed : Bool) :
    TransactionKept r (x.finish committed) := rfl

theorem any_false {α : Type} {xs : List α} {p : α → Bool} (none_ : ¬ xs.any p = true) {x : α}
    (member : x ∈ xs) : p x ≠ true := fun holds => none_ (List.any_eq_true.2 ⟨x, member, holds⟩)

/-! ## One statement -/

section Statement

variable {r : TokenRows} {others : List TokenTransaction} {x x' : TokenTransaction}

/-- What a statement keeps. -/
def Moves (r : TokenRows) (others : List TokenTransaction) (x' : TokenTransaction) : Prop :=
  TransactionKept r x' ∧ ∀ y ∈ others, Apart x' y

theorem moves_finish (committed : Bool) : Moves r others (x.finish committed) :=
  ⟨finish_kept r x committed, fun y _ => apart_finish x y committed⟩

theorem finalizable_processing {plan : CheckoutPlan} {binding : IdempotencyBinding}
    {now : Instant} {a : IdempotencyRequest} (passes : finalizable plan binding now a = true) :
    a.checkoutState = .processing := by
  simp only [finalizable, Bool.and_eq_true, decide_eq_true_eq] at passes
  exact passes.1.1.2

theorem tokenOf_mem {tokens : List OrderToken} {hash : HashedToken} {token : OrderToken}
    (found : tokenOf tokens hash = some token) : token ∈ tokens ∧ token.tokenHash = hash :=
  ⟨List.mem_of_find?_eq_some found, by simpa using List.find?_some found⟩

theorem begin_moves (idle : x.reservation = none) (apart : ∀ y ∈ others, Apart x y)
    (begun : beginStatement r others x = some x') : Moves r others x' := by
  unfold beginStatement at begun
  cases operation : x.call.operation with
  | finalize plan binding result =>
    simp only [operation] at begun
    split at begun
    · cases begun
    · next free =>
      split at begun
      · next passes =>
        cases begun
        constructor
        · simp only [TransactionKept, Reserved, operation]
          refine ⟨rfl, ?_⟩
          rw [finalizable_processing passes]
          exact CheckoutState.noConfusion
        · intro y member
          exact ⟨fun _ held => any_false free member held, (apart y member).order,
            (apart y member).share, (apart y member).shared, (apart y member).locked⟩
      · cases begun
        exact moves_finish false
  | resume binding leaseId =>
    simp only [operation] at begun
    split at begun
    · cases begun
    · next free =>
      split at begun
      · cases begun
        constructor
        · by_cases completed : r.reservation.checkoutState = .completed
          · simp only [TransactionKept, completed, if_true, Reserved, operation]
            exact ⟨⟨_, rfl, (takeOver_completed _ _ _ _).2 completed⟩, trivial⟩
          · simp only [TransactionKept, completed, if_false]
            exact ⟨rfl, completed⟩
        · intro y member
          exact ⟨fun _ held => any_false free member held, (apart y member).order,
            (apart y member).share, (apart y member).shared, (apart y member).locked⟩
      · cases begun
        exact moves_finish false
  | rotate presented =>
    simp only [operation] at begun
    split at begun
    · cases begun
      exact moves_finish false
    · next token found =>
      split at begun
      · cases begun
      · next free =>
        split at begun
        · next passes =>
          cases begun
          obtain ⟨member, _⟩ := tokenOf_mem found
          rw [authentic, Bool.and_eq_true, Option.isNone_iff_eq_none] at passes
          constructor
          · simp only [TransactionKept, Issuing, operation]
            exact ⟨idle, token, member, passes.1, List.mem_singleton_self _⟩
          · intro y other
            refine ⟨(apart y other).reservation, (apart y other).order, (apart y other).share,
              (apart y other).shared, ?_⟩
            intro h mine theirs
            rw [List.mem_singleton.1 mine] at theirs
            exact any_false free other (List.contains_iff_mem.2 theirs)
        · cases begun
          exact moves_finish false

theorem onOrder_completed {call : TokenCall} {a a' : IdempotencyRequest} {order order' : Order}
    (passes : onOrder call a order = some (a', order')) :
    (∃ plan binding result, call.operation = .finalize plan binding result ∧
        a'.checkoutState = .completed) ∨
      (∃ binding leaseId, call.operation = .resume binding leaseId ∧ a' = a) := by
  unfold onOrder at passes
  cases operation : call.operation with
  | finalize plan binding result =>
    simp only [operation] at passes
    split at passes
    · cases passes
    · cases passes
      exact Or.inl ⟨plan, binding, result, rfl, rfl⟩
  | resume binding leaseId =>
    simp only [operation] at passes
    split at passes
    · split at passes
      · cases passes
        exact Or.inr ⟨binding, leaseId, rfl, rfl⟩
      · cases passes
    · cases passes
  | rotate presented =>
    simp only [operation] at passes
    cases passes

theorem order_moves (reserved : Reserved r x) (apart : ∀ y ∈ others, Apart x y)
    (next : orderStatement true r others x = some x') : Moves r others x' := by
  unfold orderStatement at next
  split at next
  · cases next
  · next free =>
    split at next
    · cases next
      exact moves_finish false
    · next a' order' passes =>
      cases next
      obtain ⟨a, held, passes⟩ := Option.bind_eq_some_iff.1 passes
      constructor
      · unfold Reserved at reserved
        rcases onOrder_completed passes with ⟨plan, binding, result, operation, done⟩ |
          ⟨binding, leaseId, operation, rfl⟩
        · simp only [operation] at reserved
          simp only [TransactionKept, Issuing, operation]
          exact ⟨⟨a', rfl, done⟩, rfl, reserved.2⟩
        · simp only [operation] at reserved
          obtain ⟨⟨b, same, done⟩, completed⟩ := reserved
          obtain rfl := Option.some.inj (held.symm.trans same)
          simp only [TransactionKept, Issuing, operation]
          exact ⟨⟨a', rfl, done⟩, rfl, completed⟩
      · intro y member
        have unheld : (y.order.isSome || y.keyShare) ≠ true := any_false free member
        exact ⟨fun _ theirs => (apart y member).reservation (by rw [held]; rfl) theirs,
          fun _ theirs => unheld (Bool.or_eq_true_iff.2 (Or.inl theirs)),
          fun _ theirs => unheld (Bool.or_eq_true_iff.2 (Or.inr theirs)),
          (apart y member).shared, (apart y member).locked⟩

/-- Only the stage of a transaction changes. -/
theorem apart_stage {y : TokenTransaction} (apart : Apart x y) (stage : TokenStage) :
    Apart { x with stage := stage } y :=
  ⟨apart.reservation, apart.order, apart.share, apart.shared, apart.locked⟩

theorem issuing_locked {hash : HashedToken} (issuing : Issuing r x) (stage : TokenStage) :
    Issuing r { x with stage := stage, locked := hash :: x.locked } := by
  unfold Issuing at issuing ⊢
  cases operation : x.call.operation with
  | finalize plan binding result =>
    simp only [operation] at issuing ⊢
    exact issuing
  | resume binding leaseId =>
    simp only [operation] at issuing ⊢
    exact issuing
  | rotate presented =>
    simp only [operation] at issuing ⊢
    obtain ⟨idle, t, member, live, held⟩ := issuing
    exact ⟨idle, t, member, live, List.mem_cons_of_mem hash held⟩

/-- The row behind a hash is the only one with it. -/
theorem tokenOf_eq (rows : RowsKept r) {t : OrderToken} (member : t ∈ r.tokens) :
    tokenOf r.tokens t.tokenHash = some t :=
  UniqueColumns.find_of_mem rows.hashes member

theorem lock_moves {hash : HashedToken} {todo active : List HashedToken} (rows : RowsKept r)
    (issuing : Issuing r x) (covers : Covers r (hash :: todo ++ active))
    (held : ∀ h ∈ active, h ∈ x.locked) (apart : ∀ y ∈ others, Apart x y)
    (next : lockStatement r others x hash todo active = some x') : Moves r others x' := by
  unfold lockStatement at next
  split at next
  · cases next
  · next free =>
    cases next
    constructor
    · refine ⟨issuing_locked issuing _, ?_, ?_⟩
      · intro t member live
        have known := covers t member live
        rcases List.mem_append.1 known with ahead | got
        · rcases List.mem_cons.1 ahead with here | later
          · have active : (tokenOf r.tokens hash).any (fun token => token.revokedAt.isNone) =
                true := by
              rw [← here, tokenOf_eq rows member]
              exact Option.isNone_iff_eq_none.2 live
            rw [if_pos active, here]
            exact List.mem_append_right _ (List.mem_append_right _ (List.mem_singleton_self _))
          · exact List.mem_append_left _ later
        · split
          · exact List.mem_append_right _ (List.mem_append_left _ got)
          · exact List.mem_append_right _ got
      · intro h got
        split at got
        · rcases List.mem_append.1 got with before | last
          · exact List.mem_cons_of_mem hash (held h before)
          · rw [List.mem_singleton.1 last]
            exact List.mem_cons_self
        · exact List.mem_cons_of_mem hash (held h got)
    · intro y member
      refine ⟨(apart y member).reservation, (apart y member).order, (apart y member).share,
        (apart y member).shared, ?_⟩
      intro h mine theirs
      rcases List.mem_cons.1 mine with here | before
      · rw [here] at theirs
        exact any_false free member (List.contains_iff_mem.2 theirs)
      · exact (apart y member).locked h before theirs

theorem insert_moves {active : List HashedToken} {version : Nat} (selected : Selected r x active)
    (newest : Newest r version) (apart : ∀ y ∈ others, Apart x y)
    (next : insertStatement r others x active version = some x') : Moves r others x' := by
  unfold insertStatement at next
  simp only at next
  split at next
  · cases next
  · split at next
    · cases next
      exact moves_finish false
    · next unused =>
      cases next
      refine ⟨⟨⟨selected.issuing, selected.covers, selected.held⟩, newest, rfl, ?_⟩,
        fun y member => apart_stage (apart y member) _⟩
      intro t member same
      refine any_false unused member ?_
      rw [clashes, Bool.or_eq_true]
      exact Or.inr (beq_iff_eq.2 same.symm)

theorem link_moves {active : List HashedToken} {token : OrderToken}
    (selected : Selected r x active) (newest : Newest r token.version) (unused : Unused r token)
    (apart : ∀ y ∈ others, Apart x y)
    (next : linkStatement true others x active token = some x') : Moves r others x' := by
  unfold linkStatement at next
  split at next
  · cases next
  · next free =>
    cases next
    refine ⟨⟨⟨selected.issuing, selected.covers, selected.held⟩, newest, unused, rfl⟩, ?_⟩
    intro y member
    refine ⟨(apart y member).reservation, (apart y member).order, (apart y member).share, ?_,
      (apart y member).locked⟩
    intro _ theirs
    exact any_false free member theirs

theorem le_highestVersion {tokens : List OrderToken} {t : OrderToken} (member : t ∈ tokens) :
    t.version ≤ highestVersion tokens := by
  have bound : ∀ (versions : List Nat) (start : Nat), start ≤ versions.foldl max start ∧
      ∀ v ∈ versions, v ≤ versions.foldl max start := by
    intro versions
    induction versions with
    | nil => exact fun start => ⟨Nat.le_refl start, fun v member => absurd member List.not_mem_nil⟩
    | cons head rest ih =>
      intro start
      obtain ⟨low, high⟩ := ih (max start head)
      refine ⟨(Nat.le_max_left start head).trans low, ?_⟩
      intro v known
      rcases List.mem_cons.1 known with rfl | later
      · exact (Nat.le_max_right start v).trans low
      · exact high v later
  exact (bound _ 0).2 t.version (List.mem_map_of_mem member)

theorem statement_moves (rows : RowsKept r) (kept : TransactionKept r x)
    (apart : ∀ y ∈ others, Apart x y) (next : statement true r others x = some x') :
    Moves r others x' := by
  unfold statement at next
  unfold TransactionKept at kept
  split at next
  · next stage =>
    simp only [stage] at kept
    exact begin_moves kept apart next
  · next stage =>
    simp only [stage] at kept
    exact order_moves kept apart next
  · next stage =>
    simp only [stage] at kept
    cases next
    refine ⟨⟨kept, ?_, fun h got => absurd got List.not_mem_nil⟩,
      fun y member => apart_stage (apart y member) _⟩
    intro t member live
    rw [List.append_nil]
    exact List.mem_map_of_mem
      (List.mem_filter.2 ⟨member, Option.isNone_iff_eq_none.2 live⟩)
  · next active stage =>
    simp only [stage] at kept
    cases next
    exact ⟨⟨kept.1, kept.2.1, kept.2.2⟩, fun y member => apart_stage (apart y member) _⟩
  · next hash todo active stage =>
    simp only [stage] at kept
    exact lock_moves rows kept.1 kept.2.1 kept.2.2 apart next
  · next active stage =>
    simp only [stage] at kept
    cases next
    refine ⟨⟨⟨kept.issuing, kept.covers, kept.held⟩, ?_⟩,
      fun y member => apart_stage (apart y member) _⟩
    intro t member
    exact Nat.lt_succ_of_le (le_highestVersion member)
  · next active version stage =>
    simp only [stage] at kept
    exact insert_moves kept.1 kept.2 apart next
  · next active token stage =>
    simp only [stage] at kept
    exact link_moves kept.1 kept.2.1 kept.2.2 apart next
  · cases next
  · cases next
  · cases next

end Statement

/-! ## The commit -/

section Commit

variable {r : TokenRows} {x y : TokenTransaction} {active : List HashedToken} {token : OrderToken}

theorem revokeActive_columns (call : TokenCall) (active : List HashedToken) (t : OrderToken) :
    (revokeActive call active t).version = t.version ∧
      (revokeActive call active t).tokenHash = t.tokenHash ∧
      (t.revokedAt ≠ none → (revokeActive call active t).revokedAt ≠ none) := by
  unfold revokeActive
  split
  · exact ⟨rfl, rfl, fun _ => Option.some_ne_none _⟩
  · exact ⟨rfl, rfl, fun revoked => revoked⟩

/-- A committing transaction leaves no other token live. -/
theorem commit_revokes (rows : RowsKept r) (selected : Selected r x active) {t : OrderToken}
    (member : t ∈ r.tokens) : (revokeActive x.call active t).revokedAt ≠ none := by
  by_cases live : t.revokedAt = none
  · have known : t.tokenHash ∈ active := selected.covers t member live
    have revokes : x.call.operation.revokeExisting = true := by
      have issuing := selected.issuing
      unfold Issuing at issuing
      cases operation : x.call.operation with
      | finalize plan binding result =>
        simp only [operation] at issuing
        rw [rows.untouched issuing.2.2] at member
        exact absurd member List.not_mem_nil
      | resume binding leaseId => rfl
      | rotate presented => rfl
    rw [revokeActive, if_pos ⟨revokes, known⟩]
    exact Option.some_ne_none _
  · exact (revokeActive_columns x.call active t).2.2 live

/-- The reservation is completed once a token is issued. -/
theorem commit_completed (rows : RowsKept r) (issuing : Issuing r x) :
    (x.reservation.getD r.reservation).checkoutState = .completed := by
  unfold Issuing at issuing
  cases operation : x.call.operation with
  | finalize plan binding result =>
    simp only [operation] at issuing
    obtain ⟨⟨a, held, done⟩, _⟩ := issuing
    rw [held]
    exact done
  | resume binding leaseId =>
    simp only [operation] at issuing
    obtain ⟨⟨a, held, done⟩, _⟩ := issuing
    rw [held]
    exact done
  | rotate presented =>
    simp only [operation] at issuing
    obtain ⟨idle, t, member, _⟩ := issuing
    rw [idle]
    by_contra pending
    rw [rows.untouched pending] at member
    exact absurd member List.not_mem_nil

theorem commit_rows (rows : RowsKept r) (selected : Selected r x active)
    (newest : Newest r token.version) (unused : Unused r token) :
    RowsKept (commitRows r x active token) := by
  have columns := revokeActive_columns x.call active
  refine ⟨fun pending => absurd (commit_completed rows selected.issuing) pending, ?_, ?_, ?_⟩
  · refine List.pairwise_append.2 ⟨?_, List.pairwise_singleton _ _, ?_⟩
    · refine List.pairwise_map.2 (rows.versions.imp ?_)
      intro t u earlier
      rw [(columns t).1, (columns u).1]
      exact earlier
    · intro t' member u last
      obtain ⟨t, known, rfl⟩ := List.mem_map.1 member
      rw [List.mem_singleton.1 last, (columns t).1]
      exact newest t known
  · have same : ∀ t ∈ r.tokens, (revokeActive x.call active t).tokenHash = t.tokenHash :=
      fun t _ => (columns t).2.1
    refine column_append ?_ ?_
    · rw [column_map same]
      exact rows.hashes
    · intro t' member
      obtain ⟨t, known, rfl⟩ := List.mem_map.1 member
      rw [same t known]
      exact unused.2 t known
  · intro t' member
    rw [commitRows, List.dropLast_concat] at member
    obtain ⟨t, known, rfl⟩ := List.mem_map.1 member
    exact commit_revokes rows selected known

/-- Nobody else is about to issue a token when one is committed. -/
theorem issuing_excluded (selected : Selected r x active) (share : x.keyShare = true)
    (issuing : Issuing r y) (apart : Apart x y) : False := by
  unfold Issuing at issuing
  cases operation : y.call.operation with
  | finalize plan binding result =>
    simp only [operation] at issuing
    exact apart.shared share issuing.2.1
  | resume binding leaseId =>
    simp only [operation] at issuing
    exact apart.shared share issuing.2.1
  | rotate presented =>
    simp only [operation] at issuing
    obtain ⟨_, t, member, live, held⟩ := issuing
    exact apart.locked _ (selected.held _ (selected.covers t member live)) held

/-- A transaction that holds the reservation beside one that commits a token. -/
theorem reserved_beside (rows : RowsKept r) (issuing : Issuing r x)
    (held : y.reservation.isSome = true) (apart : Apart x y) :
    x.reservation = none ∧ r.reservation.checkoutState = .completed := by
  have completed := commit_completed rows issuing
  unfold Issuing at issuing
  cases operation : x.call.operation with
  | finalize plan binding result =>
    simp only [operation] at issuing
    obtain ⟨⟨a, mine, _⟩, _⟩ := issuing
    exact (apart.reservation (by rw [mine]; rfl) held).elim
  | resume binding leaseId =>
    simp only [operation] at issuing
    obtain ⟨⟨a, mine, _⟩, _⟩ := issuing
    exact (apart.reservation (by rw [mine]; rfl) held).elim
  | rotate presented =>
    simp only [operation] at issuing
    rw [issuing.1] at completed
    exact ⟨issuing.1, completed⟩

theorem Reserved.isSome (reserved : Reserved r y) : y.reservation.isSome = true := by
  unfold Reserved at reserved
  cases operation : y.call.operation with
  | finalize plan binding result =>
    simp only [operation] at reserved
    exact reserved.1
  | resume binding leaseId =>
    simp only [operation] at reserved
    obtain ⟨⟨a, held, _⟩, _⟩ := reserved
    rw [held]
    rfl
  | rotate presented =>
    simp only [operation] at reserved

/-- What the others have established survives the commit of a token. -/
theorem commit_others (rows : RowsKept r) (selected : Selected r x active)
    (share : x.keyShare = true) (kept : TransactionKept r y) (apart : Apart x y) :
    TransactionKept (commitRows r x active token) y := by
  have excluded : Issuing r y → False := fun issuing =>
    issuing_excluded selected share issuing apart
  unfold TransactionKept at kept ⊢
  split at kept
  · exact kept
  · exact kept
  · obtain ⟨idle, _⟩ := reserved_beside rows selected.issuing kept.isSome apart
    have same : (commitRows r x active token).reservation = r.reservation := by
      rw [commitRows, idle]
      rfl
    unfold Reserved at kept ⊢
    rw [same]
    exact kept
  · obtain ⟨_, completed⟩ := reserved_beside rows selected.issuing kept.1 apart
    exact absurd completed kept.2
  · exact (excluded kept).elim
  · exact (excluded kept.1).elim
  · exact (excluded kept.issuing).elim
  · exact (excluded kept.1.issuing).elim
  · exact (excluded kept.1.issuing).elim
  · exact (excluded kept.1.issuing).elim

/-- The commit of a lease that was taken over. -/
theorem lease_rows (rows : RowsKept r) (pending : r.reservation.checkoutState ≠ .completed)
    (a : IdempotencyRequest) : RowsKept { r with reservation := a } :=
  ⟨fun _ => rows.untouched pending, rows.versions, rows.hashes, rows.revoked⟩

theorem lease_others {a : IdempotencyRequest} (held : x.reservation.isSome = true)
    (kept : TransactionKept r y) (apart : Apart x y) :
    TransactionKept { r with reservation := a } y := by
  have issuing_later : Issuing r y → Issuing { r with reservation := a } y := by
    intro issuing
    unfold Issuing at issuing ⊢
    cases operation : y.call.operation with
    | finalize plan binding result =>
      simp only [operation] at issuing
      obtain ⟨⟨b, mine, _⟩, _⟩ := issuing
      exact (apart.reservation held (by rw [mine]; rfl)).elim
    | resume binding leaseId =>
      simp only [operation] at issuing
      obtain ⟨⟨b, mine, _⟩, _⟩ := issuing
      exact (apart.reservation held (by rw [mine]; rfl)).elim
    | rotate presented =>
      simp only [operation] at issuing ⊢
      exact issuing
  have selected_later : ∀ active, Selected r y active →
      Selected { r with reservation := a } y active := fun _ selected =>
    ⟨issuing_later selected.issuing, selected.covers, selected.held⟩
  unfold TransactionKept at kept ⊢
  split at kept
  · exact kept
  · exact kept
  · exact (apart.reservation held kept.isSome).elim
  · exact (apart.reservation held kept.1).elim
  · exact issuing_later kept
  · exact ⟨issuing_later kept.1, kept.2⟩
  · exact selected_later _ kept
  · exact ⟨selected_later _ kept.1, kept.2⟩
  · exact ⟨selected_later _ kept.1, kept.2⟩
  · exact ⟨selected_later _ kept.1, kept.2⟩

end Commit

/-! ## Every run -/

structure WorldKept (w : TokenWorld) : Prop where
  rows : RowsKept w.rows
  transactions : ∀ x ∈ w.transactions, TransactionKept w.rows x
  apart : ∀ i j : Nat, ∀ x y : TokenTransaction, i ≠ j → w.transactions[i]? = some x →
    w.transactions[j]? = some y → Apart x y

section World

variable {w : TokenWorld} {i : Nat} {x x' : TokenTransaction}

theorem others_apart (kept : WorldKept w) (found : w.transactions[i]? = some x) :
    ∀ y ∈ w.transactions.eraseIdx i, Apart x y := by
  intro y member
  obtain ⟨j, other, atJ⟩ := List.mem_eraseIdx_iff_getElem?.1 member
  exact kept.apart i j x y (Ne.symm other) found atJ

theorem entry_cases {j : Nat} {y : TokenTransaction}
    (found : (w.transactions.set i x')[j]? = some y) :
    (j = i ∧ y = x') ∨ (j ≠ i ∧ w.transactions[j]? = some y) := by
  by_cases same : j = i
  · subst same
    have known := List.mem_of_getElem? found
    rw [List.getElem?_set_self'] at found
    cases old : w.transactions[j]? with
    | none =>
      rw [old] at found
      cases found
    | some z =>
      rw [old] at found
      exact Or.inl ⟨rfl, (Option.some.inj found).symm⟩
  · rw [List.getElem?_set_ne (Ne.symm same)] at found
    exact Or.inr ⟨same, found⟩

/-- One transaction moves, the rows move with it. -/
theorem WorldKept.set {rows' : TokenRows} (kept : WorldKept w) (rows : RowsKept rows')
    (mine : TransactionKept rows' x')
    (apart : ∀ y ∈ w.transactions.eraseIdx i, Apart x' y)
    (others : ∀ y ∈ w.transactions.eraseIdx i, TransactionKept rows' y) :
    WorldKept ⟨rows', w.transactions.set i x'⟩ := by
  have erased : ∀ {j : Nat} {y : TokenTransaction}, j ≠ i → w.transactions[j]? = some y →
      y ∈ w.transactions.eraseIdx i := fun other atJ =>
    List.mem_eraseIdx_iff_getElem?.2 ⟨_, other, atJ⟩
  refine ⟨rows, ?_, ?_⟩
  · intro y member
    obtain ⟨j, atJ⟩ := List.mem_iff_getElem?.1 member
    rcases entry_cases atJ with ⟨_, rfl⟩ | ⟨other, old⟩
    · exact mine
    · exact others y (erased other old)
  · intro j k y z distinct atJ atK
    rcases entry_cases atJ with ⟨rfl, rfl⟩ | ⟨otherJ, oldJ⟩
    · rcases entry_cases atK with ⟨rfl, _⟩ | ⟨otherK, oldK⟩
      · exact absurd rfl distinct
      · exact apart z (erased otherK oldK)
    · rcases entry_cases atK with ⟨rfl, rfl⟩ | ⟨_, oldK⟩
      · exact (apart y (erased otherJ oldJ)).symm
      · exact kept.apart j k y z distinct oldJ oldK

theorem others_kept (kept : WorldKept w) : ∀ y ∈ w.transactions.eraseIdx i,
    TransactionKept w.rows y :=
  fun y member => kept.transactions y (List.mem_of_mem_eraseIdx member)

theorem runNext_kept (kept : WorldKept w) (found : w.transactions[i]? = some x) :
    WorldKept (runNext true w i x) := by
  have mine := kept.transactions x (List.mem_of_getElem? found)
  have apart := others_apart kept found
  unfold runNext
  split
  · next active token stage =>
    unfold TransactionKept at mine
    simp only [stage] at mine
    obtain ⟨selected, newest, unused, share⟩ := mine
    exact kept.set (commit_rows kept.rows selected newest unused) (finish_kept _ x true)
      (fun y _ => apart_finish x y true)
      fun y member => commit_others kept.rows selected share (others_kept kept y member)
        (apart y member)
  · next stage =>
    unfold TransactionKept at mine
    simp only [stage] at mine
    exact kept.set (lease_rows kept.rows mine.2 _) (finish_kept _ x true)
      (fun y _ => apart_finish x y true)
      fun y member => lease_others mine.1 (others_kept kept y member) (apart y member)
  · split
    · exact kept
    · next x' next =>
      obtain ⟨moved, apart'⟩ := statement_moves kept.rows mine apart next
      exact kept.set kept.rows moved apart' (others_kept kept)

theorem abort_kept (kept : WorldKept w) (found : w.transactions[i]? = some x) :
    WorldKept { w with transactions := w.transactions.set i x.abort } := by
  have mine := kept.transactions x (List.mem_of_getElem? found)
  have moves : TransactionKept w.rows x.abort ∧
      ∀ y ∈ w.transactions.eraseIdx i, Apart x.abort y := by
    unfold TokenTransaction.abort
    split
    · exact ⟨mine, others_apart kept found⟩
    · exact moves_finish false
  exact kept.set kept.rows moves.1 moves.2 (others_kept kept)

theorem start_kept (kept : WorldKept w) (call : TokenCall) :
    WorldKept { w with transactions := w.transactions ++ [call.begin] } := by
  have fresh : ∀ y, Apart call.begin y := fun y =>
    ⟨nofun, nofun, nofun, nofun, fun _ member => absurd member List.not_mem_nil⟩
  have entry : ∀ {j : Nat} {y : TokenTransaction},
      (w.transactions ++ [call.begin])[j]? = some y →
        w.transactions[j]? = some y ∨ (j = w.transactions.length ∧
          y = call.begin) := by
    intro j y atJ
    rw [List.getElem?_append] at atJ
    split at atJ
    · exact Or.inl atJ
    · next past =>
      obtain ⟨index, at_⟩ := List.getElem?_eq_some_iff.1 atJ
      rw [List.length_singleton] at index
      refine Or.inr ⟨by omega, ?_⟩
      exact List.mem_singleton.1 (List.mem_of_getElem? atJ)
  refine ⟨kept.rows, ?_, ?_⟩
  · intro y member
    rcases List.mem_append.1 member with old | new
    · exact kept.transactions y old
    · rw [List.mem_singleton.1 new]
      rfl
  · intro j k y z distinct atJ atK
    rcases entry atJ with oldJ | ⟨lastJ, rfl⟩
    · rcases entry atK with oldK | ⟨_, rfl⟩
      · exact kept.apart j k y z distinct oldJ oldK
      · exact (fresh y).symm
    · exact fresh z

end World

theorem step_kept {w : TokenWorld} (step : TokenStep) (kept : WorldKept w) :
    WorldKept (tokenStep true w step) := by
  cases step with
  | start call => exact start_kept kept call
  | run i =>
    cases found : w.transactions[i]? with
    | none =>
      simp only [tokenStep, found]
      exact kept
    | some x =>
      simp only [tokenStep, found]
      exact runNext_kept kept found
  | abort i =>
    cases found : w.transactions[i]? with
    | none =>
      simp only [tokenStep, found]
      exact kept
    | some x =>
      simp only [tokenStep, found]
      exact abort_kept kept found

theorem run_kept (steps : List TokenStep) {w : TokenWorld} (kept : WorldKept w) :
    WorldKept (tokenRun true steps w) := by
  induction steps generalizing w with
  | nil => exact kept
  | cons step rest ih => exact ih (step_kept step kept)

theorem openedOrder_kept (settings : CheckoutSettings) (request : CheckoutInput)
    (binding : IdempotencyBinding) (env : CheckoutEnv) (now : Instant) (leaseId : Nat) :
    WorldKept (openedOrder settings request binding env now leaseId) := by
  refine ⟨⟨fun _ => rfl, List.Pairwise.nil, List.nodup_nil, ?_⟩, ?_, ?_⟩
  · intro t member
    exact absurd member List.not_mem_nil
  · intro x member
    exact absurd member List.not_mem_nil
  · intro i j x y _ found
    cases found

/-! ## One live token -/

/-- At most one token of an order is live, it has the highest version, and no token but the
one issued last authenticates a request. -/
structure OneLiveToken (tokens : List OrderToken) : Prop where
  one : (tokens.filter fun t => t.revokedAt.isNone).length ≤ 1
  highest : ∀ t ∈ tokens, t.revokedAt = none → ∀ u ∈ tokens, u ≠ t → u.version < t.version
  last : ∀ (settings : CheckoutSettings) (raw : String) (now : Instant) (t : OrderToken),
    authenticate settings tokens raw now = some t → tokens.getLast? = some t

theorem RowsKept.last {r : TokenRows} (rows : RowsKept r) {t : OrderToken} (member : t ∈ r.tokens)
    (live : t.revokedAt = none) : ∃ earlier, r.tokens = earlier ++ [t] := by
  cases tokens : r.tokens.reverse with
  | nil =>
    rw [List.reverse_eq_nil_iff.1 tokens] at member
    exact absurd member List.not_mem_nil
  | cons newest rest =>
    have split_ : r.tokens = rest.reverse ++ [newest] := by
      rw [← List.reverse_cons, ← tokens, List.reverse_reverse]
    refine ⟨rest.reverse, ?_⟩
    rw [split_] at member
    rcases List.mem_append.1 member with before | last
    · have revoked := rows.revoked t (by rw [split_, List.dropLast_concat]; exact before)
      exact absurd live revoked
    · rw [List.mem_singleton.1 last]
      exact split_

theorem RowsKept.oneLive {r : TokenRows} (rows : RowsKept r) : OneLiveToken r.tokens := by
  refine ⟨?_, ?_, ?_⟩
  · refine UniqueColumns.filter_unique rows.hashes ?_
    intro t memberT u memberU liveT liveU
    obtain ⟨earlier, first⟩ := rows.last memberT (Option.isNone_iff_eq_none.1 liveT)
    obtain ⟨before, second⟩ := rows.last memberU (Option.isNone_iff_eq_none.1 liveU)
    have same := (List.append_inj' (first.symm.trans second) rfl).2
    rw [List.singleton_inj.1 same]
  · intro t member live u other distinct
    obtain ⟨earlier, split_⟩ := rows.last member live
    have versions := rows.versions
    rw [split_] at versions other
    rcases List.mem_append.1 other with before | last
    · exact (List.pairwise_append.1 versions).2.2 u before t (List.mem_singleton_self t)
    · exact absurd (List.mem_singleton.1 last) distinct
  · intro settings raw now t authenticated
    rw [authenticate, Option.filter_eq_some_iff] at authenticated
    obtain ⟨found, passes⟩ := authenticated
    rw [authentic, Bool.and_eq_true, Option.isNone_iff_eq_none] at passes
    obtain ⟨earlier, split_⟩ := rows.last (tokenOf_mem found).1 passes.1
    rw [split_, List.getLast?_concat]

/-- However the statements of finalizations, replays and rotations interleave, in every state
of every run the order has at most one live token, the one issued last. -/
theorem one_live_token (settings : CheckoutSettings) (request : CheckoutInput)
    (binding : IdempotencyBinding) (env : CheckoutEnv) (now : Instant) (leaseId : Nat)
    (steps : List TokenStep) :
    OneLiveToken
      (tokenRun true steps (openedOrder settings request binding env now leaseId)).rows.tokens :=
  (run_kept steps (openedOrder_kept settings request binding env now leaseId)).rows.oneLive

/-! ## A rotation beside a replay -/

open VerifiedOrders (sampleTime)

def sampleOpened : TokenWorld :=
  openedOrder checkoutSettings checkoutRequest checkoutBinding (checkoutEnv 0 "") (sampleTime 0) 0

def samplePlan : CheckoutPlan :=
  makePlan sampleOpened.rows.reservation sampleOpened.rows.order 0

def sampleCall (operation : TokenOperation) (seconds : Int) (raw : String) : TokenCall :=
  ⟨checkoutSettings, operation, sampleTime seconds, raw⟩

/-- The first token is issued; a rotation locks it, a replay locks the order and waits for the
token, and the rotation goes on. -/
def racingSteps : List TokenStep :=
  [TokenStep.start (sampleCall (.finalize samplePlan checkoutBinding
    (sampleProvider "" samplePlan.hosted)) 1 "a")] ++ List.replicate 8 (TokenStep.run 0) ++
  [TokenStep.start (sampleCall (.rotate "a") 100 "b"), .run 1,
    .start (sampleCall (.resume checkoutBinding 1) 100 "c"), .run 2, .run 2, .run 2, .run 2] ++
  List.replicate 7 (TokenStep.run 1)

-- Without the key share the rotation commits under the replay, which then misses its token.
example : (tokenRun false (racingSteps ++ List.replicate 6 (TokenStep.run 2))
    sampleOpened).rows.tokens.map (fun t => (t.version, t.revokedAt.isNone)) =
      [(1, false), (2, true), (3, true)] := by
  decide

-- With it the two wait for each other, and the replay goes on once the rotation is rolled back.
example : (tokenRun true (racingSteps ++ [TokenStep.abort 1] ++ List.replicate 6 (TokenStep.run 2))
    sampleOpened).rows.tokens.map (fun t => (t.version, t.revokedAt.isNone)) =
      [(1, false), (2, true)] := by
  decide

end TokenRotation
