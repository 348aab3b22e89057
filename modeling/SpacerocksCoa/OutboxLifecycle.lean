import Mathlib.Algebra.GroupWithZero.Nat
import Mathlib.Algebra.Order.BigOperators.Group.List
import SpacerocksCoa.OutboxLeases

/-!
# The life of an outbox message

Along every run of senders, webhooks and new messages: one lease at a time, outcomes from
its holder only, one provider's message, one idempotency key used before its expiry, a
bounded number of attempts with one unfinished attempt per lease, and no message that
nobody will ever look at again.

Progress is counted, not timed: a due message is leased or dead-lettered after as many
claims as there is work ahead of it, in any order, with anything else in between. Nothing
is said about how often senders come.
-/
namespace OutboxLeases
open OrderStates ProofRecords OrderRows FulfillmentAdapters NotificationAdapters

/-! ## What becomes of a row -/

/-- What every step keeps: what was handed out, the fixed columns of the rows, the end of a
dead letter, and the message of the provider with the claims that led to it. -/
structure Onward (w w' : LeaseWorld) : Prop where
  grants : ∀ g ∈ w.grants, g ∈ w'.grants
  rows : ∀ m ∈ w.outbox.rows, ∃ m' ∈ w'.outbox.rows, SameMessage m m' ∧
    (m.state = .deadLetter → m'.state = .deadLetter) ∧
    (m.providerMessageId.isSome = true → m'.providerMessageId = m.providerMessageId ∧
      grantsOf w' m.id = grantsOf w m.id)

lemma onward_refl (w : LeaseWorld) : Onward w w :=
  ⟨fun _ member => member, fun m member =>
    ⟨m, member, sameMessage_refl m, fun dead => dead, fun _ => ⟨rfl, rfl⟩⟩⟩

section
variable {sha256 : Bytes → Sha256} {w w' : LeaseWorld}

lemma Onward.trans {w'' : LeaseWorld} (first : Onward w w') (second : Onward w' w'') :
    Onward w w'' := by
  refine ⟨fun g member => second.grants g (first.grants g member), fun m member => ?_⟩
  obtain ⟨m', known, same, dead, sent⟩ := first.rows m member
  obtain ⟨m'', later, same', dead', sent'⟩ := second.rows m' known
  refine ⟨m'', later, same.trans same', fun h => dead' (dead h), fun h => ?_⟩
  obtain ⟨pid, grants⟩ := sent h
  obtain ⟨pid', grants'⟩ := sent' (by rw [pid]; exact h)
  rw [same.id] at grants'
  exact ⟨pid'.trans pid, grants'.trans grants⟩

/-- A change row by row that leaves alone the rows with a provider's message. -/
lemma onward_map (f : OutboxRecord → OutboxRecord) (rows : w'.outbox.rows = w.outbox.rows.map f)
    (grants : ∀ g ∈ w.grants, g ∈ w'.grants)
    (row : ∀ m ∈ w.outbox.rows, SameMessage m (f m) ∧
      (m.state = .deadLetter → (f m).state = .deadLetter) ∧
      (m.providerMessageId.isSome = true → (f m).providerMessageId = m.providerMessageId ∧
        grantsOf w' m.id = grantsOf w m.id)) : Onward w w' := by
  refine ⟨grants, fun m member => ⟨f m, ?_, row m member⟩⟩
  rw [rows]
  exact List.mem_map_of_mem member

lemma OutboxKept.expire_onward (kept : OutboxKept sha256 w) (locked : List Nat) :
    Onward w (afterExpiry locked w) := by
  refine onward_map
    (fun m => if (expiring locked w.clock w.outbox).any (fun e => e.id == m.id) then
      deadLetterRow m else m) rfl (fun _ member => member) fun m row => ?_
  by_cases taken : m ∈ expiring locked w.clock w.outbox
  · rw [if_pos ((kept.expiring_iff row).2 taken)]
    exact ⟨⟨rfl, rfl, rfl, rfl, rfl, rfl, rfl, rfl⟩, fun _ => rfl, fun _ => ⟨rfl, rfl⟩⟩
  · rw [if_neg fun found => taken ((kept.expiring_iff row).1 found)]
    exact ⟨sameMessage_refl m, fun dead => dead, fun _ => ⟨rfl, rfl⟩⟩

lemma OutboxKept.takeLease_onward (kept : OutboxKept sha256 w) {m : OutboxRecord}
    (row : m ∈ w.outbox.rows) (able : claimable w.clock m = true) {workerId : String}
    {token : Nat} {leaseUntil : Instant} {c : Claimed} (id : c.id = m.id) :
    Onward w { w with
      outbox := OutboxLeases.takeLease m workerId w.clock leaseUntil token w.outbox
      grants := w.grants ++ [⟨c, w.clock⟩] } := by
  simp only [claimable, Bool.and_eq_true, Bool.or_eq_true, decide_eq_true_iff] at able
  obtain ⟨⟨⟨⟨⟨⟨free, -⟩, unsent⟩, -⟩, -⟩, -⟩, -⟩ := able
  refine onward_map
    (fun other => if other.id = m.id then leaseRow workerId leaseUntil token other else other) rfl
    (fun _ member => List.mem_append_left _ member) fun other member => ?_
  by_cases own : other.id = m.id
  · have equal := kept.same member row own
    subst equal
    rw [if_pos rfl]
    refine ⟨⟨rfl, rfl, rfl, rfl, rfl, rfl, rfl, rfl⟩, fun dead => ?_, fun sent => ?_⟩
    · simp [waiting, leaseExpired, dead] at free
    · rw [Option.isNone_iff_eq_none.1 unsent] at sent
      cases sent
  · rw [if_neg own]
    refine ⟨sameMessage_refl other, fun dead => dead, fun _ => ⟨rfl, ?_⟩⟩
    have elsewhere : [(⟨c, w.clock⟩ : Grant)].filter (fun g => g.claimed.id == other.id) = [] := by
      simpa [id] using fun h => own h.symm
    unfold grantsOf
    rw [List.filter_append, elsewhere, List.append_nil]

lemma OutboxKept.claimStep_onward (kept : OutboxKept sha256 w) (workerId : String)
    (leaseFor : Int) (token : Nat) (locked : List Nat) :
    Onward w (OutboxLeases.claimStep sha256 w workerId leaseFor token locked) := by
  rcases claimStep_cases sha256 w workerId leaseFor token locked with
    ⟨-, same⟩ | ⟨-, expired⟩ | ⟨m, c, found, result, taken⟩
  · rw [same]
    exact onward_refl w
  · rw [expired]
    exact kept.expire_onward locked
  · rw [taken]
    obtain ⟨row, able⟩ := selectClaimable_some found
    exact (kept.expire_onward locked).trans
      ((kept.expire locked).takeLease_onward row able (claimed_fields result).1)

lemma OutboxKept.recorded_onward (kept : OutboxKept sha256 w) {message : ClaimedNotification}
    {o' : Outbox} (h : Recorded message w.outbox o') :
    Onward w { w with
      outbox := o', recorded := w.recorded ++ [(message.id, message.attempt)] } := by
  obtain ⟨now, m, onRow, onAttempt, active, settles, rfl⟩ := h
  obtain ⟨row, id, leased, -, -, -, unsent⟩ := activeLease_ok active
  refine onward_map (fun other => if other.id = message.id then onRow other else other) rfl
    (fun _ member => member) fun other member => ?_
  by_cases own : other.id = message.id
  · have equal : other = m := kept.same member row (own.trans id.symm)
    subst equal
    rw [if_pos own]
    refine ⟨settles.same other, fun dead => ?_, fun sent => ?_⟩
    · exact OutboxState.noConfusion (leased.symm.trans dead)
    · rw [unsent] at sent
      cases sent
  · rw [if_neg own]
    exact ⟨sameMessage_refl other, fun dead => dead, fun _ => ⟨rfl, rfl⟩⟩

lemma OutboxKept.record_onward (kept : OutboxKept sha256 w) {message : ClaimedNotification}
    {result : Except AdapterError Outbox}
    (ok : ∀ o', result = .ok o' → Recorded message w.outbox o') :
    Onward w (OutboxLeases.record w message result) := by
  rcases record_cases ok with same | ⟨o', recorded, done⟩
  · rw [same]
    exact onward_refl w
  · rw [done]
    exact kept.recorded_onward recorded

lemma OutboxKept.onAccepted_onward (kept : OutboxKept sha256 w)
    {f : OutboxRecord → OutboxRecord} (notices : Notices f) (providerMessageId : String) :
    Onward w { w with outbox := OutboxLeases.onAccepted providerMessageId f w.outbox } := by
  refine onward_map
    (fun m => if m.providerMessageId = some providerMessageId ∧ m.acceptedAt.isSome then f m
      else m) rfl (fun _ member => member) fun m row => ?_
  by_cases own : m.providerMessageId = some providerMessageId ∧ m.acceptedAt.isSome
  · rw [if_pos own]
    refine ⟨notices.same m, fun dead => ?_, fun _ => ⟨notices.sent m, rfl⟩⟩
    have unsent := (kept.rows m row).unsent (by simp [OutboxLeases.unaccepted, dead])
    rw [own.1] at unsent
    cases unsent
  · rw [if_neg own]
    exact ⟨sameMessage_refl m, fun dead => dead, fun _ => ⟨rfl, rfl⟩⟩

lemma insertRow_rows (m : OutboxRecord) (o : Outbox) :
    (insertRow m o).rows = o.rows ∨
      enqueuedRow m = true ∧ (insertRow m o).rows = o.rows ++ [m] := by
  unfold insertRow
  split
  · next able =>
    rw [Bool.and_eq_true] at able
    exact Or.inr ⟨able.1, rfl⟩
  · exact Or.inl rfl

lemma insertRow_onward (w : LeaseWorld) (m : OutboxRecord) :
    Onward w { w with outbox := insertRow m w.outbox } := by
  refine ⟨fun _ member => member, fun row member => ⟨row, ?_, sameMessage_refl row,
    fun dead => dead, fun _ => ⟨rfl, rfl⟩⟩⟩
  change row ∈ (insertRow m w.outbox).rows
  rcases insertRow_rows m w.outbox with same | ⟨-, grown⟩
  · rw [same]
    exact member
  · rw [grown]
    exact List.mem_append_left _ member

theorem OutboxKept.step_onward (kept : OutboxKept sha256 w) (s : SenderStep) :
    Onward w (OutboxLeases.step sha256 w s) := by
  cases s with
  | advance micros => exact ⟨(onward_refl w).grants, (onward_refl w).rows⟩
  | enqueue row => exact insertRow_onward w row
  | claim workerId leaseFor token locked =>
    exact kept.claimStep_onward workerId leaseFor token locked
  | recordAccepted message acceptance now noticed =>
    exact kept.record_onward fun _ ok => recordAccepted_ok ok
  | recordRetry message now retryAt code status =>
    exact kept.record_onward fun _ ok => recordRetry_ok ok
  | recordTerminalFailure message now code status =>
    exact kept.record_onward fun _ ok => recordTerminalFailure_ok ok
  | delivered providerMessageId deliveredAt =>
    exact kept.onAccepted_onward (deliverRow_notices deliveredAt) providerMessageId
  | rejected providerMessageId type =>
    exact kept.onAccepted_onward (markFailed_notices type) providerMessageId

theorem OutboxKept.run_onward (kept : OutboxKept sha256 w) (steps : List SenderStep) :
    Onward w (OutboxLeases.run sha256 steps w) := by
  induction steps generalizing w with
  | nil => exact onward_refl w
  | cons s rest ih => exact (kept.step_onward s).trans (ih (kept.step s))

end

/-! ## Nothing waits forever -/

/-- How often a row can still be claimed, and once more for its end. -/
def effort (m : OutboxRecord) : Nat :=
  if supported m && pending m then m.maxAttempts - m.attemptCount + 1 else 0

def backlog (w : LeaseWorld) : Nat := (w.outbox.rows.map effort).sum

/-- A row that is due and not in a lease, after its first claims. -/
def Due (w : LeaseWorld) (id claims : Nat) : Prop :=
  ∃ m ∈ w.outbox.rows, m.id = id ∧ m.attemptCount = claims ∧ supported m = true ∧
    m.availableAt ≤ w.clock ∧ (waiting m = true ∨ leaseExpired w.clock m = true)

/-- Leased once more, or dead-lettered. -/
def Taken (w : LeaseWorld) (id claims : Nat) : Prop :=
  (∃ g ∈ w.grants, g.claimed.id = id ∧ g.claimed.attempt = claims + 1) ∨
    ∃ m ∈ w.outbox.rows, m.id = id ∧ m.state = .deadLetter

/-- Claims as the dispatcher makes them, that find the row unlocked; anything else as long
as no outcome of that row is recorded. -/
def Passes (id : Nat) : SenderStep → Prop
  | .claim workerId leaseFor _ locked => claimValid workerId leaseFor ∧ id ∉ locked
  | .recordAccepted message _ _ _ => message.id ≠ id
  | .recordRetry message _ _ _ _ => message.id ≠ id
  | .recordTerminalFailure message _ _ _ => message.id ≠ id
  | .advance _ => True
  | .enqueue _ => True
  | .delivered _ _ => True
  | .rejected _ _ => True

def SenderStep.claims : SenderStep → Nat
  | .claim _ _ _ _ => 1
  | _ => 0

/-- What a step can add to the backlog. -/
def SenderStep.arrives : SenderStep → Nat
  | .enqueue row => row.maxAttempts + 1
  | _ => 0

section
variable {sha256 : Bytes → Sha256} {w w' : LeaseWorld} {id claims : Nat}

lemma effort_le {m m' : OutboxRecord} (same : SameMessage m m')
    (count : m.attemptCount ≤ m'.attemptCount) (was : pending m' = true → pending m = true) :
    effort m' ≤ effort m := by
  unfold effort
  rw [same.supported, same.maxAttempts]
  cases still : pending m' with
  | false => simp
  | true =>
    rw [was still]
    split
    · omega
    · exact Nat.le_refl _

lemma effort_positive {m : OutboxRecord} (known : supported m = true) (open_ : pending m = true) :
    effort m = m.maxAttempts - m.attemptCount + 1 := by
  simp [effort, known, open_]

lemma expirable_pending {now : Instant} {m : OutboxRecord} (h : expirable now m = true) :
    supported m = true ∧ pending m = true := by
  simp only [expirable, leaseExpired, Bool.and_eq_true, Bool.or_eq_true] at h
  obtain ⟨⟨known, states⟩, -⟩ := h
  refine ⟨known, ?_⟩
  rcases states with waits | expired
  · simp [pending, waits.1]
  · simp [pending, expired.1.1]

lemma claimable_pending {now : Instant} {m : OutboxRecord} (h : claimable now m = true) :
    supported m = true ∧ pending m = true ∧ m.attemptCount < m.maxAttempts := by
  simp only [claimable, leaseExpired, Bool.and_eq_true, Bool.or_eq_true, decide_eq_true_iff] at h
  obtain ⟨⟨⟨⟨⟨⟨states, -⟩, -⟩, known⟩, -⟩, -⟩, left⟩ := h
  refine ⟨known, ?_, left⟩
  rcases states with waits | expired
  · simp [pending, waits]
  · simp [pending, expired.1]

lemma effort_expired (w : LeaseWorld) (locked : List Nat) (m : OutboxRecord) :
    effort (if (expiring locked w.clock w.outbox).any (fun e => e.id == m.id) then
      deadLetterRow m else m) ≤ effort m := by
  split
  · exact effort_le ⟨rfl, rfl, rfl, rfl, rfl, rfl, rfl, rfl⟩ (Nat.le_refl _) nofun
  · exact Nat.le_refl _

lemma backlog_expire (w : LeaseWorld) (locked : List Nat) :
    backlog (afterExpiry locked w) = (w.outbox.rows.map fun m =>
      effort (if (expiring locked w.clock w.outbox).any (fun e => e.id == m.id) then
        deadLetterRow m else m)).sum := by
  unfold backlog
  change ((w.outbox.rows.map _).map effort).sum = _
  rw [List.map_map]
  rfl

lemma backlog_expire_le (w : LeaseWorld) (locked : List Nat) :
    backlog (afterExpiry locked w) ≤ backlog w := by
  rw [backlog_expire]
  exact List.sum_le_sum fun m _ => effort_expired w locked m

lemma OutboxKept.backlog_expire_lt (kept : OutboxKept sha256 w) {locked : List Nat}
    {e : OutboxRecord} (taken : e ∈ expiring locked w.clock w.outbox) :
    backlog (afterExpiry locked w) < backlog w := by
  rw [backlog_expire]
  obtain ⟨row, able, -⟩ := expiring_mem taken
  refine List.sum_lt_sum _ _ (fun m _ => effort_expired w locked m) ⟨e, row, ?_⟩
  obtain ⟨known, open_⟩ := expirable_pending able
  rw [if_pos ((kept.expiring_iff row).2 taken), effort_positive known open_]
  have none_ : effort (deadLetterRow e) = 0 := by simp [effort, pending, waiting, deadLetterRow]
  rw [none_]
  exact Nat.succ_pos _

lemma OutboxKept.backlog_takeLease (kept : OutboxKept sha256 w) {m : OutboxRecord}
    (row : m ∈ w.outbox.rows) (able : claimable w.clock m = true) (workerId : String)
    (token : Nat) (leaseUntil : Instant) (grants : List Grant) :
    backlog { w with
      outbox := OutboxLeases.takeLease m workerId w.clock leaseUntil token w.outbox
      grants := grants } < backlog w := by
  obtain ⟨known, open_, left⟩ := claimable_pending able
  have leased : effort (leaseRow workerId leaseUntil token m) < effort m := by
    have open' : pending (leaseRow workerId leaseUntil token m) = true := by
      simp [pending, leaseRow]
    rw [effort_positive (m := leaseRow workerId leaseUntil token m) known open',
      effort_positive known open_]
    change m.maxAttempts - (m.attemptCount + 1) + 1 < _
    omega
  unfold backlog
  change ((w.outbox.rows.map fun other =>
    if other.id = m.id then leaseRow workerId leaseUntil token other else other).map effort).sum < _
  rw [List.map_map]
  refine List.sum_lt_sum _ _ (fun other member => ?_) ⟨m, row, ?_⟩
  · change effort (if other.id = m.id then _ else other) ≤ _
    by_cases own : other.id = m.id
    · rw [if_pos own, kept.same member row own]
      exact Nat.le_of_lt leased
    · rw [if_neg own]
  · change effort (if m.id = m.id then _ else m) < _
    rw [if_pos rfl]
    exact leased

lemma Taken.onward (taken : Taken w id claims) (onward : Onward w w') : Taken w' id claims := by
  rcases taken with ⟨g, member, own⟩ | ⟨m, member, own, dead⟩
  · exact Or.inl ⟨g, onward.grants g member, own⟩
  · obtain ⟨m', later, same, stays, -⟩ := onward.rows m member
    exact Or.inr ⟨m', later, same.id.trans own, stays dead⟩

/-- A due row that no other transaction has locked is expired with the others or claimable. -/
lemma OutboxKept.due_claimable (kept : OutboxKept sha256 w) {m : OutboxRecord}
    (row : m ∈ w.outbox.rows) (known : supported m = true) (due : m.availableAt ≤ w.clock)
    (free : waiting m = true ∨ leaseExpired w.clock m = true) :
    expirable w.clock m = true ∨ claimable w.clock m = true := by
  have before := kept.rows m row
  have open_ : pending m = true := by
    rcases free with waits | expired
    · simp [pending, waits]
    · simp only [leaseExpired, Bool.and_eq_true] at expired
      simp [pending, expired.1]
  have unsent : m.providerMessageId.isNone = true := by
    rw [before.unsent (by simp [OutboxLeases.unaccepted, open_])]
    rfl
  cases over_ : exhausted w.clock m with
  | true =>
    refine Or.inl ?_
    simp only [expirable, over_, known, unsent, Bool.true_and, Bool.and_true, Bool.or_eq_true]
    exact free
  | false =>
    refine Or.inr ?_
    simp only [exhausted, Bool.or_eq_false_iff, decide_eq_false_iff_not] at over_
    obtain ⟨window, left⟩ := over_
    obtain ⟨-, -, observed⟩ := before.milestone known
    simp only [claimable, known, unsent, observed, Bool.and_true, Bool.and_eq_true,
      Bool.or_eq_true, decide_eq_true_iff]
    exact ⟨⟨⟨free, due⟩, not_le.1 window⟩, not_le.1 left⟩

/-- One claim takes the due row or shortens the backlog. -/
lemma OutboxKept.claim_progress (kept : OutboxKept sha256 w) (due : Due w id claims)
    {workerId : String} {leaseFor : Int} (valid : claimValid workerId leaseFor) (token : Nat)
    {locked : List Nat} (unlocked : id ∉ locked) :
    Taken (OutboxLeases.claimStep sha256 w workerId leaseFor token locked) id claims ∨
      (Due (OutboxLeases.claimStep sha256 w workerId leaseFor token locked) id claims ∧
        backlog (OutboxLeases.claimStep sha256 w workerId leaseFor token locked) < backlog w) := by
  obtain ⟨m, row, rfl, rfl, known, ready, free⟩ := due
  have expired := kept.expire locked
  by_cases dead : m ∈ expiring locked w.clock w.outbox
  · -- the expiry of this claim dead-letters the row
    have letter : deadLetterRow m ∈ (afterExpiry locked w).outbox.rows := by
      refine List.mem_map.2 ⟨m, row, ?_⟩
      rw [if_pos ((kept.expiring_iff row).2 dead)]
    have taken : Taken (afterExpiry locked w) m.id m.attemptCount :=
      Or.inr ⟨_, letter, rfl, rfl⟩
    refine Or.inl ?_
    rcases claimStep_cases sha256 w workerId leaseFor token locked with
      ⟨invalid | ⟨other, e, found, failed⟩, -⟩ | ⟨-, step⟩ | ⟨other, c, found, result, step⟩
    · exact absurd valid invalid
    · obtain ⟨member, able⟩ := selectClaimable_some found
      obtain ⟨version, count, -⟩ := (expired.rows other member).milestone (claimable_pending able).1
      obtain ⟨c, works⟩ := claimed_of_milestone version count workerId token (w.clock + leaseFor)
      rw [works] at failed
      cases failed
    · rw [step]
      exact taken
    · rw [step]
      obtain ⟨member, able⟩ := selectClaimable_some found
      exact taken.onward (expired.takeLease_onward member able (claimed_fields result).1)
  · have stays : m ∈ (afterExpiry locked w).outbox.rows := by
      refine List.mem_map.2 ⟨m, row, ?_⟩
      rw [if_neg fun found => dead ((kept.expiring_iff row).1 found)]
    rcases claimStep_cases sha256 w workerId leaseFor token locked with
      ⟨invalid | ⟨other, e, found, failed⟩, -⟩ | ⟨nothing, step⟩ | ⟨other, c, found, result, step⟩
    · exact absurd valid invalid
    · obtain ⟨member, able⟩ := selectClaimable_some found
      obtain ⟨version, count, -⟩ := (expired.rows other member).milestone (claimable_pending able).1
      obtain ⟨c, works⟩ := claimed_of_milestone version count workerId token (w.clock + leaseFor)
      rw [works] at failed
      cases failed
    · rw [step]
      refine Or.inr ⟨⟨m, stays, rfl, rfl, known, ready, free⟩, ?_⟩
      rcases kept.due_claimable row known ready free with ended | able
      · -- a hundred others were expired first
        have listed : m ∈ w.outbox.rows.filter fun m =>
            expirable w.clock m && !locked.contains m.id := by
          refine List.mem_filter.2 ⟨row, ?_⟩
          simp [ended, unlocked]
        cases first : expiring locked w.clock w.outbox with
        | nil =>
          rw [expiring, List.take_eq_nil_iff] at first
          rcases first with impossible | empty
          · cases impossible
          · rw [empty] at listed
            cases listed
        | cons e rest =>
          have member : e ∈ expiring locked w.clock w.outbox := by
            rw [first]
            exact List.mem_cons_self
          exact kept.backlog_expire_lt member
      · have listed : m ∈ (afterExpiry locked w).outbox.rows.filter fun m =>
            claimable w.clock m && !locked.contains m.id := by
          refine List.mem_filter.2 ⟨stays, ?_⟩
          simp [able, unlocked]
        rw [selectClaimable, List.argmin_eq_none] at nothing
        rw [nothing] at listed
        cases listed
    · rw [step]
      obtain ⟨member, able⟩ := selectClaimable_some found
      obtain ⟨own, attempt, -⟩ := claimed_fields result
      by_cases same : other.id = m.id
      · have equal : other = m := expired.same member stays same
        subst equal
        exact Or.inl (Or.inl ⟨_, List.mem_append_right _ (List.mem_singleton_self _), own, attempt⟩)
      · refine Or.inr ⟨⟨m, ?_, rfl, rfl, known, ready, free⟩, ?_⟩
        · refine List.mem_map.2 ⟨m, stays, ?_⟩
          rw [if_neg fun h => same h.symm]
        · exact Nat.lt_of_lt_of_le (expired.backlog_takeLease member able workerId token
            (w.clock + leaseFor) _) (backlog_expire_le w locked)

/-- A change of other rows that makes no new work. -/
lemma due_map (f : OutboxRecord → OutboxRecord) (rows : w'.outbox.rows = w.outbox.rows.map f)
    (clock : w'.clock = w.clock)
    (row : ∀ m ∈ w.outbox.rows, SameMessage m (f m) ∧ (f m).attemptCount = m.attemptCount ∧
      (pending (f m) = true → pending m = true))
    (apart : ∀ m ∈ w.outbox.rows, m.id = id → waiting m = true ∨ leaseExpired w.clock m = true →
      f m = m) (due : Due w id claims) :
    Due w' id claims ∧ backlog w' ≤ backlog w := by
  constructor
  · obtain ⟨m, member, own, count, known, ready, free⟩ := due
    rw [← clock] at ready
    refine ⟨m, ?_, own, count, known, ready, ?_⟩
    · rw [rows]
      exact List.mem_map.2 ⟨m, member, apart m member own free⟩
    · rw [clock]
      exact free
  · unfold backlog
    rw [rows, List.map_map]
    refine List.sum_le_sum fun m member => ?_
    obtain ⟨same, count, was⟩ := row m member
    exact effort_le same (Nat.le_of_eq count.symm) was

lemma OutboxKept.due_record (kept : OutboxKept sha256 w) (due : Due w id claims)
    {message : ClaimedNotification} (other : message.id ≠ id)
    {result : Except AdapterError Outbox}
    (ok : ∀ o', result = .ok o' → Recorded message w.outbox o') :
    Due (OutboxLeases.record w message result) id claims ∧
      backlog (OutboxLeases.record w message result) ≤ backlog w := by
  rcases record_cases ok with same | ⟨o', recorded, done⟩
  · rw [same]
    exact ⟨due, Nat.le_refl _⟩
  · rw [done]
    obtain ⟨now, m, onRow, onAttempt, active, settles, rfl⟩ := recorded
    obtain ⟨row, own, leased, -⟩ := activeLease_ok active
    refine due_map (fun other => if other.id = message.id then onRow other else other) rfl rfl
      (fun m' member => ?_) (fun m' _ its _ => ?_) due
    · by_cases its : m'.id = message.id
      · rw [if_pos its]
        refine ⟨settles.same m', settles.count m', fun _ => ?_⟩
        rw [kept.same member row (its.trans own.symm)]
        simp [pending, leased]
      · rw [if_neg its]
        exact ⟨sameMessage_refl m', rfl, fun open_ => open_⟩
    · rw [if_neg fun h => other (h.symm.trans its)]

lemma OutboxKept.due_onAccepted (kept : OutboxKept sha256 w) (due : Due w id claims)
    {f : OutboxRecord → OutboxRecord} (notices : Notices f) (providerMessageId : String) :
    Due { w with outbox := OutboxLeases.onAccepted providerMessageId f w.outbox } id claims ∧
      backlog { w with outbox := OutboxLeases.onAccepted providerMessageId f w.outbox } ≤
        backlog w := by
  refine due_map (fun m => if m.providerMessageId = some providerMessageId ∧ m.acceptedAt.isSome
    then f m else m) rfl rfl (fun m _ => ?_) (fun m row _ free => ?_) due
  · by_cases its : m.providerMessageId = some providerMessageId ∧ m.acceptedAt.isSome
    · rw [if_pos its]
      refine ⟨notices.same m, notices.count m, fun still => ?_⟩
      have over_ := notices.unaccepted m
      rw [OutboxLeases.unaccepted, still] at over_
      cases over_
    · rw [if_neg its]
      exact ⟨sameMessage_refl m, rfl, fun open_ => open_⟩
  · refine if_neg fun its => ?_
    have open_ : pending m = true := by
      rcases free with waits | expired
      · simp [pending, waits]
      · simp only [leaseExpired, Bool.and_eq_true] at expired
        simp [pending, expired.1]
    have unsent := (kept.rows m row).unsent (by simp [OutboxLeases.unaccepted, open_])
    rw [its.1] at unsent
    cases unsent

lemma leaseExpired_later {m : OutboxRecord} {now : Instant} (expired : leaseExpired now m = true)
    (micros : Nat) : leaseExpired (now + (micros : Int)) m = true := by
  simp only [leaseExpired, Bool.and_eq_true, Option.any_eq_true, decide_eq_true_iff] at expired ⊢
  obtain ⟨leased, until_, ends, before⟩ := expired
  refine ⟨leased, until_, ends, Int.lt_of_lt_of_le before ?_⟩
  exact Int.le_add_of_nonneg_right (Int.natCast_nonneg _)

/-- A step takes the due row, or leaves it due; then a claim has shortened the backlog. -/
theorem OutboxKept.step_progress (kept : OutboxKept sha256 w) (due : Due w id claims)
    (s : SenderStep) (passes : Passes id s) :
    Taken (OutboxLeases.step sha256 w s) id claims ∨
      (Due (OutboxLeases.step sha256 w s) id claims ∧
        backlog (OutboxLeases.step sha256 w s) + s.claims ≤ backlog w + s.arrives) := by
  cases s with
  | claim workerId leaseFor token locked =>
    exact kept.claim_progress due passes.1 token passes.2
  | advance micros =>
    obtain ⟨m, row, own, count, known, ready, free⟩ := due
    refine Or.inr ⟨⟨m, row, own, count, known, ?_, ?_⟩, Nat.le_refl _⟩
    · exact Int.le_trans ready (Int.le_add_of_nonneg_right (Int.natCast_nonneg _))
    · exact free.imp (fun waits => waits) fun expired => leaseExpired_later expired micros
  | enqueue row =>
    refine Or.inr ⟨?_, ?_⟩
    · obtain ⟨m, member, rest⟩ := due
      refine ⟨m, ?_, rest⟩
      change m ∈ (OutboxLeases.insertRow row w.outbox).rows
      rcases insertRow_rows row w.outbox with same | ⟨-, grown⟩
      · rw [same]
        exact member
      · rw [grown]
        exact List.mem_append_left _ member
    · change ((OutboxLeases.insertRow row w.outbox).rows.map effort).sum ≤ backlog w + (row.maxAttempts + 1)
      rcases insertRow_rows row w.outbox with same | ⟨-, grown⟩
      · rw [same]
        exact Nat.le_add_right _ _
      · rw [grown, List.map_append, List.sum_append, List.map_cons, List.map_nil,
          List.sum_singleton]
        have bound : effort row ≤ row.maxAttempts + 1 := by
          unfold effort
          split
          · omega
          · exact Nat.zero_le _
        exact Nat.add_le_add_left bound _
  | recordAccepted message acceptance now noticed =>
    exact Or.inr (kept.due_record due passes fun _ ok => recordAccepted_ok ok)
  | recordRetry message now retryAt code status =>
    exact Or.inr (kept.due_record due passes fun _ ok => recordRetry_ok ok)
  | recordTerminalFailure message now code status =>
    exact Or.inr (kept.due_record due passes fun _ ok => recordTerminalFailure_ok ok)
  | delivered providerMessageId deliveredAt =>
    exact Or.inr (kept.due_onAccepted due (deliverRow_notices deliveredAt) providerMessageId)
  | rejected providerMessageId type =>
    exact Or.inr (kept.due_onAccepted due (markFailed_notices type) providerMessageId)

/-- More claims than there is work take every due row. -/
theorem OutboxKept.run_progress (kept : OutboxKept sha256 w) (due : Due w id claims)
    (steps : List SenderStep) (passes : ∀ s ∈ steps, Passes id s)
    (enough : backlog w + (steps.map SenderStep.arrives).sum <
      (steps.map SenderStep.claims).sum) :
    Taken (OutboxLeases.run sha256 steps w) id claims := by
  induction steps generalizing w with
  | nil => exact absurd enough (Nat.not_lt_zero _)
  | cons s rest ih =>
    have next := kept.step s
    rcases kept.step_progress due s (passes s List.mem_cons_self) with taken | ⟨still, less⟩
    · exact taken.onward (next.run_onward rest)
    · refine ih next still (fun s' member => passes s' (List.mem_cons_of_mem _ member)) ?_
      simp only [List.map_cons, List.sum_cons] at enough
      omega

end

/-! ## The life of a message -/

/-- Whether some outcome could be recorded for a sender that holds this claim. -/
def CanRecord (message : ClaimedNotification) (o : Outbox) : Prop :=
  (∃ acceptance now noticed o', recordAccepted message acceptance now noticed o = .ok o') ∨
    (∃ now retryAt code status o', recordRetry message now retryAt code status o = .ok o') ∨
    ∃ now code status o', recordTerminalFailure message now code status o = .ok o'

/-- What the table promises to senders and about messages. -/
structure Lifecycle (sha256 : Bytes → Sha256) (w : LeaseWorld) : Prop where
  oneLease : ∀ g ∈ w.grants, ∀ h ∈ w.grants, h.claimed.id = g.claimed.id →
    Running w.clock (recordedOf w g.claimed.id) g →
    Running w.clock (recordedOf w g.claimed.id) h → h = g
  holderRecords : ∀ message, CanRecord message w.outbox →
    ∃ g ∈ w.grants, g.claimed.toClaimedNotification = message ∧
      (∃ m ∈ w.outbox.rows, m.state = .leased ∧ Holds g m) ∧
      ∀ h ∈ w.grants, h.claimed.id = message.id → h.claimed.attempt ≤ message.attempt
  sentOnce : ∀ m ∈ w.outbox.rows, m.providerMessageId.isSome = true → ∀ later : List SenderStep,
    ∃ m' ∈ (run sha256 later w).outbox.rows, m'.id = m.id ∧
      m'.providerMessageId = m.providerMessageId ∧
      grantsOf (run sha256 later w) m.id = grantsOf w m.id
  sameKey : ∀ m ∈ w.outbox.rows, ∀ g ∈ w.grants, g.claimed.id = m.id →
    g.claimed.idempotencyKey = idempotencyKey sha256 m.messageKey ∧
      g.at_ < m.idempotencyExpiresAt
  fixed : ∀ m ∈ w.outbox.rows, ∀ later : List SenderStep,
    ∃ m' ∈ (run sha256 later w).outbox.rows, SameMessage m m'
  attempts : ∀ m ∈ w.outbox.rows, m.attemptCount ≤ m.maxAttempts
  oneAttempt : ∀ m ∈ w.outbox.rows,
    (openAttempts w.outbox m.id).length = if m.state = .leased then 1 else 0
  owned : ∀ m ∈ w.outbox.rows, supported m = true →
    waiting m = true ∧ m.availableAt ≤ w.clock ∨ leaseExpired w.clock m = true →
    ∀ later : List SenderStep, (∀ s ∈ later, Passes m.id s) →
      backlog w + (later.map SenderStep.arrives).sum < (later.map SenderStep.claims).sum →
      Taken (run sha256 later w) m.id m.attemptCount

section
variable {sha256 : Bytes → Sha256} {w : LeaseWorld}

lemma grantsOf_mem {g : Grant} {id : Nat} (member : g ∈ w.grants) (own : g.claimed.id = id) :
    g ∈ grantsOf w id :=
  List.mem_filter.2 ⟨member, by simpa using own⟩

lemma canRecord_active {message : ClaimedNotification} {o : Outbox}
    (able : CanRecord message o) : ∃ now m, activeLease message now o = .ok m := by
  have active : ∀ o', Recorded message o o' → ∃ now m, activeLease message now o = .ok m := by
    rintro o' ⟨now, m, -, -, active, -⟩
    exact ⟨now, m, active⟩
  rcases able with ⟨_, _, _, o', ok⟩ | ⟨_, _, _, _, o', ok⟩ | ⟨_, _, _, o', ok⟩
  · exact active o' (recordAccepted_ok ok)
  · exact active o' (recordRetry_ok ok)
  · exact active o' (recordTerminalFailure_ok ok)

lemma OutboxKept.holder (kept : OutboxKept sha256 w) {message : ClaimedNotification}
    (able : CanRecord message w.outbox) :
    ∃ g ∈ w.grants, g.claimed.toClaimedNotification = message ∧
      (∃ m ∈ w.outbox.rows, m.state = .leased ∧ Holds g m) ∧
      ∀ h ∈ w.grants, h.claimed.id = message.id → h.claimed.attempt ≤ message.attempt := by
  obtain ⟨now, m, active⟩ := canRecord_active able
  obtain ⟨row, id, leased, owner, token, count, -⟩ := activeLease_ok active
  have before := kept.rows m row
  obtain ⟨-, g, among, holds, -⟩ := before.leased leased
  refine ⟨g, (List.mem_filter.1 among).1, ?_, ⟨m, row, leased, holds⟩, fun h member own => ?_⟩
  · have sameId : g.claimed.id = message.id := holds.id.trans id
    have sameAttempt : g.claimed.attempt = message.attempt := holds.attempt.trans count
    have sameOwner : g.claimed.leaseOwner = message.leaseOwner :=
      Option.some.inj (holds.owner.symm.trans owner)
    have sameToken : g.claimed.leaseToken = message.leaseToken :=
      Option.some.inj (holds.token.symm.trans token)
    cases message
    cases claimed : g.claimed.toClaimedNotification
    simp only [claimed] at sameId sameAttempt sameOwner sameToken
    rw [sameId, sameAttempt, sameOwner, sameToken]
  · rw [← count]
    exact (before.granted h (grantsOf_mem member (own.trans id.symm))).2.1

lemma OutboxKept.oneLease (kept : OutboxKept sha256 w) {g h : Grant} (left : g ∈ w.grants)
    (right : h ∈ w.grants) (same : h.claimed.id = g.claimed.id)
    (first : Running w.clock (recordedOf w g.claimed.id) g)
    (second : Running w.clock (recordedOf w g.claimed.id) h) : h = g := by
  obtain ⟨m, row, id⟩ := kept.grants g left
  have before := kept.rows m row
  rw [← id] at first second
  have ours := grantsOf_mem left id.symm
  have theirs := grantsOf_mem right (same.trans id.symm)
  obtain ⟨-, latest⟩ := before.live g ours first
  obtain ⟨-, latest'⟩ := before.live h theirs second
  exact List.inj_on_of_nodup_map before.distinct theirs ours (latest'.trans latest.symm)

theorem OutboxKept.lifecycle (kept : OutboxKept sha256 w) : Lifecycle sha256 w where
  oneLease g left h right same := kept.oneLease left right same
  holderRecords message able := kept.holder able
  sentOnce m row sent later := by
    obtain ⟨m', member, same, -, stays⟩ := (kept.run_onward later).rows m row
    exact ⟨m', member, same.id, stays sent⟩
  sameKey m row g member own := ((kept.rows m row).granted g (grantsOf_mem member own)).2.2
  fixed m row later := by
    obtain ⟨m', member, same, -⟩ := (kept.run_onward later).rows m row
    exact ⟨m', member, same⟩
  attempts m row := (kept.rows m row).count
  oneAttempt m row := by
    have before := kept.rows m row
    by_cases leased : m.state = .leased
    · obtain ⟨-, _, -, -, a, alone, -⟩ := before.leased leased
      rw [if_pos leased, alone]
      rfl
    · rw [if_neg leased, before.idle leased]
      rfl
  owned m row known free later passes enough := by
    have due : Due w m.id m.attemptCount := by
      rcases free with ⟨waits, ready⟩ | expired
      · exact ⟨m, row, rfl, rfl, known, ready, Or.inl waits⟩
      · have leased : m.state = .leased := by
          simp only [leaseExpired, Bool.and_eq_true, beq_iff_eq] at expired
          exact expired.1
        obtain ⟨ready, -⟩ := (kept.rows m row).leased leased
        exact ⟨m, row, rfl, rfl, known, ready, Or.inr expired⟩
    exact kept.run_progress due later passes enough

end

/-- Whatever senders, webhooks and the clock do, in any order, every message keeps to its
life cycle. -/
theorem outbox_lifecycle (sha256 : Bytes → Sha256) (now : Instant) (steps : List SenderStep) :
    Lifecycle sha256 (run sha256 steps (emptyOutbox now)) :=
  ((emptyOutbox_kept sha256 now).run steps).lifecycle

end OutboxLeases
