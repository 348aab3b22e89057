import Mathlib.Data.List.Perm.Basic
import SpacerocksCoa.TimestampContents

/-!
# The traversal of a timestamp tree

The loop of the validation with its stack and its four counters. A node of the tree is visited
once, in whatever order: a traversal takes any pending node, and its attestations and its
operations in any order. All traversals accept the same trees and count the same, and none is
longer than the limit of nodes allows.

What an operation gives on a message is a parameter, because it may also raise. Where every
operation gives a result, the loop without the number of nodes is the validation of detached
proofs, which therefore accepts exactly the valid trees within the limits.
-/
namespace TreeTraversal
open OrderStates DetachedProofs
open TimestampContents

/-! ## The parts of a tree -/

def opsOf : Timestamp → List (TimestampOp × Timestamp)
  | .node _ _ ops => ops.toList

mutual

/-- All nodes of a tree, the root first. -/
def nodes : Timestamp → List Timestamp
  | .node msg attestations ops => .node msg attestations ops :: childNodes ops

def childNodes : Operations → List Timestamp
  | .nil => []
  | .cons _ child rest => nodes child ++ childNodes rest

end

@[ext] structure TreeCounts where
  nodes : Nat
  operations : Nat
  attestations : Nat
  pendingAttestations : Nat
  deriving DecidableEq

/-- The four numbers of a list of nodes. -/
def tally (visited : List Timestamp) : TreeCounts where
  nodes := visited.length
  operations := (visited.flatMap opsOf).length
  attestations := (visited.flatMap attestationsOf).length
  pendingAttestations := (visited.flatMap attestationsOf).countP isPending

instance : Add TreeCounts where
  add c d := ⟨c.nodes + d.nodes, c.operations + d.operations, c.attestations + d.attestations,
    c.pendingAttestations + d.pendingAttestations⟩

/-- The limits on the four numbers. -/
structure TreeCounts.Within (counts : TreeCounts) : Prop where
  nodes : counts.nodes ≤ maxTimestampNodes
  operations : counts.operations ≤ maxOperations
  attestations : counts.attestations ≤ maxAttestations
  pendingAttestations : counts.pendingAttestations ≤ maxPendingAttestations

variable (call : TimestampOp → Bytes → Option Bytes)

/-- What is asked of one node. -/
structure ValidNode (t : Timestamp) : Prop where
  attestations : ∀ a ∈ attestationsOf t, supportedAttestation a = true
  operations : ∀ pair ∈ opsOf t, pair.1.supported = true
  arguments : ∀ pair ∈ opsOf t, ∀ argument, pair.1 = .append argument ∨ pair.1 = .prepend argument →
    1 ≤ argument.length ∧ argument.length ≤ maxOperationArgumentBytes
  messages : ∀ pair ∈ opsOf t, call pair.1 t.msg = some pair.2.msg

/-! ## The loop -/

/-- A refusal, or what an operation raises. -/
inductive TreeError where
  | invalid (e : ProofValidationError)
  | raised
  deriving DecidableEq

/-- The nodes that wait, the top of the stack first, and the four counters. -/
structure LoopState where
  pending : List Timestamp
  counts : TreeCounts

def countAttestations (attestations : List Attestation) (counts : TreeCounts) :
    Except TreeError TreeCounts :=
  match checkAttestations attestations
      ⟨counts.operations, counts.attestations, counts.pendingAttestations⟩ with
  | .error e => .error (.invalid e)
  | .ok c => .ok ⟨counts.nodes, c.operations, c.attestations, c.pendingAttestations⟩

/-- The check of one operation against the message of its child. -/
def checkCall (msg : Bytes) (op : TimestampOp) (child : Timestamp) : Except TreeError Unit :=
  let applied : Except TreeError Unit :=
    match call op msg with
    | none => .error .raised
    | some result =>
      if child.msg = result then .ok ()
      else .error (.invalid ⟨"proof_operation_result_mismatch"⟩)
  match op with
  | .append argument =>
    if argumentValid argument then applied
    else .error (.invalid ⟨"proof_operation_argument_invalid"⟩)
  | .prepend argument =>
    if argumentValid argument then applied
    else .error (.invalid ⟨"proof_operation_argument_invalid"⟩)
  | .sha256 => applied
  | .other _ => .error (.invalid ⟨"proof_operation_unsupported"⟩)

def pushChildren (msg : Bytes) :
    List (TimestampOp × Timestamp) → LoopState → Except TreeError LoopState
  | [], state => .ok state
  | (op, child) :: rest, ⟨pending, counts⟩ =>
    let counts := { counts with operations := counts.operations + 1 }
    if maxOperations < counts.operations then
      .error (.invalid ⟨"proof_operation_limit_exceeded"⟩)
    else
      match checkCall call msg op child with
      | .error e => .error e
      | .ok () => pushChildren msg rest ⟨child :: pending, counts⟩

/-- One turn of the loop, for a node that was taken from the stack. -/
def visitNode (msg : Bytes) (attestations : List Attestation)
    (ops : List (TimestampOp × Timestamp)) : LoopState → Except TreeError LoopState
  | ⟨pending, counts⟩ =>
    let counts := { counts with nodes := counts.nodes + 1 }
    if maxTimestampNodes < counts.nodes then
      .error (.invalid ⟨"proof_node_limit_exceeded"⟩)
    else
      match countAttestations attestations counts with
      | .error e => .error e
      | .ok counts => pushChildren call msg ops ⟨pending, counts⟩

/-- `none` is out of fuel. -/
def loop : Nat → LoopState → Option (Except TreeError TreeCounts)
  | _, ⟨[], counts⟩ => some (.ok counts)
  | 0, ⟨_ :: _, _⟩ => none
  | fuel + 1, ⟨t :: rest, counts⟩ =>
    match visitNode call t.msg (attestationsOf t) (opsOf t) ⟨rest, counts⟩ with
    | .error e => some (.error e)
    | .ok state => loop fuel state

def start (root : Timestamp) : LoopState := ⟨[root], ⟨0, 0, 0, 0⟩⟩

def validateTimestampTree (fuel : Nat) (root : Timestamp) :
    Option (Except TreeError TreeCounts) :=
  loop call fuel (start root)

/-- A traversal in any order: some pending node is visited, and its attestations and operations
are taken in some order. The last argument counts the visits. -/
inductive Traversal : LoopState → Except TreeError TreeCounts → Nat → Prop
  | finished {counts : TreeCounts} : Traversal ⟨[], counts⟩ (.ok counts) 0
  | refused {pending rest : List Timestamp} {t : Timestamp} {counts : TreeCounts}
      {attestations : List Attestation} {ops : List (TimestampOp × Timestamp)} {e : TreeError}
      (taken : pending.Perm (t :: rest)) (attested : attestations.Perm (attestationsOf t))
      (operated : ops.Perm (opsOf t))
      (visit : visitNode call t.msg attestations ops ⟨rest, counts⟩ = .error e) :
      Traversal ⟨pending, counts⟩ (.error e) 1
  | visited {pending rest : List Timestamp} {t : Timestamp} {counts : TreeCounts}
      {attestations : List Attestation} {ops : List (TimestampOp × Timestamp)}
      {state : LoopState} {result : Except TreeError TreeCounts} {visits : Nat}
      (taken : pending.Perm (t :: rest)) (attested : attestations.Perm (attestationsOf t))
      (operated : ops.Perm (opsOf t))
      (visit : visitNode call t.msg attestations ops ⟨rest, counts⟩ = .ok state)
      (onward : Traversal state result visits) :
      Traversal ⟨pending, counts⟩ result (visits + 1)

/-! ## Counting -/

theorem counts_add (c d : TreeCounts) : c + d = ⟨c.nodes + d.nodes, c.operations + d.operations,
    c.attestations + d.attestations, c.pendingAttestations + d.pendingAttestations⟩ := rfl

theorem counts_add_assoc (c d e : TreeCounts) : c + d + e = c + (d + e) := by
  simp only [counts_add, Nat.add_assoc]

theorem within_of_add {c d : TreeCounts} (within : (c + d).Within) : c.Within := by
  rw [counts_add] at within
  obtain ⟨nodes, operations, attestations, pending⟩ := within
  simp only at nodes operations attestations pending
  exact ⟨by omega, by omega, by omega, by omega⟩

theorem tally_append (left right : List Timestamp) :
    tally (left ++ right) = tally left + tally right := by
  simp only [tally, counts_add, List.length_append, List.flatMap_append, List.countP_append]

theorem tally_perm {left right : List Timestamp} (same : left.Perm right) :
    tally left = tally right := by
  have operations := same.flatMap_right opsOf
  have attestations := same.flatMap_right attestationsOf
  simp only [tally, same.length_eq, operations.length_eq, attestations.length_eq,
    attestations.countP_eq]

theorem tally_one (t : Timestamp) : tally [t] = ⟨1, (opsOf t).length, (attestationsOf t).length,
    (attestationsOf t).countP isPending⟩ := by
  simp only [tally, List.flatMap_cons, List.flatMap_nil, List.append_nil, List.length_cons,
    List.length_nil]

theorem childNodes_eq : ∀ ops : Operations,
    childNodes ops = ops.toList.flatMap fun pair => nodes pair.2
  | .nil => rfl
  | .cons op child rest => by
    rw [childNodes, childNodes_eq rest, Operations.toList, List.flatMap_cons]

theorem nodes_eq (t : Timestamp) : nodes t = t :: (opsOf t).flatMap fun pair => nodes pair.2 := by
  obtain ⟨msg, attestations, ops⟩ := t
  rw [nodes, childNodes_eq]
  rfl

/-- The nodes that are still to be visited. -/
def remaining (pending : List Timestamp) : List Timestamp := pending.flatMap nodes

theorem remaining_perm {left right : List Timestamp} (same : left.Perm right) :
    (remaining left).Perm (remaining right) := same.flatMap_right nodes

/-! ## One turn -/

variable {call}

theorem countAttestations_iff {attestations : List Attestation} {counts counts' : TreeCounts}
    (within : counts.Within) : countAttestations attestations counts = .ok counts' ↔
      (∀ a ∈ attestations, supportedAttestation a = true) ∧
        counts' = counts + ⟨0, 0, attestations.length, attestations.countP isPending⟩ ∧
        counts'.Within := by
  have checked := @checkAttestations_iff attestations
    ⟨counts.operations, counts.attestations, counts.pendingAttestations⟩
  obtain ⟨few, operations, marks, pending⟩ := within
  unfold countAttestations
  cases result : checkAttestations attestations
      ⟨counts.operations, counts.attestations, counts.pendingAttestations⟩ with
  | error e =>
    refine iff_of_false (fun same => ?_) ?_
    · cases same
    · rintro ⟨supported, rfl, bounds⟩
      rw [counts_add] at bounds
      rw [(checked ⟨operations, marks, pending⟩).2 ⟨supported, rfl, bounds.operations,
        bounds.attestations, bounds.pendingAttestations⟩] at result
      cases result
  | ok c =>
    obtain ⟨supported, rfl, bounds⟩ := (checked ⟨operations, marks, pending⟩).1 result
    constructor
    · intro same
      cases same
      exact ⟨supported, rfl, few, bounds.1, bounds.2.1, bounds.2.2⟩
    · rintro ⟨-, rfl, -⟩
      rfl

/-- One operation passes its checks. -/
structure ValidCall (call : TimestampOp → Bytes → Option Bytes) (msg : Bytes)
    (pair : TimestampOp × Timestamp) : Prop where
  supported : pair.1.supported = true
  argument : ∀ argument, pair.1 = .append argument ∨ pair.1 = .prepend argument →
    1 ≤ argument.length ∧ argument.length ≤ maxOperationArgumentBytes
  message : call pair.1 msg = some pair.2.msg

theorem argumentValid_iff {argument : Bytes} : argumentValid argument = true ↔
    1 ≤ argument.length ∧ argument.length ≤ maxOperationArgumentBytes := by
  simp only [argumentValid, Bool.and_eq_true, decide_eq_true_eq]

theorem applied_iff {msg : Bytes} {op : TimestampOp} {child : Timestamp} :
    (match call op msg with
      | none => (.error .raised : Except TreeError Unit)
      | some result =>
        if child.msg = result then .ok ()
        else .error (.invalid ⟨"proof_operation_result_mismatch"⟩)) = .ok () ↔
      call op msg = some child.msg := by
  cases result : call op msg with
  | none =>
    refine iff_of_false (fun same => ?_) fun same => ?_
    · cases same
    · cases same
  | some value =>
    simp only [Option.some.injEq]
    by_cases same : child.msg = value
    · rw [if_pos same]
      exact iff_of_true rfl same.symm
    · rw [if_neg same]
      refine iff_of_false (fun failed => ?_) fun held => same held.symm
      cases failed

theorem checkCall_iff {msg : Bytes} {op : TimestampOp} {child : Timestamp} :
    checkCall call msg op child = .ok () ↔ ValidCall call msg (op, child) := by
  cases op with
  | append argument =>
    simp only [checkCall]
    by_cases valid : argumentValid argument = true
    · rw [if_pos valid, applied_iff]
      refine ⟨fun held => ⟨rfl, ?_, held⟩, fun held => held.message⟩
      rintro _ (same | same)
      · cases same
        exact argumentValid_iff.1 valid
      · cases same
    · rw [if_neg valid]
      refine iff_of_false (fun failed => ?_) fun held =>
        valid (argumentValid_iff.2 (held.argument argument (Or.inl rfl)))
      cases failed
  | prepend argument =>
    simp only [checkCall]
    by_cases valid : argumentValid argument = true
    · rw [if_pos valid, applied_iff]
      refine ⟨fun held => ⟨rfl, ?_, held⟩, fun held => held.message⟩
      rintro _ (same | same)
      · cases same
      · cases same
        exact argumentValid_iff.1 valid
    · rw [if_neg valid]
      refine iff_of_false (fun failed => ?_) fun held =>
        valid (argumentValid_iff.2 (held.argument argument (Or.inr rfl)))
      cases failed
  | sha256 =>
    refine applied_iff.trans ⟨fun held => ⟨rfl, ?_, held⟩, fun held => held.message⟩
    rintro _ (same | same) <;> cases same
  | other tag =>
    refine iff_of_false (fun failed => ?_) fun held => ?_
    · cases failed
    · cases held.supported

theorem pushChildren_iff {msg : Bytes} {ops : List (TimestampOp × Timestamp)}
    {pending : List Timestamp} {counts : TreeCounts} {state : LoopState} (within : counts.Within) :
    pushChildren call msg ops ⟨pending, counts⟩ = .ok state ↔
      (∀ pair ∈ ops, ValidCall call msg pair) ∧
        state = ⟨(ops.map Prod.snd).reverse ++ pending, counts + ⟨0, ops.length, 0, 0⟩⟩ ∧
        state.counts.Within := by
  induction ops generalizing pending counts with
  | nil =>
    constructor
    · intro same
      cases same
      exact ⟨fun pair member => absurd member List.not_mem_nil, rfl, within⟩
    · rintro ⟨-, rfl, -⟩
      rfl
  | cons head rest ih =>
    obtain ⟨op, child⟩ := head
    rw [List.forall_mem_cons, pushChildren]
    simp only
    by_cases many : maxOperations < counts.operations + 1
    · rw [if_pos many]
      refine iff_of_false (fun same => ?_) ?_
      · cases same
      · rintro ⟨-, rfl, bounds⟩
        have bound := bounds.operations
        simp only [counts_add, List.length_cons] at bound
        omega
    · rw [if_neg many]
      cases checked : checkCall call msg op child with
      | error e =>
        refine iff_of_false (fun same => ?_) ?_
        · cases same
        · rintro ⟨⟨valid, -⟩, -⟩
          rw [checkCall_iff.2 valid] at checked
          cases checked
      | ok _ =>
        have valid := checkCall_iff.1 checked
        have more : TreeCounts.Within { counts with operations := counts.operations + 1 } :=
          ⟨within.nodes, not_lt.1 many, within.attestations, within.pendingAttestations⟩
        refine (ih more).trans ?_
        rw [List.map_cons, List.reverse_cons, List.append_assoc, List.length_cons]
        simp only [counts_add, valid, true_and, Nat.add_zero, List.singleton_append,
          Nat.add_comm rest.length 1, Nat.add_assoc]

theorem validNode_iff {t : Timestamp} : ValidNode call t ↔
    (∀ a ∈ attestationsOf t, supportedAttestation a = true) ∧
      ∀ pair ∈ opsOf t, ValidCall call t.msg pair := by
  constructor
  · intro valid
    exact ⟨valid.attestations, fun pair member => ⟨valid.operations pair member,
      valid.arguments pair member, valid.messages pair member⟩⟩
  · rintro ⟨attestations, calls⟩
    exact ⟨attestations, fun pair member => (calls pair member).supported,
      fun pair member => (calls pair member).argument,
      fun pair member => (calls pair member).message⟩

/-- A turn of the loop passes exactly a valid node within the limits, and replaces it by its
children. -/
theorem visitNode_iff {t : Timestamp} {attestations : List Attestation}
    {ops : List (TimestampOp × Timestamp)} {rest : List Timestamp} {counts : TreeCounts}
    {state : LoopState} (within : counts.Within) (attested : attestations.Perm (attestationsOf t))
    (operated : ops.Perm (opsOf t)) :
    visitNode call t.msg attestations ops ⟨rest, counts⟩ = .ok state ↔
      ValidNode call t ∧ state = ⟨(ops.map Prod.snd).reverse ++ rest, counts + tally [t]⟩ ∧
        state.counts.Within := by
  rw [validNode_iff, tally_one, ← attested.length_eq, ← operated.length_eq,
    ← attested.countP_eq]
  have marks : (∀ a ∈ attestationsOf t, supportedAttestation a = true) ↔
      ∀ a ∈ attestations, supportedAttestation a = true :=
    forall_congr' fun a => imp_congr_left attested.mem_iff.symm
  have calls : (∀ pair ∈ opsOf t, ValidCall call t.msg pair) ↔
      ∀ pair ∈ ops, ValidCall call t.msg pair :=
    forall_congr' fun pair => imp_congr_left operated.mem_iff.symm
  rw [marks, calls]
  unfold visitNode
  simp only
  by_cases many : maxTimestampNodes < counts.nodes + 1
  · rw [if_pos many]
    refine iff_of_false (fun same => ?_) ?_
    · cases same
    · rintro ⟨-, rfl, bounds⟩
      exact absurd bounds.nodes (not_le.2 many)
  · rw [if_neg many]
    have more : TreeCounts.Within { counts with nodes := counts.nodes + 1 } :=
      ⟨not_lt.1 many, within.operations, within.attestations, within.pendingAttestations⟩
    cases counted : countAttestations attestations { counts with nodes := counts.nodes + 1 } with
    | error e =>
      refine iff_of_false (fun same => ?_) ?_
      · cases same
      · rintro ⟨⟨supported, -⟩, rfl, bounds⟩
        rw [(countAttestations_iff more).2 ⟨supported, rfl, bounds.nodes, ?_,
          bounds.attestations, bounds.pendingAttestations⟩] at counted
        · cases counted
        · exact within.operations
    | ok middle =>
      obtain ⟨supported, rfl, bounds⟩ := (countAttestations_iff more).1 counted
      refine (pushChildren_iff bounds).trans ?_
      simp only [counts_add, Nat.add_zero]
      exact ⟨fun both => ⟨⟨supported, both.1⟩, both.2⟩, fun both => ⟨both.1.2, both.2⟩⟩

/-! ## Every traversal -/

theorem remaining_cons (t : Timestamp) (rest : List Timestamp) :
    remaining (t :: rest) = t :: (((opsOf t).flatMap fun pair => nodes pair.2) ++
      remaining rest) := by
  rw [remaining, List.flatMap_cons, nodes_eq, List.cons_append, remaining]

/-- After a turn the nodes below the visited one are still to be visited. -/
theorem remaining_pushed {t : Timestamp} {ops : List (TimestampOp × Timestamp)}
    (operated : ops.Perm (opsOf t)) (rest : List Timestamp) :
    (t :: remaining ((ops.map Prod.snd).reverse ++ rest)).Perm (remaining (t :: rest)) := by
  rw [remaining_cons]
  refine List.Perm.cons t ?_
  have turned : ((ops.map Prod.snd).reverse).Perm ((opsOf t).map Prod.snd) :=
    (List.reverse_perm _).trans (operated.map Prod.snd)
  have children : remaining ((opsOf t).map Prod.snd) =
      (opsOf t).flatMap fun pair => nodes pair.2 := List.flatMap_map _ _ _
  have below := remaining_perm turned
  rw [children] at below
  rw [remaining, List.flatMap_append]
  exact below.append_right _

/-- What a traversal finds, from any state on. -/
def Passes (call : TimestampOp → Bytes → Option Bytes) (state : LoopState) (counts : TreeCounts) :
    Prop :=
  (∀ t ∈ remaining state.pending, ValidNode call t) ∧
    counts = state.counts + tally (remaining state.pending) ∧ counts.Within

theorem passes_step {pending rest : List Timestamp} {t : Timestamp} {counts result : TreeCounts}
    {ops : List (TimestampOp × Timestamp)} (taken : pending.Perm (t :: rest))
    (operated : ops.Perm (opsOf t)) : Passes call ⟨pending, counts⟩ result ↔
      ValidNode call t ∧
        Passes call ⟨(ops.map Prod.snd).reverse ++ rest, counts + tally [t]⟩ result := by
  have order := (remaining_perm taken).trans (remaining_pushed operated rest).symm
  have members : (∀ s ∈ remaining pending, ValidNode call s) ↔ ValidNode call t ∧
      ∀ s ∈ remaining ((ops.map Prod.snd).reverse ++ rest), ValidNode call s := by
    rw [← List.forall_mem_cons]
    exact forall_congr' fun s => imp_congr_left order.mem_iff
  have sums : tally (remaining pending) =
      tally [t] + tally (remaining ((ops.map Prod.snd).reverse ++ rest)) := by
    rw [tally_perm order, ← tally_append, List.singleton_append]
  unfold Passes
  simp only
  rw [members, sums, counts_add_assoc, and_assoc]

theorem passes_within {state : LoopState} {counts : TreeCounts}
    (passes : Passes call state counts) : state.counts.Within := by
  obtain ⟨-, rfl, bounds⟩ := passes
  exact within_of_add bounds

/-- Every traversal accepts exactly what passes, and returns its numbers. -/
theorem traversal_iff {state : LoopState} {result : Except TreeError TreeCounts} {visits : Nat}
    (within : state.counts.Within) (traversed : Traversal call state result visits) :
    ∀ counts, result = .ok counts ↔ Passes call state counts := by
  induction traversed with
  | finished =>
    intro counts
    constructor
    · intro same
      cases same
      exact ⟨fun t none => absurd none List.not_mem_nil, rfl, within⟩
    · rintro ⟨-, rfl, -⟩
      rfl
  | refused taken attested operated visit =>
    intro counts
    refine iff_of_false (fun same => ?_) fun passes => ?_
    · cases same
    · obtain ⟨valid, onward⟩ := (passes_step taken operated).1 passes
      rw [(visitNode_iff within attested operated).2 ⟨valid, rfl, passes_within onward⟩] at visit
      cases visit
  | visited taken attested operated visit onward ih =>
    intro counts
    obtain ⟨valid, rfl, bounds⟩ := (visitNode_iff within attested operated).1 visit
    rw [ih bounds counts, passes_step taken operated]
    exact ⟨fun passes => ⟨valid, passes⟩, fun both => both.2⟩

/-- Each visit is counted, so that a traversal ends at the latest after the limit. -/
theorem traversal_visits {state : LoopState} {result : Except TreeError TreeCounts} {visits : Nat}
    (within : state.counts.Within) (traversed : Traversal call state result visits) :
    visits + state.counts.nodes ≤ maxTimestampNodes + 1 := by
  induction traversed with
  | finished =>
    have few := within.nodes
    omega
  | refused =>
    have few := within.nodes
    omega
  | visited taken attested operated visit onward ih =>
    obtain ⟨-, rfl, bounds⟩ := (visitNode_iff within attested operated).1 visit
    have rest := ih bounds
    simp only [counts_add, tally_one] at rest ⊢
    omega

/-- The loop of the code is one of the traversals. -/
theorem loop_traversal {fuel : Nat} {state : LoopState} {result : Except TreeError TreeCounts}
    (ended : loop call fuel state = some result) :
    ∃ visits, Traversal call state result visits := by
  induction fuel generalizing state with
  | zero =>
    obtain ⟨pending, counts⟩ := state
    cases pending with
    | nil =>
      cases ended
      exact ⟨0, .finished⟩
    | cons t rest => cases ended
  | succ fuel ih =>
    obtain ⟨pending, counts⟩ := state
    cases pending with
    | nil =>
      cases ended
      exact ⟨0, .finished⟩
    | cons t rest =>
      simp only [loop] at ended
      cases turn : visitNode call t.msg (attestationsOf t) (opsOf t) ⟨rest, counts⟩ with
      | error e =>
        simp only [turn, Option.some.injEq] at ended
        subst ended
        exact ⟨1, .refused (.refl _) (.refl _) (.refl _) turn⟩
      | ok next =>
        simp only [turn] at ended
        obtain ⟨visits, onward⟩ := ih ended
        exact ⟨visits + 1, .visited (.refl _) (.refl _) (.refl _) turn onward⟩

theorem loop_ends {fuel : Nat} {state : LoopState} (within : state.counts.Within)
    (enough : maxTimestampNodes < fuel + state.counts.nodes) :
    ∃ result, loop call fuel state = some result := by
  induction fuel generalizing state with
  | zero =>
    have few := within.nodes
    omega
  | succ fuel ih =>
    obtain ⟨pending, counts⟩ := state
    cases pending with
    | nil => exact ⟨_, rfl⟩
    | cons t rest =>
      simp only [loop]
      cases turn : visitNode call t.msg (attestationsOf t) (opsOf t) ⟨rest, counts⟩ with
      | error e => exact ⟨_, rfl⟩
      | ok next =>
        obtain ⟨-, rfl, bounds⟩ := (visitNode_iff within (.refl _) (.refl _)).1 turn
        refine ih bounds ?_
        simp only [counts_add, tally_one] at enough ⊢
        omega

theorem loop_more {fuel more : Nat} {state : LoopState} {result : Except TreeError TreeCounts}
    (le : fuel ≤ more) (ended : loop call fuel state = some result) :
    loop call more state = some result := by
  induction fuel generalizing more state with
  | zero =>
    obtain ⟨pending, counts⟩ := state
    cases pending with
    | nil =>
      cases more <;> exact ended
    | cons t rest => cases ended
  | succ fuel ih =>
    cases more with
    | zero => exact absurd le (Nat.not_succ_le_zero fuel)
    | succ more =>
      obtain ⟨pending, counts⟩ := state
      cases pending with
      | nil => exact ended
      | cons t rest =>
        simp only [loop] at ended ⊢
        cases turn : visitNode call t.msg (attestationsOf t) (opsOf t) ⟨rest, counts⟩ with
        | error e =>
          simp only [turn] at ended ⊢
          exact ended
        | ok next =>
          simp only [turn] at ended ⊢
          exact ih (Nat.le_of_succ_le_succ le) ended

theorem start_within (root : Timestamp) : (start root).counts.Within :=
  ⟨Nat.zero_le _, Nat.zero_le _, Nat.zero_le _, Nat.zero_le _⟩

theorem passes_start {root : Timestamp} {counts : TreeCounts} :
    Passes call (start root) counts ↔
      counts = tally (nodes root) ∧ counts.Within ∧ ∀ t ∈ nodes root, ValidNode call t := by
  have whole : remaining (start root).pending = nodes root := by
    rw [start, remaining, List.flatMap_cons, List.flatMap_nil, List.append_nil]
  have sum : (start root).counts + tally (nodes root) = tally (nodes root) := by
    rw [start, counts_add]
    simp only [Nat.zero_add]
  rw [Passes, whole, sum]
  exact ⟨fun all => ⟨all.2.1, all.2.2, all.1⟩, fun all => ⟨all.2.2, all.1, all.2.1⟩⟩

/-- The loop ends, accepts exactly the trees of valid nodes within the limits, and returns their
four numbers; every other order of visits ends, accepts the same trees and counts the same. -/
theorem tree_validation (call : TimestampOp → Bytes → Option Bytes) (root : Timestamp) :
    ∃ result, (∀ fuel, maxTimestampNodes < fuel →
        validateTimestampTree call fuel root = some result) ∧
      (∀ counts, result = .ok counts ↔
        counts = tally (nodes root) ∧ counts.Within ∧ ∀ t ∈ nodes root, ValidNode call t) ∧
      ∀ other visits, Traversal call (start root) other visits →
        visits ≤ maxTimestampNodes + 1 ∧ ∀ counts, other = .ok counts ↔ result = .ok counts := by
  have enough : maxTimestampNodes < maxTimestampNodes + 1 + (start root).counts.nodes :=
    Nat.lt_succ_self _
  obtain ⟨result, ended⟩ := @loop_ends call _ _ (start_within root) enough
  obtain ⟨visits, traversed⟩ := loop_traversal ended
  have verdict := traversal_iff (start_within root) traversed
  refine ⟨result, fun fuel more => loop_more more ended, fun counts => ?_, ?_⟩
  · rw [verdict counts, passes_start]
  · intro other visits' traversed'
    refine ⟨traversal_visits (start_within root) traversed', fun counts => ?_⟩
    rw [traversal_iff (start_within root) traversed' counts, verdict counts]

/-! ## The validation without the number of nodes -/

section
variable (sha256 : Bytes → Sha256)

/-- The operations that give a result on every message. -/
def totalCall (op : TimestampOp) (msg : Bytes) : Option Bytes := some (op.apply sha256 msg)

theorem checkCall_total (msg : Bytes) (op : TimestampOp) (child : Timestamp) :
    checkCall (totalCall sha256) msg op child =
      (checkOperation sha256 msg op child).mapError TreeError.invalid := by
  have applied : ∀ o : TimestampOp, (if child.msg = o.apply sha256 msg then .ok ()
      else (.error (.invalid ⟨"proof_operation_result_mismatch"⟩) : Except TreeError Unit)) =
        (if child.msg = o.apply sha256 msg then .ok ()
          else .error ⟨"proof_operation_result_mismatch"⟩ :
            Except ProofValidationError Unit).mapError TreeError.invalid := by
    intro o
    split <;> rfl
  cases op with
  | append argument =>
    simp only [checkCall, checkOperation, totalCall]
    split
    · exact applied (.append argument)
    · rfl
  | prepend argument =>
    simp only [checkCall, checkOperation, totalCall]
    split
    · exact applied (.prepend argument)
    · rfl
  | sha256 => exact applied .sha256
  | other tag => rfl

def withNodes (nodes : Nat) (c : Counts) : TreeCounts :=
  ⟨nodes, c.operations, c.attestations, c.pendingAttestations⟩

def TreeCounts.withoutNodes (c : TreeCounts) : Counts :=
  ⟨c.operations, c.attestations, c.pendingAttestations⟩

theorem pushChildren_total (msg : Bytes) (ops : List (TimestampOp × Timestamp))
    (pending : List Timestamp) (visited : Nat) (c : Counts) :
    pushChildren (totalCall sha256) msg ops ⟨pending, withNodes visited c⟩ =
      match checkOperations sha256 msg ops c with
      | .error e => .error (.invalid e)
      | .ok d => .ok ⟨(ops.map Prod.snd).reverse ++ pending, withNodes visited d⟩ := by
  induction ops generalizing pending c with
  | nil => rfl
  | cons head rest ih =>
    obtain ⟨op, child⟩ := head
    simp only [pushChildren, checkOperations, withNodes, checkCall_total]
    by_cases many : maxOperations < c.operations + 1
    · rw [if_pos many, if_pos many]
    · rw [if_neg many, if_neg many]
      cases checkOperation sha256 msg op child with
      | error e => rfl
      | ok _ =>
        have next := ih (child :: pending) { c with operations := c.operations + 1 }
        simp only [withNodes] at next
        simp only [Except.mapError, next, List.map_cons, List.reverse_cons, List.append_assoc,
          List.singleton_append]

/-- Where operations always give a result, the loop without the number of nodes is the
validation of detached proofs. -/
theorem loop_total {allowed : Nat} (le : allowed ≤ maxTimestampNodes) (stack : List Timestamp)
    (c : Counts) :
    (loop (totalCall sha256) (allowed + 1)
        ⟨stack, withNodes (maxTimestampNodes - allowed) c⟩).map
          (fun result => result.map TreeCounts.withoutNodes) =
      some ((validateNodes sha256 allowed stack c).mapError TreeError.invalid) := by
  induction allowed generalizing stack c with
  | zero =>
    cases stack with
    | nil => rfl
    | cons t rest => rfl
  | succ allowed ih =>
    cases stack with
    | nil => rfl
    | cons t rest =>
      obtain ⟨msg, attestations, ops⟩ := t
      have one : maxTimestampNodes - (allowed + 1) + 1 = maxTimestampNodes - allowed := by omega
      have few : ¬maxTimestampNodes < maxTimestampNodes - allowed := by omega
      rw [loop, validateNodes]
      simp only [visitNode, withNodes, one, if_neg few, countAttestations, Timestamp.msg,
        attestationsOf, opsOf]
      cases checkAttestations attestations c with
      | error e => rfl
      | ok d =>
        have pushed := pushChildren_total sha256 msg ops.toList rest
          (maxTimestampNodes - allowed) d
        simp only [withNodes] at pushed
        simp only [pushed]
        cases checkOperations sha256 msg ops.toList d with
        | error e => rfl
        | ok last => exact ih (by omega) _ last

theorem validateTimestampTree_total (root : Timestamp) :
    (validateTimestampTree (totalCall sha256) (maxTimestampNodes + 1) root).map
        (fun result => result.map TreeCounts.withoutNodes) =
      some ((DetachedProofs.validateTimestampTree sha256 root).mapError TreeError.invalid) :=
  loop_total sha256 (Nat.le_refl _) [root] ⟨0, 0, 0⟩

end

/-! ## The nodes and the contents -/

mutual

theorem nodes_length : ∀ t : Timestamp, (nodes t).length = (treeNodes t).length
  | .node _ _ ops => congrArg Nat.succ (childNodes_length ops)

theorem childNodes_length : ∀ ops : Operations, (childNodes ops).length = (opNodes ops).length
  | .nil => rfl
  | .cons op child rest => by
    rw [childNodes, opNodes, List.length_append, List.length_append, List.length_map,
      nodes_length child, childNodes_length rest]

end

mutual

theorem nodes_attestations : ∀ t : Timestamp,
    (nodes t).flatMap attestationsOf = (treeMarks t).map Prod.snd
  | .node msg attestations ops => by
    have here : (attestations.map fun a => (([] : Path), a)).map Prod.snd = attestations := by
      rw [List.map_map]
      exact List.map_id attestations
    rw [nodes, List.flatMap_cons, childNodes_attestations ops, treeMarks, List.map_append, here]
    rfl

theorem childNodes_attestations : ∀ ops : Operations,
    (childNodes ops).flatMap attestationsOf = (opMarks ops).map Prod.snd
  | .nil => rfl
  | .cons op child rest => by
    rw [childNodes, opMarks, List.flatMap_append, List.map_append, List.map_map,
      nodes_attestations child, childNodes_attestations rest]
    rfl

end

mutual

/-- Every node but the root is the result of one operation. -/
theorem nodes_operations : ∀ t : Timestamp,
    ((nodes t).flatMap opsOf).length + 1 = (nodes t).length
  | .node msg attestations ops => by
    have below := childNodes_operations ops
    rw [nodes, List.flatMap_cons, List.length_append, List.length_cons, opsOf]
    omega

theorem childNodes_operations : ∀ ops : Operations,
    ((childNodes ops).flatMap opsOf).length + ops.toList.length = (childNodes ops).length
  | .nil => rfl
  | .cons op child rest => by
    have inside := nodes_operations child
    have others := childNodes_operations rest
    rw [childNodes, List.flatMap_append, List.length_append, List.length_append,
      Operations.toList, List.length_cons]
    omega

end

theorem tally_within {t : Timestamp} : (tally (nodes t)).Within ↔ WithinLimits t := by
  have operations := nodes_operations t
  have limit : maxTimestampNodes = maxOperations + 1 := rfl
  have few : (tally (nodes t)).nodes = nodeCount t := nodes_length t
  have marks : (tally (nodes t)).attestations = markCount t := by
    rw [tally, nodes_attestations, List.length_map, markCount]
  have pending : (tally (nodes t)).pendingAttestations = pendingCount t := by
    rw [tally, nodes_attestations, List.countP_map, pendingCount]
    rfl
  constructor
  · rintro ⟨nodes, _, attestations, waiting⟩
    rw [few] at nodes
    rw [marks] at attestations
    rw [pending] at waiting
    exact ⟨nodes, attestations, waiting⟩
  · rintro ⟨nodes, attestations, waiting⟩
    refine ⟨few ▸ nodes, ?_, marks ▸ attestations, pending ▸ waiting⟩
    rw [← few] at nodes
    simp only [tally] at nodes ⊢
    omega

section

variable {sha256 : Bytes → Sha256}

theorem validCall_total {msg : Bytes} {op : TimestampOp} {child : Timestamp} :
    ValidCall (totalCall sha256) msg (op, child) ↔
      permittedOp op = true ∧ child.msg = op.apply sha256 msg := by
  have result : totalCall sha256 op msg = some child.msg ↔ child.msg = op.apply sha256 msg := by
    rw [totalCall, Option.some.injEq]
    exact eq_comm
  rw [← checkCall_iff]
  cases op with
  | append argument =>
    simp only [checkCall, permittedOp]
    by_cases valid : argumentValid argument = true
    · rw [if_pos valid, applied_iff, result]
      exact ⟨fun held => ⟨valid, held⟩, fun both => both.2⟩
    · rw [if_neg valid]
      refine iff_of_false (fun failed => ?_) fun both => valid both.1
      cases failed
  | prepend argument =>
    simp only [checkCall, permittedOp]
    by_cases valid : argumentValid argument = true
    · rw [if_pos valid, applied_iff, result]
      exact ⟨fun held => ⟨valid, held⟩, fun both => both.2⟩
    · rw [if_neg valid]
      refine iff_of_false (fun failed => ?_) fun both => valid both.1
      cases failed
  | sha256 =>
    refine applied_iff.trans (result.trans ?_)
    exact ⟨fun held => ⟨rfl, held⟩, fun both => both.2⟩
  | other tag =>
    refine iff_of_false (fun failed => ?_) fun both => ?_
    · cases failed
    · cases both.1

mutual

theorem validTree_nodes : ∀ t : Timestamp, ValidTree sha256 t ↔
    ∀ s ∈ nodes t, ValidNode (totalCall sha256) s
  | .node msg attestations ops => by
    rw [ValidTree, validOps_nodes msg ops, nodes, List.forall_mem_cons, validNode_iff]
    exact and_assoc.symm

theorem validOps_nodes (msg : Bytes) : ∀ ops : Operations, ValidOps sha256 msg ops ↔
    (∀ pair ∈ ops.toList, ValidCall (totalCall sha256) msg pair) ∧
      ∀ s ∈ childNodes ops, ValidNode (totalCall sha256) s
  | .nil => by
    refine iff_of_true trivial ⟨fun pair member => ?_, fun s member => ?_⟩
    · exact absurd member List.not_mem_nil
    · exact absurd member List.not_mem_nil
  | .cons op child rest => by
    rw [ValidOps, validTree_nodes child, validOps_nodes msg rest, Operations.toList, childNodes,
      List.forall_mem_cons, List.forall_mem_append, validCall_total]
    constructor
    · rintro ⟨permitted, result, inside, calls, others⟩
      exact ⟨⟨⟨permitted, result⟩, calls⟩, inside, others⟩
    · rintro ⟨⟨⟨permitted, result⟩, calls⟩, inside, others⟩
      exact ⟨permitted, result, inside, calls, others⟩

end

/-- Detached proofs are accepted exactly when their trees are valid and within the limits. -/
theorem validateTimestampTree_iff {t : Timestamp} :
    (∃ counts, DetachedProofs.validateTimestampTree sha256 t = .ok counts) ↔
      ValidTree sha256 t ∧ WithinLimits t := by
  have enough : maxTimestampNodes < maxTimestampNodes + 1 + (start t).counts.nodes :=
    Nat.lt_succ_self _
  obtain ⟨result, ended⟩ := @loop_ends (totalCall sha256) _ _ (start_within t) enough
  obtain ⟨visits, traversed⟩ := loop_traversal ended
  have verdict := traversal_iff (start_within t) traversed
  have same := validateTimestampTree_total sha256 t
  rw [validateTimestampTree, ended, Option.map_some, Option.some.injEq] at same
  rw [validTree_nodes, ← tally_within]
  constructor
  · rintro ⟨counts, accepted⟩
    rw [accepted] at same
    cases result with
    | error e => cases same
    | ok found =>
      obtain ⟨rfl, within, valid⟩ := passes_start.1 ((verdict found).1 rfl)
      exact ⟨valid, within⟩
  · rintro ⟨valid, within⟩
    rw [(verdict (tally (nodes t))).2 (passes_start.2 ⟨rfl, within, valid⟩)] at same
    cases accepted : DetachedProofs.validateTimestampTree sha256 t with
    | error e =>
      rw [accepted] at same
      cases same
    | ok counts => exact ⟨counts, rfl⟩

end

end TreeTraversal
