import SpacerocksCoa.OrderStates

/-!
# Detached proofs of an exact digest

The tree of a detached OpenTimestamps proof, its structural validation and what a valid
proof says: every attestation in it is about a message that the order's digest leads to
through the operations of the tree. Reading the bytes is left to the library, as a function
from bytes to a tree; SHA-256 is a parameter as well.
-/
namespace DetachedProofs
open OrderStates

inductive Attestation where
  | bitcoin (height : Nat)
  | pending (uri : Bytes)
  | other (tag : Bytes)
  deriving DecidableEq

inductive TimestampOp where
  | append (argument : Bytes)
  | prepend (argument : Bytes)
  | sha256
  | other (tag : Nat)
  deriving DecidableEq

mutual

inductive Timestamp where
  | node (msg : Bytes) (attestations : List Attestation) (ops : Operations)
  deriving DecidableEq

inductive Operations where
  | nil
  | cons (op : TimestampOp) (child : Timestamp) (rest : Operations)
  deriving DecidableEq

end

def Timestamp.msg : Timestamp → Bytes
  | .node msg _ _ => msg

def attestationsOf : Timestamp → List Attestation
  | .node _ attestations _ => attestations

def Operations.toList : Operations → List (TimestampOp × Timestamp)
  | .nil => []
  | .cons op child rest => (op, child) :: rest.toList

mutual

def Timestamp.allAttestations : Timestamp → List (Bytes × Attestation)
  | .node msg attestations ops => attestations.map (fun a => (msg, a)) ++ ops.allAttestations

def Operations.allAttestations : Operations → List (Bytes × Attestation)
  | .nil => []
  | .cons _ child rest => child.allAttestations ++ rest.allAttestations

end

/-- The file hash operation of a detached file is one of the operations. -/
structure DetachedTimestampFile where
  fileHashOp : TimestampOp
  timestamp : Timestamp
  deriving DecidableEq

/-- `ProofValidationError` with its text. -/
structure ProofValidationError where
  text : String
  deriving DecidableEq

def maxProofBytes : Nat := 262144
def maxTimestampNodes : Nat := 256
def maxOperations : Nat := 255
def maxAttestations : Nat := 256
def maxPendingAttestations : Nat := 16
def maxOperationArgumentBytes : Nat := 64

structure Counts where
  operations : Nat
  attestations : Nat
  pendingAttestations : Nat
  deriving DecidableEq

variable (sha256 : Bytes → Sha256)

/-- An operation on a message; those of other kinds are refused before they are applied. -/
def TimestampOp.apply (op : TimestampOp) (msg : Bytes) : Bytes :=
  match op with
  | .append argument => msg ++ argument
  | .prepend argument => argument ++ msg
  | .sha256 => (sha256 msg).value
  | .other _ => []

def checkAttestations : List Attestation → Counts → Except ProofValidationError Counts
  | [], counts => .ok counts
  | a :: rest, counts =>
    let counts := { counts with attestations := counts.attestations + 1 }
    if maxAttestations < counts.attestations then .error ⟨"proof_attestation_limit_exceeded"⟩
    else
      match a with
      | .pending _ =>
        let counts := { counts with pendingAttestations := counts.pendingAttestations + 1 }
        if maxPendingAttestations < counts.pendingAttestations then
          .error ⟨"proof_pending_attestation_limit_exceeded"⟩
        else checkAttestations rest counts
      | .bitcoin _ => checkAttestations rest counts
      | .other _ => .error ⟨"proof_attestation_type_unsupported"⟩

def argumentValid (argument : Bytes) : Bool :=
  decide (1 ≤ argument.length) && decide (argument.length ≤ maxOperationArgumentBytes)

/-- The check of one operation against the message of its child. -/
def checkOperation (msg : Bytes) (op : TimestampOp) (child : Timestamp) :
    Except ProofValidationError Unit :=
  let applied : Except ProofValidationError Unit :=
    if child.msg = op.apply sha256 msg then .ok ()
    else .error ⟨"proof_operation_result_mismatch"⟩
  match op with
  | .append argument =>
    if argumentValid argument then applied else .error ⟨"proof_operation_argument_invalid"⟩
  | .prepend argument =>
    if argumentValid argument then applied else .error ⟨"proof_operation_argument_invalid"⟩
  | .sha256 => applied
  | .other _ => .error ⟨"proof_operation_unsupported"⟩

def checkOperations (msg : Bytes) :
    List (TimestampOp × Timestamp) → Counts → Except ProofValidationError Counts
  | [], counts => .ok counts
  | (op, child) :: rest, counts =>
    let counts := { counts with operations := counts.operations + 1 }
    if maxOperations < counts.operations then .error ⟨"proof_operation_limit_exceeded"⟩
    else
      match checkOperation sha256 msg op child with
      | .ok () => checkOperations msg rest counts
      | .error e => .error e

/-- The loop of `validate_timestamp_tree`: the stack has its top first, and `nodes` more
nodes are allowed. -/
def validateNodes : Nat → List Timestamp → Counts → Except ProofValidationError Counts
  | _, [], counts => .ok counts
  | 0, _ :: _, _ => .error ⟨"proof_node_limit_exceeded"⟩
  | nodes + 1, .node msg attestations ops :: stack, counts =>
    match checkAttestations attestations counts with
    | .error e => .error e
    | .ok counts =>
      match checkOperations sha256 msg ops.toList counts with
      | .error e => .error e
      | .ok counts =>
        validateNodes nodes ((ops.toList.map Prod.snd).reverse ++ stack) counts

def validateTimestampTree (root : Timestamp) : Except ProofValidationError Counts :=
  validateNodes sha256 maxTimestampNodes [root] ⟨0, 0, 0⟩

/-- `deserialize_exact_proof` without an expected checksum. -/
def deserializeExactProof (deserialize : Bytes → Option DetachedTimestampFile)
    (digest : ManifestDigest) (proofBytes : Bytes) :
    Except ProofValidationError DetachedTimestampFile :=
  if proofBytes = [] ∨ maxProofBytes < proofBytes.length then .error ⟨"proof_size_invalid"⟩
  else
    match deserialize proofBytes with
    | none => .error ⟨"proof_deserialization_failed"⟩
    | some detached =>
      if detached.fileHashOp ≠ .sha256 then .error ⟨"proof_hash_operation_mismatch"⟩
      else if detached.timestamp.msg ≠ digest.value then .error ⟨"proof_target_mismatch"⟩
      else
        match validateTimestampTree sha256 detached.timestamp with
        | .error e => .error e
        | .ok _ => .ok detached

/-- The Bitcoin attestations of a proof with their messages. -/
def bitcoinAttestations (detached : DetachedTimestampFile) : List (Nat × Bytes) :=
  detached.timestamp.allAttestations.filterMap fun pair =>
    match pair.2 with
    | .bitcoin height => some (height, pair.1)
    | _ => none

/-! ## What a valid tree commits to -/

def TimestampOp.supported : TimestampOp → Bool
  | .other _ => false
  | _ => true

/-- The messages that a digest leads to through supported operations. -/
inductive Commits (digest : Bytes) : Bytes → Prop
  | digest : Commits digest digest
  | step {msg : Bytes} (op : TimestampOp) :
      Commits digest msg → op.supported = true → Commits digest (op.apply sha256 msg)

mutual

def Timestamp.Sound : Timestamp → Prop
  | .node msg _ ops => ops.Sound msg

def Operations.Sound : Operations → Bytes → Prop
  | .nil, _ => True
  | .cons op child rest, msg => op.supported = true ∧ child.msg = op.apply sha256 msg ∧
      child.Sound ∧ rest.Sound msg

end

variable {sha256}

theorem checkOperation_ok {msg : Bytes} {op : TimestampOp} {child : Timestamp}
    (passes : checkOperation sha256 msg op child = .ok ()) :
    op.supported = true ∧ child.msg = op.apply sha256 msg := by
  have applied : ∀ o : TimestampOp, (if child.msg = o.apply sha256 msg then
      (.ok () : Except ProofValidationError Unit)
      else .error ⟨"proof_operation_result_mismatch"⟩) = .ok () →
        child.msg = o.apply sha256 msg := by
    intro o held
    by_contra differs
    rw [if_neg differs] at held
    cases held
  cases op with
  | append argument =>
    simp only [checkOperation] at passes
    split at passes
    · exact ⟨rfl, applied _ passes⟩
    · cases passes
  | prepend argument =>
    simp only [checkOperation] at passes
    split at passes
    · exact ⟨rfl, applied _ passes⟩
    · cases passes
  | sha256 => exact ⟨rfl, applied _ passes⟩
  | other tag => cases passes

theorem checkOperations_ok {msg : Bytes} {ops : List (TimestampOp × Timestamp)}
    {counts counts' : Counts} (passes : checkOperations sha256 msg ops counts = .ok counts') :
    ∀ pair ∈ ops, pair.1.supported = true ∧ pair.2.msg = pair.1.apply sha256 msg := by
  induction ops generalizing counts with
  | nil =>
    intro pair member
    exact absurd member List.not_mem_nil
  | cons head rest ih =>
    obtain ⟨op, child⟩ := head
    simp only [checkOperations] at passes
    split at passes
    · cases passes
    · split at passes
      · next checked =>
        intro pair member
        rcases List.mem_cons.1 member with rfl | later
        · exact checkOperation_ok checked
        · exact ih passes pair later
      · cases passes

theorem Operations.sound_of_list {msg : Bytes} : ∀ (ops : Operations),
    (∀ pair ∈ ops.toList, pair.1.supported = true ∧ pair.2.msg = pair.1.apply sha256 msg) →
      (∀ pair ∈ ops.toList, pair.2.Sound sha256) → ops.Sound sha256 msg
  | .nil, _, _ => trivial
  | .cons op child rest, checked, children => by
    have here := checked (op, child) List.mem_cons_self
    have later := Operations.sound_of_list rest
      (fun pair member => checked pair (List.mem_cons_of_mem _ member))
      fun pair member => children pair (List.mem_cons_of_mem _ member)
    exact ⟨here.1, here.2, children (op, child) List.mem_cons_self, later⟩

/-- Validation visits every node. -/
theorem validateNodes_sound {nodes : Nat} {stack : List Timestamp} {counts counts' : Counts}
    (passes : validateNodes sha256 nodes stack counts = .ok counts') :
    ∀ t ∈ stack, t.Sound sha256 := by
  induction nodes generalizing stack counts with
  | zero =>
    cases stack with
    | nil =>
      intro t member
      exact absurd member List.not_mem_nil
    | cons head rest => cases passes
  | succ nodes ih =>
    cases stack with
    | nil =>
      intro t member
      exact absurd member List.not_mem_nil
    | cons head rest =>
      obtain ⟨msg, attestations, ops⟩ := head
      simp only [validateNodes] at passes
      split at passes
      · cases passes
      · split at passes
        · cases passes
        · next checked =>
          have below := ih passes
          intro t member
          rcases List.mem_cons.1 member with rfl | later
          · refine Operations.sound_of_list ops (checkOperations_ok checked) ?_
            intro pair known
            refine below pair.2 (List.mem_append_left _ (List.mem_reverse.2 ?_))
            exact List.mem_map_of_mem known
          · exact below t (List.mem_append_right _ later)

mutual

theorem Timestamp.attested_commits {digest : Bytes} : ∀ (t : Timestamp), t.Sound sha256 →
    Commits sha256 digest t.msg →
      ∀ pair ∈ t.allAttestations, Commits sha256 digest pair.1
  | .node msg attestations ops, sound, commits, pair, member => by
    rcases List.mem_append.1 member with here | below
    · obtain ⟨a, _, rfl⟩ := List.mem_map.1 here
      exact commits
    · exact Operations.attested_commits ops msg sound commits pair below

theorem Operations.attested_commits {digest : Bytes} : ∀ (ops : Operations) (msg : Bytes),
    ops.Sound sha256 msg → Commits sha256 digest msg →
      ∀ pair ∈ ops.allAttestations, Commits sha256 digest pair.1
  | .nil, _, _, _, _, member => absurd member List.not_mem_nil
  | .cons op child rest, msg, sound, commits, pair, member => by
    obtain ⟨supported, result, childSound, restSound⟩ := sound
    rcases List.mem_append.1 member with inChild | later
    · have reached : Commits sha256 digest child.msg := by
        rw [result]
        exact Commits.step op commits supported
      exact Timestamp.attested_commits child childSound reached pair inChild
    · exact Operations.attested_commits rest msg restSound commits pair later

end

/-- Every attestation of an accepted proof is about a message that the digest leads to. -/
theorem deserializeExactProof_commits {deserialize : Bytes → Option DetachedTimestampFile}
    {digest : ManifestDigest} {proofBytes : Bytes} {detached : DetachedTimestampFile}
    (accepted : deserializeExactProof sha256 deserialize digest proofBytes = .ok detached) :
    deserialize proofBytes = some detached ∧ detached.fileHashOp = .sha256 ∧
      detached.timestamp.msg = digest.value ∧
      ∀ pair ∈ detached.timestamp.allAttestations, Commits sha256 digest.value pair.1 := by
  unfold deserializeExactProof at accepted
  split at accepted
  · cases accepted
  · split at accepted
    · cases accepted
    · next read =>
      split at accepted
      · cases accepted
      · next hashOp =>
        split at accepted
        · cases accepted
        · next target =>
          split at accepted
          · cases accepted
          · next valid =>
            cases accepted
            have same := not_not.1 target
            refine ⟨read, not_not.1 hashOp, same, ?_⟩
            refine Timestamp.attested_commits _
              (validateNodes_sound valid _ (List.mem_singleton_self _)) ?_
            rw [same]
            exact Commits.digest

theorem mem_bitcoinAttestations {detached : DetachedTimestampFile} {height : Nat} {msg : Bytes} :
    (height, msg) ∈ bitcoinAttestations detached ↔
      (msg, Attestation.bitcoin height) ∈ detached.timestamp.allAttestations := by
  constructor
  · intro member
    obtain ⟨pair, known, selected⟩ := List.mem_filterMap.1 member
    obtain ⟨m, a⟩ := pair
    cases a with
    | bitcoin h =>
      cases selected
      exact known
    | pending uri => cases selected
    | other tag => cases selected
  · intro member
    exact List.mem_filterMap.2 ⟨_, member, rfl⟩

end DetachedProofs
