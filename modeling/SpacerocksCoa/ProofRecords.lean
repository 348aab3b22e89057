import SpacerocksCoa.OrderStates
import SpacerocksCoa.HexText

/-!
# Stored proofs, Bitcoin verifications and notification messages

The records that the ports exchange. Their constructors reject incomplete values in
the source; here an incomplete value cannot be written: a verification is either
unverified or carries all its metadata with at least one confirmation, and the state
of a stored proof is read off its verification. Instants are a parameter, because
the database compares them as points in time while receipts render their civil text.
-/
namespace ProofRecords
open OrderStates HexText

def maxProofBytes : Nat := 262144

variable {T : Type}

/-- The metadata of a verified Bitcoin result. -/
@[ext] structure Evidence (T : Type) where
  method : String
  verifiedAt : T
  blockHeight : Nat
  blockHash : String
  blockTime : T
  confirmationPolicy : String
  confirmations : Nat
  confirmed : 1 ≤ confirmations

instance [DecidableEq T] : DecidableEq (Evidence T) :=
  fun _ _ => decidable_of_iff _ Evidence.ext_iff.symm

inductive BitcoinVerification (T : Type) where
  | unverified (method : String) (confirmations : Option Nat)
  | verified (evidence : Evidence T)
  deriving DecidableEq

/-- What verification results of one block have in common however often the block is
verified again. -/
structure BlockEvidence (T : Type) where
  method : String
  blockHeight : Nat
  blockHash : String
  blockTime : T
  confirmationPolicy : String
  deriving DecidableEq

def Evidence.block (e : Evidence T) : BlockEvidence T :=
  ⟨e.method, e.blockHeight, e.blockHash, e.blockTime, e.confirmationPolicy⟩

/-- 64 characters, lowercase where case exists, that `bytes.fromhex` accepts. -/
def blockHashValid (hash : String) : Bool :=
  decide (hash.toList.length = 64) && hash.toList.all (fun c => c.toLower == c) &&
    (fromHex hash.toList).isSome

/-- The checks of a verification that its type does not carry already. -/
def verificationError (e : Evidence T) : Option String :=
  if blockHashValid e.blockHash = false then some "verification_block_hash_invalid"
  else if ¬(1 ≤ e.method.length ∧ e.method.length ≤ 128) ∨ e.confirmationPolicy.length = 0 ∨
      128 < e.confirmationPolicy.length then
    some "verification_method_or_policy_invalid"
  else none

def ValidEvidence (e : Evidence T) : Prop := verificationError e = none

inductive ProofState where
  | calendarPending | bitcoinVerified
  deriving DecidableEq, Repr

def ProofState.value : ProofState → String
  | calendarPending => "calendar_pending"
  | bitcoinVerified => "bitcoin_verified"

structure StoredProof (T : Type) where
  orderReference : OrderReference
  version : Nat
  targetDigest : ManifestDigest
  proofBytes : Bytes
  proofSha256 : Sha256
  calendarSubmittedAt : T
  verification : Option (Evidence T)
  deriving DecidableEq

def StoredProof.proofState (proof : StoredProof T) : ProofState :=
  match proof.verification with
  | none => .calendarPending
  | some _ => .bitcoinVerified

def StoredProof.proofByteLength (proof : StoredProof T) : Nat := proof.proofBytes.length

/-- What the constructor of a stored proof checks beyond the shape of its fields. -/
structure StoredProof.Valid (sha256 : Bytes → Sha256) (proof : StoredProof T) : Prop where
  version : 1 ≤ proof.version
  size : 1 ≤ proof.proofBytes.length ∧ proof.proofBytes.length ≤ maxProofBytes
  checksum : sha256 proof.proofBytes = proof.proofSha256
  verification : ∀ e, proof.verification = some e → ValidEvidence e

structure PendingProof (T : Type) where
  proofBytes : Bytes
  calendarSubmittedAt : T
  deriving DecidableEq

/-! ## Notification messages -/

inductive NotificationKind where
  | initialConfirmation | finalConfirmation
  deriving DecidableEq, Repr

def NotificationKind.value : NotificationKind → String
  | initialConfirmation => "bitcoin-confirmed-initial"
  | finalConfirmation => "bitcoin-confirmed-final"

def NotificationKind.minimumConfirmations : NotificationKind → Nat
  | initialConfirmation => 1
  | finalConfirmation => 6

/-- The key `{kind}-v{version}-{order_reference}` of a message, as its parts. -/
structure MessageKey where
  kind : NotificationKind
  proofVersion : Nat
  orderReference : OrderReference
  deriving DecidableEq

def MessageKey.text (key : MessageKey) : String :=
  key.kind.value ++ "-v" ++ toString key.proofVersion ++ "-" ++ key.orderReference.value

structure OutboxMessage where
  messageKey : MessageKey
  orderReference : OrderReference
  template : NotificationKind
  recipient : String
  proofVersion : Nat
  confirmationCount : Nat
  deriving DecidableEq

def notificationMessage (kind : NotificationKind) (orderReference : OrderReference)
    (recipient : String) (proofVersion confirmationCount : Nat) : Except String OutboxMessage :=
  if ¬(1 ≤ proofVersion ∧ proofVersion ≤ 2147483647) ∨
      ¬(kind.minimumConfirmations ≤ confirmationCount ∧ confirmationCount ≤ 2147483647) then
    .error "notification_milestone_invalid"
  else
    .ok ⟨⟨kind, proofVersion, orderReference⟩, orderReference, kind, recipient, proofVersion,
      confirmationCount⟩

end ProofRecords
