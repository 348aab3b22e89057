import SpacerocksCoa.DetachedProofs
import SpacerocksCoa.FallibleSteps
import SpacerocksCoa.HexText
import SpacerocksCoa.ProgramTranscripts
import Mathlib.Data.List.Dedup
import Mathlib.Data.List.Sort

/-!
# Verification against a Bitcoin Core node

The verifier as a program of JSON-RPC requests. A reply is any decoded JSON value or a failed
call, and nothing ties two replies together. The transport (its HTTP, size limit and decoding)
is left out: a reply is what its `call` returns or raises.
-/
namespace BitcoinCore
open OrderStates DetachedProofs FallibleSteps ProgramTranscripts TransactionalPrograms

/-- A decoded JSON value. A float is compared with the least sync progress only, and a key
that an object lacks reads as null. -/
inductive Json where
  | null
  | bool (value : Bool)
  | int (value : Int)
  | float (belowSyncProgress : Bool)
  | str (text : String)
  | list
  | object (get : String → Json)

inductive VerifierError where
  | proof (error : ProofValidationError)
  | invalid (code : String)
  | rejected (code : Int)
  | unavailable (code : String)
  | value (text : String)
  deriving DecidableEq

/-- `minimum_confirmations`, as the constructors check it. -/
structure Threshold where
  value : Nat
  positive : 1 ≤ value
  bounded : value ≤ 100

structure BitcoinVerification where
  verified : Bool
  method : String
  verifiedAt : Option Instant
  blockHeight : Option Nat
  blockHash : Option String
  blockTime : Option Instant
  confirmationPolicy : Option String
  confirmations : Option Int
  deriving DecidableEq

/-- `BitcoinVerification.__post_init__`. -/
def BitcoinVerification.checked (v : BitcoinVerification) :
    Except VerifierError BitcoinVerification :=
  if v.verified then
    if v.verifiedAt = none ∨ v.blockHeight = none ∨ v.blockHash = none ∨ v.blockTime = none ∨
        v.confirmationPolicy = none then
      .error (.value "verified Bitcoin result requires complete metadata")
    else if v.confirmations.all fun n => decide (n < 1) then
      .error (.value "verified Bitcoin result requires at least one confirmation")
    else .ok v
  else if v.verifiedAt ≠ none ∨ v.blockHeight ≠ none ∨ v.blockHash ≠ none ∨ v.blockTime ≠ none ∨
      v.confirmationPolicy ≠ none then
    .error (.value "unverified Bitcoin result cannot carry confirmation metadata")
  else if v.confirmations.any fun n => decide (n < 0) then
    .error (.value "Bitcoin confirmation count is invalid")
  else .ok v

def pendingResult (method : String) (confirmations : Option Int) : BitcoinVerification :=
  ⟨false, method, none, none, none, none, none, confirmations⟩

/-! ## Headers -/

/-- Four bytes, the lowest first. -/
def littleEndian (n : Nat) : Bytes :=
  [n % 256, n / 256 % 256, n / 65536 % 256, n / 16777216 % 256].map UInt8.ofNat

structure BlockHeader where
  version : Int
  previous : Bytes
  merkleRoot : Bytes
  time : Nat
  bits : Nat
  nonce : Nat
  deriving DecidableEq

/-- The serialized header; a negative version is written in two's complement. -/
def BlockHeader.pack (header : BlockHeader) : Bytes :=
  littleEndian (header.version % 4294967296).toNat ++ header.previous ++ header.merkleRoot ++
    littleEndian header.time ++ littleEndian header.bits ++ littleEndian header.nonce

variable (sha256 : Bytes → Sha256)

/-- The double SHA-256 of a header, written backwards in hexadecimal. -/
def headerHash (raw : Bytes) : String :=
  String.ofList (HexText.toHex (sha256 (sha256 raw).value).value.reverse)

def secondsInstant (seconds : Nat) : Instant := (seconds : Int) * 1000000

/-! ## Fields of a reply -/

/-- `_integer`. -/
def integer (value : Json) (safeCode : String) (minimum : Int) (maximum : Option Int) :
    Except VerifierError Int :=
  match value with
  | .int n =>
    if n < minimum ∨ maximum.any (fun bound => decide (bound < n)) = true then
      .error (.invalid safeCode)
    else .ok n
  | _ => .error (.invalid safeCode)

def upperAscii (c : Char) : Bool := decide ('A' ≤ c) && decide (c ≤ 'Z')

/-- `_hash_hex`; a text outside ASCII fails in `fromHex` in any case. -/
def hashHex (value : Json) (safeCode : String) : Except VerifierError String :=
  match value with
  | .str text =>
    if text.toList.length ≠ 64 ∨ text.toList.any upperAscii = true then .error (.invalid safeCode)
    else
      match HexText.fromHex text.toList with
      | none => .error (.invalid safeCode)
      | some _ => .ok text
  | _ => .error (.invalid safeCode)

def hexBytes (text : String) : Bytes := (HexText.fromHex text.toList).getD []

def hexNumber (text : String) : Nat :=
  text.toList.foldl (fun n c => 16 * n + (HexText.hexDigit? c).getD 0) 0

def bitsOf (value : Json) : Except VerifierError Nat :=
  match value with
  | .str text =>
    if text.toList.length ≠ 8 ∨ text.toList.all HexText.lowerHex = false then
      .error (.invalid "bitcoin_block_header_malformed")
    else .ok (hexNumber text)
  | _ => .error (.invalid "bitcoin_block_header_malformed")

/-- The hash of the previous block; that of block 0 may be absent. -/
def previousOf (value : Json) (height : Nat) : Except VerifierError Bytes :=
  match height, value with
  | 0, .null => .ok (List.replicate 32 0)
  | _, value =>
    match hashHex value "bitcoin_block_header_malformed" with
    | .error e => .error e
    | .ok text => .ok (hexBytes text).reverse

/-- `_serialize_header`, up to the packing. -/
def serializeHeader (get : String → Json) (height : Nat) : Except VerifierError BlockHeader := do
  let version ← integer (get "version") "bitcoin_block_header_malformed" (-2147483648)
    (some 2147483647)
  let previous ← previousOf (get "previousblockhash") height
  let merkleRoot ← hashHex (get "merkleroot") "bitcoin_block_header_malformed"
  let time ← integer (get "time") "bitcoin_block_header_malformed" 0 (some 4294967295)
  let bits ← bitsOf (get "bits")
  let nonce ← integer (get "nonce") "bitcoin_block_header_malformed" 0 (some 4294967295)
  return ⟨version, previous, (hexBytes merkleRoot).reverse, time.toNat, bits, nonce.toNat⟩

structure ChainSnapshot where
  blocks : Int
  bestBlockHash : String
  deriving DecidableEq

def chainOf : Json → Option String
  | .str text => some text
  | _ => none

/-- Whether a sync progress is below the least one; other types are refused. -/
def progressBelow : Json → Option Bool
  | .int n => some (decide (n ≤ 0))
  | .float below => some below
  | _ => none

/-- `_chain_snapshot` on the reply. -/
def snapshotOf (reply : Json) : Except VerifierError ChainSnapshot :=
  match reply with
  | .object get =>
    if chainOf (get "chain") ≠ some "main" then .error (.invalid "bitcoin_wrong_network")
    else do
      let blocks ← integer (get "blocks") "bitcoin_chain_info_malformed" 0 none
      let headers ← integer (get "headers") "bitcoin_chain_info_malformed" 0 none
      let best ← hashHex (get "bestblockhash") "bitcoin_chain_info_malformed"
      match progressBelow (get "verificationprogress") with
      | none => .error (.invalid "bitcoin_chain_info_malformed")
      | some below =>
        match get "initialblockdownload" with
        | .bool false =>
          if headers ≠ blocks ∨ below = true then
            .error (.unavailable "bitcoin_node_unsynchronized")
          else .ok ⟨blocks, best⟩
        | _ => .error (.unavailable "bitcoin_node_unsynchronized")
  | _ => .error (.invalid "bitcoin_chain_info_malformed")

structure BlockEvidence where
  height : Nat
  blockHash : String
  blockTime : Instant
  confirmations : Int
  deriving DecidableEq

/-- The checks of `_attestation_evidence` on the header of the block. The bounds of its time
are those of `_serialize_header`, so that reading it again cannot fail. -/
def checkHeader (message : Bytes) (height : Nat) (snapshot : ChainSnapshot) (canonical : String)
    (reply : Json) : Except VerifierError BlockEvidence :=
  match reply with
  | .object get => do
    let known ← integer (get "height") "bitcoin_block_header_malformed" 0 none
    if known ≠ height then .error (.invalid "bitcoin_block_height_mismatch")
    else
      let hash ← hashHex (get "hash") "bitcoin_block_header_malformed"
      if hash ≠ canonical then .error (.invalid "bitcoin_block_hash_mismatch")
      else
        let confirmations ← integer (get "confirmations") "bitcoin_block_header_malformed" (-1) none
        if confirmations < 0 then .error (.unavailable "bitcoin_chain_race")
        else if confirmations ≠ snapshot.blocks - height + 1 then
          .error (.unavailable "bitcoin_confirmation_snapshot_mismatch")
        else
          let header ← serializeHeader get height
          if headerHash sha256 header.pack ≠ canonical then
            .error (.invalid "bitcoin_block_header_hash_mismatch")
          else if message ≠ header.merkleRoot then
            .error (.invalid "bitcoin_attestation_merkle_mismatch")
          else .ok ⟨height, canonical, secondsInstant header.time, snapshot.blocks - height + 1⟩
  | _ => .error (.invalid "bitcoin_block_header_malformed")

/-! ## Requests -/

inductive RpcRequest where
  | getblockchaininfo
  | getblockhash (height : Nat)
  | getblockheader (hash : String)
  deriving DecidableEq

/-- What the transport returns or raises. -/
inductive RpcReply where
  | result (value : Json)
  | rejected (code : Int)
  | invalid (code : String)
  | unavailable (code : String)
  | osError

abbrev RpcProg (α : Type) := Prog RpcRequest (fun _ => RpcReply) VerifierError α

/-- `_call`. -/
def replyValue : RpcReply → Except VerifierError Json
  | .result value => .ok value
  | .rejected code => .error (.rejected code)
  | .invalid code => .error (.invalid code)
  | .unavailable code => .error (.unavailable code)
  | .osError => .error (.unavailable "bitcoin_rpc_unavailable")

/-- `_chain_call`: a block that is not known any more is a race. -/
def chainValue (reply : RpcReply) : Except VerifierError Json :=
  match replyValue reply with
  | .error (.rejected code) =>
    if code = -5 ∨ code = -8 then .error (.unavailable "bitcoin_chain_race")
    else .error (.rejected code)
  | other => other

def chainSnapshot : RpcProg ChainSnapshot := do
  let reply ← Prog.request .getblockchaininfo
  Prog.lift (replyValue reply >>= snapshotOf)

def canonicalHash (height : Nat) : RpcProg String := do
  let reply ← Prog.request (.getblockhash height)
  Prog.lift (chainValue reply >>= fun value => hashHex value "bitcoin_block_hash_malformed")

/-- `_attestation_evidence`. -/
def attestationEvidence (message : Bytes) (height : Nat) (snapshot : ChainSnapshot) :
    RpcProg BlockEvidence :=
  if message.length ≠ 32 then Prog.fail (.invalid "bitcoin_attestation_malformed")
  else do
    let canonical ← canonicalHash height
    let reply ← Prog.request (.getblockheader canonical)
    let evidence ← Prog.lift (chainValue reply >>= checkHeader sha256 message height snapshot
      canonical)
    let recheck ← canonicalHash height
    if recheck ≠ canonical then Prog.fail (.unavailable "bitcoin_chain_race")
    else return evidence

/-! ## The verifier -/

/-- Attestations in the order of their heights and messages. -/
def attestationLe (a b : Nat × Bytes) : Prop := a.1 < b.1 ∨ (a.1 = b.1 ∧ a.2 ≤ b.2)

instance : DecidableRel attestationLe := fun _ _ => instDecidableOr

def sortedAttestations (detached : DetachedTimestampFile) : List (Nat × Bytes) :=
  (bitcoinAttestations detached).dedup.insertionSort attestationLe

/-- The loop over the attestations: those with enough confirmations, and the confirmations of
the others. -/
def collectEvidence (threshold : Threshold) (snapshot : ChainSnapshot) :
    List (Nat × Bytes) → List BlockEvidence → List Int →
      RpcProg (List BlockEvidence × List Int)
  | [], evidence, waiting => return (evidence, waiting)
  | (height, message) :: rest, evidence, waiting =>
    if (height : Int) > snapshot.blocks then
      collectEvidence threshold snapshot rest evidence (waiting ++ [0])
    else do
      let block ← attestationEvidence sha256 message height snapshot
      if block.confirmations < threshold.value then
        collectEvidence threshold snapshot rest evidence (waiting ++ [block.confirmations])
      else collectEvidence threshold snapshot rest (evidence ++ [block]) waiting

/-- The key of `max`: the confirmations, the lower height, the block hash. -/
def weaker (a b : BlockEvidence) : Prop :=
  a.confirmations < b.confirmations ∨ (a.confirmations = b.confirmations ∧
    (b.height < a.height ∨ (a.height = b.height ∧ a.blockHash < b.blockHash)))

instance : DecidableRel weaker := fun _ _ => instDecidableOr

/-- The first largest of a list that starts with `best`. -/
def strongest (best : BlockEvidence) : List BlockEvidence → BlockEvidence
  | [] => best
  | block :: rest => strongest (if weaker best block then block else best) rest

def maxBitcoinAttestations : Nat := 16

def coreVerification (threshold : Threshold) (verifiedAt : Instant) (block : BlockEvidence) :
    BitcoinVerification :=
  ⟨true, "bitcoin-core-rpc-exact-digest", some verifiedAt, some block.height,
    some block.blockHash, some block.blockTime,
    some ("bitcoin-core-mainnet-canonical-min-" ++ toString threshold.value),
    some block.confirmations⟩

/-- The end of `verify_exact_digest`; the clock gives no instant when it is naive. -/
def conclude (threshold : Threshold) (clock : Option Instant) (evidence : List BlockEvidence)
    (waiting : List Int) : Except VerifierError BitcoinVerification :=
  match evidence with
  | [] => (pendingResult "bitcoin-core-confirmation-pending"
      (some (waiting.foldl max 0))).checked
  | first :: rest =>
    match clock with
    | none => .error (.invalid "bitcoin_verifier_clock_invalid")
    | some verifiedAt => (coreVerification threshold verifiedAt (strongest first rest)).checked

/-- `BitcoinCoreRpcVerifier.verify_exact_digest`. -/
def verifyExactDigest (deserialize : Bytes → Option DetachedTimestampFile)
    (threshold : Threshold) (clock : Option Instant) (digest : ManifestDigest)
    (proofBytes : Bytes) : RpcProg BitcoinVerification :=
  match deserializeExactProof sha256 deserialize digest proofBytes with
  | .error e => Prog.fail (.proof e)
  | .ok detached =>
    let attestations := sortedAttestations detached
    if attestations = [] then Prog.lift (pendingResult "bitcoin-core-no-attestation" none).checked
    else if maxBitcoinAttestations < attestations.length then
      Prog.fail (.invalid "bitcoin_attestation_limit_exceeded")
    else do
      let snapshot ← chainSnapshot
      let found ← collectEvidence sha256 threshold snapshot attestations [] []
      let final ← chainSnapshot
      if final ≠ snapshot then Prog.fail (.unavailable "bitcoin_chain_tip_changed")
      else Prog.lift (conclude threshold clock found.1 found.2)

/-! ## What a verified result rests on -/

/-- One attestation as the node confirmed it: its header between two equal canonical hashes. -/
structure AttestedBlock (snapshot : ChainSnapshot) (message : Bytes) (height : Nat)
    (block : BlockEvidence) (get : String → Json) (header : BlockHeader) : Prop where
  sameHeight : block.height = height
  length : message.length = 32
  serialized : serializeHeader get height = .ok header
  merkleRoot : header.merkleRoot = message
  blockHash : headerHash sha256 header.pack = block.blockHash
  blockTime : block.blockTime = secondsInstant header.time
  confirmations : block.confirmations = snapshot.blocks - height + 1

/-- The three requests for one attestation. -/
def attestationTranscript (height : Nat) (hash : String) (get : String → Json) :
    Transcript RpcRequest RpcReply :=
  [(.getblockhash height, .result (.str hash)), (.getblockheader hash, .result (.object get)),
    (.getblockhash height, .result (.str hash))]

variable {sha256}

theorem replyValue_ok {reply : RpcReply} {value : Json} (h : replyValue reply = .ok value) :
    reply = .result value := by
  cases reply with
  | result v =>
    cases h
    rfl
  | _ => cases h

theorem chainValue_ok {reply : RpcReply} {value : Json} (h : chainValue reply = .ok value) :
    reply = .result value := by
  unfold chainValue at h
  split at h
  · split at h
    · cases h
    · cases h
  · exact replyValue_ok h

theorem hashHex_ok {value : Json} {safeCode text : String} (h : hashHex value safeCode = .ok text) :
    value = .str text ∧ text.toList.length = 64 ∧ ∃ bytes, HexText.fromHex text.toList =
      some bytes := by
  unfold hashHex at h
  split at h
  · split at h
    · cases h
    · next fits =>
      rw [not_or, not_not] at fits
      split at h
      · cases h
      · next bytes read =>
        cases h
        exact ⟨rfl, fits.1, bytes, read⟩
  · cases h

theorem canonicalHash_ensures (height : Nat) :
    Ensures (canonicalHash height) fun transcript hash =>
      transcript = [(.getblockhash height, .result (.str hash))] := by
  intro reply
  refine ensures_lift ?_
  intro hash passes
  obtain ⟨value, read, checked⟩ := except_bind_ok passes
  rw [chainValue_ok read, (hashHex_ok checked).1]

theorem chainSnapshot_ensures :
    Ensures chainSnapshot fun transcript snapshot => ∃ value,
      transcript = [(.getblockchaininfo, .result value)] ∧ snapshotOf value = .ok snapshot := by
  intro reply
  refine ensures_lift ?_
  intro snapshot passes
  obtain ⟨value, read, checked⟩ := except_bind_ok passes
  rw [replyValue_ok read]
  exact ⟨value, rfl, checked⟩

theorem checkHeader_ok {message : Bytes} {height : Nat} {snapshot : ChainSnapshot}
    {canonical : String} {reply : Json} {block : BlockEvidence}
    (length : message.length = 32)
    (passes : checkHeader sha256 message height snapshot canonical reply = .ok block) :
    ∃ get header, reply = .object get ∧ block.blockHash = canonical ∧
      AttestedBlock sha256 snapshot message height block get header := by
  unfold checkHeader at passes
  split at passes
  · next get =>
    obtain ⟨known, _, passes⟩ := except_bind_ok passes
    split at passes
    · cases passes
    · obtain ⟨hash, _, passes⟩ := except_bind_ok passes
      split at passes
      · cases passes
      · obtain ⟨confirmations, _, passes⟩ := except_bind_ok passes
        split at passes
        · cases passes
        · split at passes
          · cases passes
          · obtain ⟨header, serialized, passes⟩ := except_bind_ok passes
            split at passes
            · cases passes
            · next sameHash =>
              split at passes
              · cases passes
              · next sameRoot =>
                cases passes
                exact ⟨get, header, rfl, rfl, rfl, length, serialized,
                  (not_not.1 sameRoot).symm, not_not.1 sameHash, rfl, rfl⟩
  · cases passes

theorem attestationEvidence_ensures (message : Bytes) (height : Nat) (snapshot : ChainSnapshot) :
    Ensures (attestationEvidence sha256 message height snapshot) fun transcript block =>
      ∃ get header, transcript = attestationTranscript height block.blockHash get ∧
        AttestedBlock sha256 snapshot message height block get header := by
  unfold attestationEvidence
  split
  · trivial
  · next length =>
    refine ensures_bind (canonicalHash_ensures height) ?_
    rintro _ canonical rfl
    refine ensures_bind (ensures_request (P := fun transcript reply =>
      transcript = [(.getblockheader canonical, reply)]) fun _ => rfl) ?_
    rintro _ reply rfl
    refine ensures_bind (ensures_lift (P := fun transcript block => transcript = [] ∧
      ∃ get header, reply = .result (.object get) ∧ block.blockHash = canonical ∧
        AttestedBlock sha256 snapshot message height block get header) ?_) ?_
    · intro block passes
      obtain ⟨value, read, checked⟩ := except_bind_ok passes
      obtain ⟨get, header, rfl, hash, attested⟩ := checkHeader_ok (not_not.1 length) checked
      exact ⟨rfl, get, header, chainValue_ok read, hash, attested⟩
    · rintro _ block ⟨rfl, get, header, rfl, hash, attested⟩
      refine ensures_bind (canonicalHash_ensures height) ?_
      rintro _ recheck rfl
      split
      · trivial
      · next same =>
        obtain rfl := not_not.1 same
        subst hash
        exact ⟨get, header, rfl, attested⟩

variable (sha256)

/-- Evidence for one of the attestations, from three requests of a run. -/
def Found (threshold : Threshold) (snapshot : ChainSnapshot) (attestations : List (Nat × Bytes))
    (transcript : Transcript RpcRequest RpcReply) (block : BlockEvidence) : Prop :=
  ∃ pair ∈ attestations, ∃ before after get header,
    transcript = before ++ attestationTranscript pair.1 block.blockHash get ++ after ∧
      AttestedBlock sha256 snapshot pair.2 pair.1 block get header ∧
      (threshold.value : Int) ≤ block.confirmations

variable {sha256}

theorem Found.later {threshold : Threshold} {snapshot : ChainSnapshot}
    {attestations : List (Nat × Bytes)} {transcript : Transcript RpcRequest RpcReply}
    {block : BlockEvidence} (found : Found sha256 threshold snapshot attestations transcript block)
    (head : Nat × Bytes) (earlier : Transcript RpcRequest RpcReply) :
    Found sha256 threshold snapshot (head :: attestations) (earlier ++ transcript) block := by
  obtain ⟨pair, member, before, after, get, header, rfl, rest⟩ := found
  refine ⟨pair, List.mem_cons_of_mem head member, earlier ++ before, after, get, header, ?_, rest⟩
  rw [List.append_assoc, List.append_assoc, List.append_assoc]

theorem collectEvidence_ensures (threshold : Threshold) (snapshot : ChainSnapshot)
    (attestations : List (Nat × Bytes)) (evidence : List BlockEvidence) (waiting : List Int) :
    Ensures (collectEvidence sha256 threshold snapshot attestations evidence waiting)
      fun transcript out => ∀ block ∈ out.1, block ∈ evidence ∨
        Found sha256 threshold snapshot attestations transcript block := by
  induction attestations generalizing evidence waiting with
  | nil =>
    intro block member
    exact Or.inl member
  | cons head rest ih =>
    obtain ⟨height, message⟩ := head
    unfold collectEvidence
    split
    · refine ensures_mono (ih evidence (waiting ++ [0])) ?_
      intro transcript out kept block member
      rcases kept block member with old | found
      · exact Or.inl old
      · exact Or.inr (found.later (height, message) [])
    · refine ensures_bind (attestationEvidence_ensures message height snapshot) ?_
      rintro before block ⟨get, header, rfl, attested⟩
      split
      · refine ensures_mono (ih evidence (waiting ++ [block.confirmations])) ?_
        intro transcript out kept other member
        rcases kept other member with old | found
        · exact Or.inl old
        · exact Or.inr (found.later (height, message) _)
      · next enough =>
        refine ensures_mono (ih (evidence ++ [block]) waiting) ?_
        intro transcript out kept other member
        rcases kept other member with old | found
        · rcases List.mem_append.1 old with before | last
          · exact Or.inl before
          · obtain rfl := List.mem_singleton.1 last
            exact Or.inr ⟨(height, message), List.mem_cons_self, [], transcript, get, header, rfl,
              attested, not_lt.1 enough⟩
        · exact Or.inr (found.later (height, message) _)

theorem strongest_mem (best : BlockEvidence) (blocks : List BlockEvidence) :
    strongest best blocks ∈ best :: blocks := by
  induction blocks generalizing best with
  | nil => exact List.mem_cons_self
  | cons block rest ih =>
    unfold strongest
    split
    · exact List.mem_cons_of_mem best (ih block)
    · rcases List.mem_cons.1 (ih best) with same | later
      · rw [same]
        exact List.mem_cons_self
      · exact List.mem_cons_of_mem best (List.mem_cons_of_mem block later)

theorem checked_ok {v v' : BitcoinVerification} (h : v.checked = .ok v') : v' = v := by
  unfold BitcoinVerification.checked at h
  split at h
  · iterate 2 (split at h; · cases h)
    cases h
    rfl
  · iterate 2 (split at h; · cases h)
    cases h
    rfl

theorem conclude_verified {threshold : Threshold} {clock : Option Instant}
    {evidence : List BlockEvidence} {waiting : List Int} {v : BitcoinVerification}
    (concluded : conclude threshold clock evidence waiting = .ok v) (verified : v.verified = true) :
    ∃ block ∈ evidence, ∃ verifiedAt, v = coreVerification threshold verifiedAt block := by
  unfold conclude at concluded
  split at concluded
  · rw [checked_ok concluded] at verified
    cases verified
  · next first rest =>
    split at concluded
    · cases concluded
    · next verifiedAt => exact ⟨_, strongest_mem first rest, verifiedAt, checked_ok concluded⟩

theorem mem_sortedAttestations {detached : DetachedTimestampFile} {pair : Nat × Bytes} :
    pair ∈ sortedAttestations detached ↔ pair ∈ bitcoinAttestations detached := by
  rw [sortedAttestations, List.mem_insertionSort, List.mem_dedup]

variable (sha256)

/-- What a verified result of the node says. -/
structure CoreVerified (deserialize : Bytes → Option DetachedTimestampFile)
    (threshold : Threshold) (digest : ManifestDigest) (proofBytes : Bytes)
    (transcript : Transcript RpcRequest RpcReply) (v : BitcoinVerification)
    (detached : DetachedTimestampFile) (height : Nat) (message : Bytes) (header : BlockHeader)
    (get : String → Json) (snapshot : ChainSnapshot) : Prop where
  read : deserialize proofBytes = some detached
  target : detached.timestamp.msg = digest.value
  commits : Commits sha256 digest.value message
  attested : (message, Attestation.bitcoin height) ∈ detached.timestamp.allAttestations
  blockHeight : v.blockHeight = some height
  merkleRoot : header.merkleRoot = message
  blockHash : v.blockHash = some (headerHash sha256 header.pack)
  blockTime : v.blockTime = some (secondsInstant header.time)
  confirmations : v.confirmations = some (snapshot.blocks - height + 1)
  enough : (threshold.value : Int) ≤ snapshot.blocks - height + 1
  /-- The tip is that of the first and of the last request, and the header came between two
  equal answers for the hash at its height. -/
  requests : ∃ first last before after,
    transcript = [(.getblockchaininfo, .result first)] ++ before ++
      attestationTranscript height (headerHash sha256 header.pack) get ++ after ++
      [(.getblockchaininfo, .result last)] ∧
    snapshotOf first = .ok snapshot ∧ snapshotOf last = .ok snapshot
  serialized : serializeHeader get height = .ok header
  length : message.length = 32

variable {sha256}

theorem verifyExactDigest_ensures (deserialize : Bytes → Option DetachedTimestampFile)
    (threshold : Threshold) (clock : Option Instant) (digest : ManifestDigest)
    (proofBytes : Bytes) :
    Ensures (verifyExactDigest sha256 deserialize threshold clock digest proofBytes)
      fun transcript v => v.verified = true → ∃ detached height message header get snapshot,
        CoreVerified sha256 deserialize threshold digest proofBytes transcript v detached height
          message header get snapshot := by
  unfold verifyExactDigest
  split
  · trivial
  · next detached accepted =>
    obtain ⟨read, _, target, commits⟩ := deserializeExactProof_commits accepted
    dsimp only
    split
    · refine ensures_lift ?_
      intro v checked verified
      rw [checked_ok checked] at verified
      cases verified
    · split
      · trivial
      · refine ensures_bind chainSnapshot_ensures ?_
        rintro _ snapshot ⟨first, rfl, firstSnapshot⟩
        refine ensures_bind (collectEvidence_ensures threshold snapshot _ [] []) ?_
        intro middle found kept
        refine ensures_bind chainSnapshot_ensures ?_
        rintro _ final ⟨last, rfl, lastSnapshot⟩
        split
        · trivial
        · next same =>
          obtain rfl := not_not.1 same
          refine ensures_lift ?_
          intro v concluded verified
          obtain ⟨block, member, verifiedAt, rfl⟩ := conclude_verified concluded verified
          rcases kept block member with old | ⟨pair, known, before, after, get, header, rfl,
            evidence, enough⟩
          · exact absurd old List.not_mem_nil
          · obtain ⟨height, message⟩ := pair
            have attested := mem_bitcoinAttestations.1 (mem_sortedAttestations.1 known)
            refine ⟨detached, height, message, header, get, final, read, target,
              commits _ attested, attested, ?_, evidence.merkleRoot, ?_, ?_, ?_, ?_, ?_,
              evidence.serialized, evidence.length⟩
            · exact congrArg some evidence.sameHeight
            · exact congrArg some evidence.blockHash.symm
            · exact congrArg some evidence.blockTime
            · exact congrArg some evidence.confirmations
            · rw [← evidence.confirmations]
              exact enough
            · rw [evidence.blockHash]
              exact ⟨first, last, before, after, by simp, firstSnapshot, lastSnapshot⟩

end BitcoinCore
