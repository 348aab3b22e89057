import SpacerocksCoa.EsploraQuorum
import SpacerocksCoa.VerifiedOrders
import SpacerocksCoa.Sha256

/-!
# What a verified result says

Both verifiers against any sequence of replies. A verified result names an attestation that
the digest leads to, a header with its merkle root, the hash and the time of that header, and
confirmations up to a tip that was told twice.

For the node nothing is claimed about answers outside the three requests for the reported
attestation, and the header has 80 bytes where the hash of the previous block is written
without blanks.
-/
namespace VerifierSoundness
open OrderStates DetachedProofs FallibleSteps ProgramTranscripts BitcoinCore

/-! ## The size of a header -/

theorem fromHex_length : ∀ (text : List Char) (bytes : Bytes),
    text.any HexText.asciiSpace = false → HexText.fromHex text = some bytes →
      text.length = 2 * bytes.length
  | [], bytes, _, read => by
    cases read
    rfl
  | [c], bytes, solid, read => by
    rw [List.any_cons, List.any_nil, Bool.or_false] at solid
    rw [HexText.fromHex, solid] at read
    cases read
  | c :: d :: rest, bytes, solid, read => by
    rw [List.any_cons, Bool.or_eq_false_iff] at solid
    obtain ⟨first, solid⟩ := solid
    rw [List.any_cons, Bool.or_eq_false_iff] at solid
    rw [HexText.fromHex, first] at read
    simp only [Bool.false_eq_true, if_false] at read
    split at read
    · next high low tail _ _ inner =>
      cases read
      have shorter := fromHex_length rest tail solid.2 inner
      simp only [List.length_cons, shorter]
      omega
    · cases read

/-- The hash of the previous block in a header reply has no blanks. -/
def PlainPrevious (get : String → Json) : Prop :=
  ∀ text, get "previousblockhash" = .str text → text.toList.any HexText.asciiSpace = false

theorem previousOf_length {value : Json} {height : Nat} {previous : Bytes}
    (plain : ∀ text, value = .str text → text.toList.any HexText.asciiSpace = false)
    (read : previousOf value height = .ok previous) : previous.length = 32 := by
  unfold previousOf at read
  split at read
  · cases read
    exact List.length_replicate
  · split at read
    · cases read
    · next text checked =>
      cases read
      obtain ⟨same, length, bytes, hex⟩ := hashHex_ok checked
      have double := fromHex_length text.toList bytes (plain text same) hex
      rw [hexBytes, hex, Option.getD_some, List.length_reverse]
      omega

theorem pack_length {get : String → Json} {height : Nat} {header : BlockHeader}
    (plain : PlainPrevious get) (root : header.merkleRoot.length = 32)
    (read : serializeHeader get height = .ok header) : header.pack.length = 80 := by
  unfold serializeHeader at read
  obtain ⟨version, _, read⟩ := except_bind_ok read
  obtain ⟨previous, previousRead, read⟩ := except_bind_ok read
  obtain ⟨merkle, _, read⟩ := except_bind_ok read
  obtain ⟨time, _, read⟩ := except_bind_ok read
  obtain ⟨bits, _, read⟩ := except_bind_ok read
  obtain ⟨nonce, _, read⟩ := except_bind_ok read
  cases read
  have length := previousOf_length plain previousRead
  simp only [BlockHeader.pack, littleEndian, List.length_append, List.length_map, length, root,
    List.length_cons, List.length_nil]

/-! ## Soundness -/

section Soundness

variable (sha256 : Bytes → Sha256) (deserialize : Bytes → Option DetachedTimestampFile)
  (threshold : Threshold) (clock : Option Instant) (digest : ManifestDigest) (proofBytes : Bytes)

/-- Every verified run against a node. -/
def CoreSound : Prop :=
  ∀ (replies : List RpcReply) (v : BitcoinVerification)
    (transcript : Transcript RpcRequest RpcReply),
    replay (BitcoinCore.verifyExactDigest sha256 deserialize threshold clock digest proofBytes)
        replies = some (.ok v, transcript) → v.verified = true →
      ∃ detached height message header get snapshot,
        CoreVerified sha256 deserialize threshold digest proofBytes transcript v detached height
          message header get snapshot ∧ (PlainPrevious get → header.pack.length = 80)

/-- The same without a word about the previous hash, and for every answer at the height. -/
def CoreStrictlySound : Prop :=
  ∀ (replies : List RpcReply) (v : BitcoinVerification)
    (transcript : Transcript RpcRequest RpcReply),
    replay (BitcoinCore.verifyExactDigest sha256 deserialize threshold clock digest proofBytes)
        replies = some (.ok v, transcript) → v.verified = true →
      ∃ detached height message header get snapshot,
        CoreVerified sha256 deserialize threshold digest proofBytes transcript v detached height
          message header get snapshot ∧ header.pack.length = 80 ∧
        ∀ reply, (RpcRequest.getblockhash height, reply) ∈ transcript →
          reply = .result (.str (headerHash sha256 header.pack))

/-- Every verified run against two providers. -/
def EsploraSound (jsonLoads : List Char → Option Json) : Prop :=
  ∀ (replies : List EsploraQuorum.EsploraReply) (v : BitcoinVerification)
    (transcript : Transcript EsploraQuorum.EsploraRequest EsploraQuorum.EsploraReply),
    replay (EsploraQuorum.verifyExactDigest jsonLoads sha256 deserialize threshold clock digest
        proofBytes) replies = some (.ok v, transcript) → v.verified = true →
      ∃ detached height message header s,
        EsploraQuorum.EsploraVerified jsonLoads sha256 deserialize threshold digest proofBytes
          transcript v detached height message header s

/-- A verified result is sound, whatever the node or the providers reply. -/
theorem verifiers_are_sound (jsonLoads : List Char → Option Json) :
    CoreSound sha256 deserialize threshold clock digest proofBytes ∧
      EsploraSound sha256 deserialize threshold clock digest proofBytes jsonLoads := by
  constructor
  · intro replies v transcript run verified
    obtain ⟨detached, height, message, header, get, snapshot, sound⟩ := ensures_replay
      (BitcoinCore.verifyExactDigest_ensures deserialize threshold clock digest proofBytes) run
      verified
    refine ⟨detached, height, message, header, get, snapshot, sound, ?_⟩
    intro plain
    have root : header.merkleRoot.length = 32 := by
      rw [sound.merkleRoot]
      exact sound.length
    exact pack_length plain root sound.serialized
  · intro replies v transcript run verified
    exact ensures_replay (EsploraQuorum.verifyExactDigest_ensures deserialize threshold clock
      digest proofBytes) run verified

end Soundness

/-! ## A node that changes its mind between two attestations

The proof attests the order's digest and its SHA-256 at height 0. For the first the node shows
the first block, for the second another header with that merkle root. -/

open VerifiedOrders (sampleDigest proofHeader bitcoinAttestation sampleTime)

def digestSha256 : Bytes :=
  [51, 126, 42, 77, 226, 32, 228, 81, 143, 42, 138, 75, 216, 188, 44, 130, 176, 185, 44, 234,
    59, 178, 171, 159, 206, 218, 104, 225, 115, 142, 11, 52]

def firstHash : String := "000000000019d6689c085ae165831e934ff763ae46a2a6c172b3f1b60a8ce26f"
def otherHash : String := "b52bde9cb16941d687e54578d8089879daf2b408f6c03b1ffce089db1d3f4fa0"

def nodeSha256 (bytes : Bytes) : Sha256 := ⟨Sha256.sha256 bytes, Sha256.sha256_length bytes⟩

def flipBytes : Bytes :=
  proofHeader ++ sampleDigest.value ++ 255 :: bitcoinAttestation 0 ++ 8 :: bitcoinAttestation 0

def flipProof : DetachedTimestampFile :=
  ⟨.sha256, .node sampleDigest.value [.bitcoin 0]
    (.cons .sha256 (.node digestSha256 [.bitcoin 0] .nil) .nil)⟩

def flipDeserialize (bytes : Bytes) : Option DetachedTimestampFile :=
  if bytes = flipBytes then some flipProof else none

def oneConfirmation : Threshold := ⟨1, Nat.le_refl 1, Nat.le_of_ble_eq_true rfl⟩

def chainInfo : RpcReply :=
  .result (.object fun key =>
    if key = "chain" then .str "main"
    else if key = "blocks" ∨ key = "headers" then .int 0
    else if key = "bestblockhash" then .str firstHash
    else if key = "verificationprogress" then .int 1
    else if key = "initialblockdownload" then .bool false
    else .null)

def headerFields (hash root : String) (previous : Json) (time nonce : Int) (key : String) : Json :=
  if key = "height" then .int 0
  else if key = "hash" then .str hash
  else if key = "confirmations" ∨ key = "version" then .int 1
  else if key = "previousblockhash" then previous
  else if key = "merkleroot" then .str root
  else if key = "time" then .int time
  else if key = "bits" then .str "1d00ffff"
  else if key = "nonce" then .int nonce
  else .null

def headerReply (hash root : String) (time nonce : Int) : RpcReply :=
  .result (.object (headerFields hash root .null time nonce))

/-- The replies in their order; the attestation of the SHA-256 comes first. -/
def flipReplies : List RpcReply :=
  [chainInfo, .result (.str otherHash),
    headerReply otherHash "340b8e73e168dace9fabb23bea2cb9b0822cbcd84b8a2a8f51e420e24d2a7e33"
      1231006506 1,
    .result (.str otherHash), .result (.str firstHash),
    headerReply firstHash "4a5e1e4baab89f3a32518a88c31bc87f618f76673e2cc77ab2127b7afdeda33b"
      1231006505 2083236893,
    .result (.str firstHash), chainInfo]

/-- The answers for the hash at a height. -/
def hashAnswers (transcript : Transcript RpcRequest RpcReply) (height : Nat) : List String :=
  transcript.filterMap fun entry =>
    match entry with
    | (.getblockhash h, .result (.str hash)) => if h = height then some hash else none
    | _ => none

def flipRun : Option (Except VerifierError BitcoinVerification × Transcript RpcRequest RpcReply) :=
  replay (BitcoinCore.verifyExactDigest nodeSha256 flipDeserialize oneConfirmation
    (some (sampleTime 0)) sampleDigest flipBytes) flipReplies

def flipSummary : Option (Option (Bool × Option Nat × Option String) × List String) :=
  flipRun.map fun out => (out.1.toOption.map fun v => (v.verified, v.blockHeight, v.blockHash),
    hashAnswers out.2 0)

theorem flipSummary_eq : flipSummary =
    some (some (true, some 0, some otherHash), [otherHash, otherHash, firstHash, firstHash]) := by
  decide +kernel

theorem hashAnswers_mem {transcript : Transcript RpcRequest RpcReply} {height : Nat}
    {hash : String} (member : hash ∈ hashAnswers transcript height) :
    (RpcRequest.getblockhash height, RpcReply.result (.str hash)) ∈ transcript := by
  obtain ⟨entry, known, selected⟩ := List.mem_filterMap.1 member
  split at selected
  · next h text =>
    split at selected
    · next same =>
      cases selected
      rw [← same]
      exact known
    · cases selected
  · cases selected

theorem second_answer_differs :
    ¬ CoreStrictlySound nodeSha256 flipDeserialize oneConfirmation (some (sampleTime 0))
      sampleDigest flipBytes := by
  intro sound
  have summary := flipSummary_eq
  unfold flipSummary at summary
  cases run : flipRun with
  | none =>
    rw [run] at summary
    cases summary
  | some out =>
    obtain ⟨result, transcript⟩ := out
    rw [run] at summary
    obtain ⟨told, answers⟩ := Prod.mk.inj (Option.some.inj summary)
    cases result with
    | error e => cases told
    | ok v =>
      obtain ⟨verified, reported⟩ := Prod.mk.inj (Option.some.inj told)
      obtain ⟨blockHeight, blockHash⟩ := Prod.mk.inj reported
      obtain ⟨detached, height, message, header, get, snapshot, facts, _, same⟩ :=
        sound flipReplies v transcript run verified
      have zero : height = 0 := Option.some.inj (facts.blockHeight.symm.trans blockHeight)
      have reportedHash : headerHash nodeSha256 header.pack = otherHash :=
        Option.some.inj (facts.blockHash.symm.trans blockHash)
      have told : firstHash ∈ hashAnswers transcript 0 := by
        rw [answers]
        decide
      have equal := same _ (zero ▸ hashAnswers_mem told)
      rw [reportedHash] at equal
      have texts : firstHash = otherHash := Json.str.inj (RpcReply.result.inj equal)
      exact absurd texts (by decide)

/-! ## A header without the hash of its previous block -/

def blankHash : String := "269a79f78ddee88f546670e558728f4cf89c2645c6b7398a5a42e648d0dc42de"

/-- The reply for the first block with blanks in the place of the previous hash. -/
def blankFields : String → Json :=
  headerFields blankHash "4a5e1e4baab89f3a32518a88c31bc87f618f76673e2cc77ab2127b7afdeda33b"
    (.str (String.ofList (List.replicate 64 ' '))) 1231006505 2083236893

def singleBytes : Bytes := proofHeader ++ sampleDigest.value ++ bitcoinAttestation 0

def singleDeserialize (bytes : Bytes) : Option DetachedTimestampFile :=
  if bytes = singleBytes then some ⟨.sha256, .node sampleDigest.value [.bitcoin 0] .nil⟩ else none

def blankReplies : List RpcReply :=
  [chainInfo, .result (.str blankHash), .result (.object blankFields), .result (.str blankHash),
    chainInfo]

-- `bytes.fromhex` skips the blanks, and a header of 48 bytes is verified.
example :
    ((replay (BitcoinCore.verifyExactDigest nodeSha256 singleDeserialize oneConfirmation
      (some (sampleTime 0)) sampleDigest singleBytes) blankReplies).bind fun out =>
        out.1.toOption.map fun v => (v.verified, v.blockHash)) = some (true, some blankHash) ∧
      (serializeHeader blankFields 0).toOption.map (fun header => header.pack.length) =
        some 48 := by
  decide +kernel

end VerifierSoundness
