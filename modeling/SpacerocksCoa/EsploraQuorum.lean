import SpacerocksCoa.BitcoinCore

/-!
# Verification against two Esplora providers

The verifier that asks two block explorers for the same block and accepts what both say. A
reply is any body or none; calls that run side by side are asked one provider after the other,
which makes no difference to a service that may reply anything. The resolution and pinning of
the providers' addresses belong to the transport and are left out. Decoding JSON is a
parameter.
-/
namespace EsploraQuorum
open OrderStates DetachedProofs FallibleSteps ProgramTranscripts TransactionalPrograms
open BitcoinCore

inductive Provider where
  | left | right
  deriving DecidableEq

inductive EsploraRequest where
  | blockHeight (provider : Provider) (height : Nat)
  | header (provider : Provider) (hash : String)
  | status (provider : Provider) (hash : String)
  | tipHeight (provider : Provider)
  deriving DecidableEq

/-- The body of a reply; a call that raises has none. -/
abbrev EsploraReply := Option Bytes

abbrev EsploraProg (α : Type) := Prog EsploraRequest (fun _ => EsploraReply) VerifierError α

def esploraResponseLimit : Nat := 4096
def maxBitcoinCandidates : Nat := 16
def maxProviderTipSkew : Nat := 2
def maxBlockHeight : Nat := 2147483647
def mainnetPowLimit : Nat := 65535 * 2 ^ 208
def mainnetGenesisHash : String :=
  "000000000019d6689c085ae165831e934ff763ae46a2a6c172b3f1b60a8ce26f"

/-! ## Bodies -/

/-- The blanks of `str.strip` within ASCII. -/
def blank (c : Char) : Bool :=
  HexText.asciiSpace c || (decide (28 ≤ c.toNat) && decide (c.toNat ≤ 31))

/-- `_ascii_text`. -/
def asciiText (raw : Bytes) : Option (List Char) :=
  if raw.all (fun b => decide (b < 128)) then
    some (((raw.map fun b => Char.ofNat b.toNat).dropWhile blank).reverse.dropWhile blank).reverse
  else none

/-- The decoding of `_block_hash`. -/
def hashOf (raw : Bytes) : Option String :=
  (asciiText raw).bind fun text =>
    if text.length = 64 ∧ text.all HexText.lowerHex = true then some (String.ofList text) else none

def headerOf (raw : Bytes) : Option Bytes :=
  (asciiText raw).bind fun text =>
    if text.length = 160 ∧ text.any upperAscii = false then HexText.fromHex text else none

def decimalOf (text : List Char) : Option Nat :=
  if text ≠ [] ∧ text.all (fun c => decide ('0' ≤ c) && decide (c ≤ '9')) = true ∧
      (text.head? ≠ some '0' ∨ text = ['0']) then
    some (text.foldl (fun n c => 10 * n + (c.toNat - '0'.toNat)) 0)
  else none

/-- `_parse_height`. -/
def heightOf (raw : Bytes) : Option Nat :=
  ((asciiText raw).bind decimalOf).filter fun height => decide (height ≤ maxBlockHeight)

variable (jsonLoads : List Char → Option Json)

/-- `_parse_status`. -/
def statusOf (raw : Bytes) : Option (Nat × Bool) :=
  match (asciiText raw).bind jsonLoads with
  | some (.object get) =>
    match get "height", get "in_best_chain" with
    | .int height, .bool inBestChain =>
      if 0 ≤ height ∧ height ≤ maxBlockHeight then some (height.toNat, inBestChain) else none
    | _, _ => none
  | _ => none

/-- The body of a reply that `_get` lets through, decoded. -/
def decoded {α : Type} (decode : Bytes → Option α) (reply : EsploraReply) : Option α :=
  reply.bind fun body =>
    if body = [] ∨ esploraResponseLimit < body.length then none else decode body

/-- A call of a provider. Whatever it raises, the gather around it turns into one error. -/
def fetch {α : Type} (request : EsploraRequest) (decode : Bytes → Option α) :
    EsploraProg (Option α) := do
  let reply ← Prog.request request
  return decoded decode reply

def quorumUnavailable : VerifierError := .unavailable "esplora_quorum_unavailable"

/-! ## One block at both providers -/

structure ProviderSnapshot where
  header : Bytes
  statusHeight : Nat
  inBestChain : Bool
  tipHeight : Nat
  deriving DecidableEq

structure QuorumSnapshot where
  blockHash : String
  header : Bytes
  statusHeight : Nat
  inBestChain : Bool
  tipHeight : Nat
  providerTipHeights : Nat × Nat
  deriving DecidableEq

def bothHashes (height : Nat) : EsploraProg (String × String) := do
  let left ← fetch (.blockHeight .left height) hashOf
  let right ← fetch (.blockHeight .right height) hashOf
  match left, right with
  | some left, some right => return (left, right)
  | _, _ => Prog.fail quorumUnavailable

/-- `_provider_snapshot`. -/
def providerSnapshot (provider : Provider) (hash : String) :
    EsploraProg (Option ProviderSnapshot) := do
  let header ← fetch (.header provider hash) headerOf
  let status ← fetch (.status provider hash) (statusOf jsonLoads)
  let tip ← fetch (.tipHeight provider) heightOf
  return header.bind fun header => status.bind fun status => tip.map fun tip =>
    ⟨header, status.1, status.2, tip⟩

def tipSkew (left right : Nat) : Nat := max left right - min left right

/-- The comparison at the end of `_quorum_snapshot`. -/
def agreed (hash : String) :
    Option ProviderSnapshot → Option ProviderSnapshot → Except VerifierError QuorumSnapshot
  | some left, some right =>
    if left.header ≠ right.header ∨ left.statusHeight ≠ right.statusHeight ∨
        left.inBestChain ≠ right.inBestChain then
      .error (.invalid "esplora_provider_evidence_conflict")
    else if maxProviderTipSkew < tipSkew left.tipHeight right.tipHeight then
      .error (.unavailable "esplora_provider_tip_skew")
    else .ok ⟨hash, left.header, left.statusHeight, left.inBestChain,
      min left.tipHeight right.tipHeight, (left.tipHeight, right.tipHeight)⟩
  | _, _ => .error quorumUnavailable

/-- The hashes of the first block, which are those at the height itself when it is 0. -/
def anchorHashes (height : Nat) (hashes : String × String) : EsploraProg (String × String) :=
  if height = 0 then return hashes else bothHashes 0

/-- `_quorum_snapshot`. -/
def quorumSnapshot (height : Nat) : EsploraProg QuorumSnapshot := do
  let hashes ← bothHashes height
  if hashes.1 ≠ hashes.2 then Prog.fail (.invalid "esplora_provider_block_hash_conflict")
  else do
    let anchors ← anchorHashes height hashes
    if anchors.1 ≠ anchors.2 then Prog.fail (.invalid "esplora_provider_network_conflict")
    else if anchors.1 ≠ mainnetGenesisHash then Prog.fail (.invalid "esplora_wrong_network")
    else do
      let left ← providerSnapshot jsonLoads .left hashes.1
      let right ← providerSnapshot jsonLoads .right hashes.1
      Prog.lift (agreed hashes.1 left right)

def raceOf : VerifierError → VerifierError
  | .invalid _ => .unavailable "esplora_chain_race"
  | .rejected _ => .unavailable "esplora_chain_race"
  | other => other

/-- `_require_stable_snapshot`. -/
def requireStableSnapshot (height : Nat) (expected : QuorumSnapshot) : EsploraProg Unit := do
  let observed ← (quorumSnapshot jsonLoads height).attempt
  match observed with
  | .error e => Prog.fail (raceOf e)
  | .ok observed =>
    if observed ≠ expected then Prog.fail (.unavailable "esplora_chain_race") else return ()

/-! ## Headers -/

variable (sha256 : Bytes → Sha256)

def littleNumber (bytes : Bytes) : Nat := bytes.foldr (fun b n => b.toNat + 256 * n) 0

/-- `_compact_target`. -/
def compactTarget (compact : Nat) : Except VerifierError Nat :=
  let exponent := compact / 16777216
  let mantissa := compact % 8388608
  let negative := compact / 8388608 % 2 = 1
  let overflow := mantissa ≠ 0 ∧ (exponent > 34 ∨ (mantissa > 255 ∧ exponent > 33) ∨
    (mantissa > 65535 ∧ exponent > 32))
  if negative ∨ mantissa = 0 ∨ overflow then
    .error (.invalid "esplora_block_header_target_invalid")
  else
    let target := if exponent ≤ 3 then mantissa / 2 ^ (8 * (3 - exponent))
      else mantissa * 2 ^ (8 * (exponent - 3))
    if target = 0 ∨ mainnetPowLimit < target then
      .error (.invalid "esplora_block_header_target_invalid")
    else .ok target

structure VerifiedHeader where
  blockHash : String
  merkleRoot : Bytes
  blockTime : Instant
  deriving DecidableEq

def headerBytes (header : Bytes) (start stop : Nat) : Bytes := (header.drop start).take (stop - start)

/-- `_verify_header`; every time of four bytes is an instant. -/
def verifyHeader (header : Bytes) : Except VerifierError VerifiedHeader :=
  if header.length ≠ 80 then .error (.invalid "esplora_block_header_malformed")
  else
    match compactTarget (littleNumber (headerBytes header 72 76)) with
    | .error e => .error e
    | .ok target =>
      if target < littleNumber (sha256 (sha256 header).value).value then
        .error (.invalid "esplora_block_header_pow_invalid")
      else .ok ⟨headerHash sha256 header, headerBytes header 36 68,
        secondsInstant (littleNumber (headerBytes header 68 72))⟩

/-! ## The verifier -/

def candidatesValid (candidates : List (Nat × Bytes)) : Bool :=
  decide (candidates.length ≤ maxBitcoinCandidates) &&
    candidates.all fun pair => decide (pair.1 ≤ maxBlockHeight) && decide (pair.2.length = 32)

structure PendingSnapshot where
  height : Nat
  confirmations : Int
  snapshot : QuorumSnapshot

def requireAllStable : List PendingSnapshot → EsploraProg Unit
  | [] => return ()
  | pending :: rest => do
    requireStableSnapshot jsonLoads pending.height pending.snapshot
    requireAllStable rest

/-- The end of the verifier when no height had enough confirmations. -/
def concludePending (pending : List PendingSnapshot) : EsploraProg BitcoinVerification :=
  if pending = [] then Prog.fail (.invalid "bitcoin_attestation_merkle_mismatch")
  else do
    requireAllStable jsonLoads pending
    Prog.lift (pendingResult "esplora-2-of-2-confirmation-pending"
      (some ((pending.map PendingSnapshot.confirmations).foldl max 0))).checked

def esploraVerification (threshold : Threshold) (verifiedAt : Instant) (height : Nat)
    (header : VerifiedHeader) (confirmations : Int) : BitcoinVerification :=
  ⟨true, "esplora-2-of-2-exact-digest", some verifiedAt, some height, some header.blockHash,
    some header.blockTime,
    some ("esplora-2-of-2-mainnet-canonical-min-" ++ toString threshold.value),
    some confirmations⟩

/-- The checks of a height on its snapshot. -/
def heightHeader (height : Nat) (snapshot : QuorumSnapshot) :
    Except VerifierError VerifiedHeader :=
  if snapshot.statusHeight ≠ height ∨ snapshot.inBestChain = false ∨
      snapshot.tipHeight < height then .error (.invalid "esplora_noncanonical_block")
  else do
    let header ← verifyHeader sha256 snapshot.header
    if header.blockHash ≠ snapshot.blockHash then
      .error (.invalid "esplora_block_header_hash_mismatch")
    else return header

/-- The loop over the heights, from the lowest. -/
def scanHeights (threshold : Threshold) (clock : Option Instant)
    (candidates : List (Nat × Bytes)) :
    List Nat → List PendingSnapshot → EsploraProg BitcoinVerification
  | [], pending => concludePending jsonLoads pending
  | height :: rest, pending => do
    let snapshot ← quorumSnapshot jsonLoads height
    let header ← Prog.lift (heightHeader sha256 height snapshot)
    let confirmations : Int := snapshot.tipHeight - height + 1
    if (height, header.merkleRoot) ∉ candidates then
      scanHeights threshold clock candidates rest pending
    else if confirmations < threshold.value then
      scanHeights threshold clock candidates rest (pending ++ [⟨height, confirmations, snapshot⟩])
    else do
      requireStableSnapshot jsonLoads height snapshot
      match clock with
      | none => Prog.fail (.invalid "bitcoin_verifier_clock_invalid")
      | some verifiedAt =>
        Prog.lift (esploraVerification threshold verifiedAt height header confirmations).checked

def sortedHeights (candidates : List (Nat × Bytes)) : List Nat :=
  (candidates.map Prod.fst).dedup.insertionSort (· ≤ ·)

/-- `EsploraBitcoinVerifier.verify_exact_digest`. -/
def verifyExactDigest (deserialize : Bytes → Option DetachedTimestampFile)
    (threshold : Threshold) (clock : Option Instant) (digest : ManifestDigest)
    (proofBytes : Bytes) : EsploraProg BitcoinVerification :=
  match deserializeExactProof sha256 deserialize digest proofBytes with
  | .error e => Prog.fail (.proof e)
  | .ok detached =>
    let candidates := sortedAttestations detached
    if candidates = [] then Prog.lift (pendingResult "esplora-2-of-2-no-attestation" none).checked
    else if candidatesValid candidates = false then
      Prog.fail (.invalid "bitcoin_attestation_malformed")
    else scanHeights jsonLoads sha256 threshold clock candidates (sortedHeights candidates) []

/-! ## What a quorum says -/

def quorumRequests (height : Nat) (hash : String) : List EsploraRequest :=
  [EsploraRequest.blockHeight .left height, .blockHeight .right height] ++
    (if height = 0 then [] else [EsploraRequest.blockHeight .left 0, .blockHeight .right 0]) ++
    [EsploraRequest.header .left hash, .status .left hash, .tipHeight .left,
      .header .right hash, .status .right hash, .tipHeight .right]

/-- What a snapshot takes from one reply. -/
def Says (height : Nat) (s : QuorumSnapshot) (entry : EsploraRequest × EsploraReply) : Prop :=
  match entry.1 with
  | .blockHeight _ h =>
    (h = height ∧ decoded hashOf entry.2 = some s.blockHash) ∨
      (h = 0 ∧ decoded hashOf entry.2 = some mainnetGenesisHash)
  | .header _ hash => hash = s.blockHash ∧ decoded headerOf entry.2 = some s.header
  | .status _ hash =>
    hash = s.blockHash ∧ decoded (statusOf jsonLoads) entry.2 = some (s.statusHeight, s.inBestChain)
  | .tipHeight .left => decoded heightOf entry.2 = some s.providerTipHeights.1
  | .tipHeight .right => decoded heightOf entry.2 = some s.providerTipHeights.2

/-- A snapshot with the replies that it was taken from. -/
structure QuorumOf (height : Nat) (s : QuorumSnapshot)
    (transcript : Transcript EsploraRequest EsploraReply) : Prop where
  requests : transcript.map Prod.fst = quorumRequests height s.blockHash
  replies : ∀ entry ∈ transcript, Says jsonLoads height s entry
  tip : s.tipHeight = min s.providerTipHeights.1 s.providerTipHeights.2
  genesis : height = 0 → s.blockHash = mainnetGenesisHash

variable {jsonLoads} {sha256}

theorem fetch_ensures {α : Type} (request : EsploraRequest) (decode : Bytes → Option α) :
    Ensures (fetch request decode) fun transcript out =>
      ∃ reply, transcript = [(request, reply)] ∧ out = decoded decode reply :=
  fun reply => ⟨reply, rfl, rfl⟩

theorem bothHashes_ensures (height : Nat) :
    Ensures (bothHashes height) fun transcript hashes => ∃ l r,
      transcript = [(.blockHeight .left height, l), (.blockHeight .right height, r)] ∧
        decoded hashOf l = some hashes.1 ∧ decoded hashOf r = some hashes.2 := by
  unfold bothHashes
  refine ensures_bind (fetch_ensures _ _) ?_
  rintro _ left ⟨l, rfl, leftOf⟩
  refine ensures_bind (fetch_ensures _ _) ?_
  rintro _ right ⟨r, rfl, rightOf⟩
  cases left with
  | none => trivial
  | some left =>
    cases right with
    | none => trivial
    | some right => exact ⟨l, r, rfl, leftOf.symm, rightOf.symm⟩

theorem providerSnapshot_ensures (provider : Provider) (hash : String) :
    Ensures (providerSnapshot jsonLoads provider hash) fun transcript out => ∃ h s t,
      transcript = [(.header provider hash, h), (.status provider hash, s),
        (.tipHeight provider, t)] ∧ ∀ snapshot, out = some snapshot →
          decoded headerOf h = some snapshot.header ∧
          decoded (statusOf jsonLoads) s = some (snapshot.statusHeight, snapshot.inBestChain) ∧
          decoded heightOf t = some snapshot.tipHeight := by
  unfold providerSnapshot
  refine ensures_bind (fetch_ensures _ _) ?_
  rintro _ header ⟨h, rfl, headerRead⟩
  refine ensures_bind (fetch_ensures _ _) ?_
  rintro _ status ⟨s, rfl, statusRead⟩
  refine ensures_bind (fetch_ensures _ _) ?_
  rintro _ tip ⟨t, rfl, tipRead⟩
  refine ensures_done ⟨h, s, t, rfl, ?_⟩
  intro snapshot out
  obtain ⟨header', hasHeader, withHeader⟩ := Option.bind_eq_some_iff.1 out
  obtain ⟨status', hasStatus, withStatus⟩ := Option.bind_eq_some_iff.1 withHeader
  obtain ⟨tip', hasTip, rfl⟩ := Option.map_eq_some_iff.1 withStatus
  exact ⟨headerRead.symm.trans hasHeader, statusRead.symm.trans hasStatus,
    tipRead.symm.trans hasTip⟩

theorem agreed_ok {hash : String} {left right : Option ProviderSnapshot} {s : QuorumSnapshot}
    (h : agreed hash left right = .ok s) :
    ∃ l r, left = some l ∧ right = some r ∧ s.blockHash = hash ∧
      l.header = s.header ∧ r.header = s.header ∧
      l.statusHeight = s.statusHeight ∧ r.statusHeight = s.statusHeight ∧
      l.inBestChain = s.inBestChain ∧ r.inBestChain = s.inBestChain ∧
      s.providerTipHeights = (l.tipHeight, r.tipHeight) ∧
      s.tipHeight = min l.tipHeight r.tipHeight := by
  unfold agreed at h
  split at h
  · next l r =>
    split at h
    · cases h
    · next same =>
      rw [not_or, not_or, not_not, not_not, not_not] at same
      split at h
      · cases h
      · cases h
        exact ⟨l, r, rfl, rfl, rfl, rfl, same.1.symm, rfl, same.2.1.symm, rfl, same.2.2.symm,
          rfl, rfl⟩
  · cases h

theorem anchorHashes_ensures (height : Nat) (hashes : String × String) :
    Ensures (anchorHashes height hashes) fun transcript anchors =>
      (height = 0 ∧ transcript = [] ∧ anchors = hashes) ∨
        (height ≠ 0 ∧ ∃ l r, transcript = [(.blockHeight .left 0, l), (.blockHeight .right 0, r)] ∧
          decoded hashOf l = some anchors.1 ∧ decoded hashOf r = some anchors.2) := by
  unfold anchorHashes
  split
  · next zero => exact ensures_done (Or.inl ⟨zero, rfl, rfl⟩)
  · next positive =>
    refine ensures_mono (bothHashes_ensures 0) ?_
    intro transcript anchors both
    exact Or.inr ⟨positive, both⟩

theorem quorumSnapshot_ensures (height : Nat) :
    Ensures (quorumSnapshot jsonLoads height) fun transcript s =>
      QuorumOf jsonLoads height s transcript := by
  unfold quorumSnapshot
  refine ensures_bind (bothHashes_ensures height) ?_
  rintro _ hashes ⟨l, r, rfl, leftHash, rightHash⟩
  split
  · trivial
  · next sameHash =>
    have sameHash := not_not.1 sameHash
    refine ensures_bind (anchorHashes_ensures height hashes) ?_
    intro anchorTranscript anchors anchored
    split
    · trivial
    · next sameAnchor =>
      have sameAnchor := not_not.1 sameAnchor
      split
      · trivial
      · next mainnet =>
        have mainnet := not_not.1 mainnet
        refine ensures_bind (providerSnapshot_ensures .left hashes.1) ?_
        rintro _ left ⟨lh, ls, lt, rfl, leftRead⟩
        refine ensures_bind (providerSnapshot_ensures .right hashes.1) ?_
        rintro _ right ⟨rh, rs, rt, rfl, rightRead⟩
        refine ensures_lift ?_
        intro s passes
        obtain ⟨left', right', rfl, rfl, hash, lHeader, rHeader, lStatus, rStatus, lChain, rChain,
          tips, tip⟩ := agreed_ok passes
        obtain ⟨lh', ls', lt'⟩ := leftRead left' rfl
        obtain ⟨rh', rs', rt'⟩ := rightRead right' rfl
        rw [lHeader] at lh'
        rw [rHeader] at rh'
        rw [lStatus, lChain] at ls'
        rw [rStatus, rChain] at rs'
        have leftTip : left'.tipHeight = s.providerTipHeights.1 := by rw [tips]
        have rightTip : right'.tipHeight = s.providerTipHeights.2 := by rw [tips]
        rw [leftTip] at lt'
        rw [rightTip] at rt'
        rw [← hash] at leftHash
        rw [← sameHash, ← hash] at rightHash
        have told : ∀ entry ∈ [(EsploraRequest.blockHeight .left height, l),
            (.blockHeight .right height, r), (.header .left hashes.1, lh),
            (.status .left hashes.1, ls), (.tipHeight .left, lt), (.header .right hashes.1, rh),
            (.status .right hashes.1, rs), (.tipHeight .right, rt)],
            Says jsonLoads height s entry := by
          simp only [List.mem_cons, List.not_mem_nil, or_false, forall_eq_or_imp, forall_eq]
          exact ⟨Or.inl ⟨rfl, leftHash⟩, Or.inl ⟨rfl, rightHash⟩, ⟨hash.symm, lh'⟩,
            ⟨hash.symm, ls'⟩, lt', ⟨hash.symm, rh'⟩, ⟨hash.symm, rs'⟩, rt'⟩
        have lowest : s.tipHeight = min s.providerTipHeights.1 s.providerTipHeights.2 := by
          rw [tip, leftTip, rightTip]
        rcases anchored with ⟨zero, rfl, rfl⟩ | ⟨positive, a, b, rfl, leftAnchor, rightAnchor⟩
        · refine ⟨?_, told, lowest, fun _ => hash.trans mainnet⟩
          simp only [quorumRequests, if_pos zero, hash]
          rfl
        · refine ⟨?_, ?_, lowest, fun zero => absurd zero positive⟩
          · simp only [quorumRequests, if_neg positive, hash]
            rfl
          · rw [mainnet] at leftAnchor
            rw [← sameAnchor, mainnet] at rightAnchor
            intro entry member
            simp only [List.cons_append, List.nil_append, List.mem_cons, List.not_mem_nil,
              or_false] at member told
            rcases member with rfl | rfl | rfl | rfl | later
            · exact told _ (Or.inl rfl)
            · exact told _ (Or.inr (Or.inl rfl))
            · exact Or.inr ⟨rfl, leftAnchor⟩
            · exact Or.inr ⟨rfl, rightAnchor⟩
            · exact told entry (Or.inr (Or.inr later))

theorem requireStableSnapshot_ensures (height : Nat) (expected : QuorumSnapshot) :
    Ensures (requireStableSnapshot jsonLoads height expected) fun transcript _ =>
      QuorumOf jsonLoads height expected transcript := by
  unfold requireStableSnapshot
  refine ensures_bind (ensures_attempt (quorumSnapshot_ensures height)) ?_
  intro transcript observed quorum
  cases observed with
  | error e => trivial
  | ok observed =>
    dsimp only
    split
    · trivial
    · next same =>
      refine ensures_done ?_
      rw [List.append_nil, ← not_not.1 same]
      exact quorum observed rfl

variable (jsonLoads) (sha256)

/-- A height whose block both providers showed twice, with a commitment of the proof. -/
structure StableHeight (threshold : Threshold) (candidates : List (Nat × Bytes)) (height : Nat)
    (header : VerifiedHeader) (s : QuorumSnapshot)
    (transcript : Transcript EsploraRequest EsploraReply) : Prop where
  checked : heightHeader sha256 height s = .ok header
  candidate : (height, header.merkleRoot) ∈ candidates
  enough : (threshold.value : Int) ≤ s.tipHeight - height + 1
  runs : ∃ before first second, transcript = before ++ first ++ second ∧
    QuorumOf jsonLoads height s first ∧ QuorumOf jsonLoads height s second ∧
      ∀ provider reply, (EsploraRequest.blockHeight provider height, reply) ∉ before

variable {jsonLoads} {sha256}

theorem requireAllStable_ensures (pending : List PendingSnapshot) :
    Ensures (requireAllStable jsonLoads pending) fun _ _ => True := by
  induction pending with
  | nil => trivial
  | cons head rest ih =>
    exact ensures_bind (requireStableSnapshot_ensures head.height head.snapshot) fun _ _ _ =>
      ensures_mono ih fun _ _ _ => trivial

theorem concludePending_ensures (pending : List PendingSnapshot) :
    Ensures (concludePending jsonLoads pending) fun _ v => v.verified = false := by
  unfold concludePending
  split
  · trivial
  · refine ensures_bind (requireAllStable_ensures pending) ?_
    rintro _ _ _
    refine ensures_lift ?_
    intro v checked
    rw [checked_ok checked]
    rfl

/-- A snapshot of another height asks for the hashes at that height and at 0 only. -/
theorem QuorumOf.other {height other : Nat} {s : QuorumSnapshot}
    {transcript : Transcript EsploraRequest EsploraReply}
    (quorum : QuorumOf jsonLoads other s transcript) (later : other < height)
    (provider : Provider) (reply : EsploraReply) :
    (EsploraRequest.blockHeight provider height, reply) ∉ transcript := by
  intro member
  rcases quorum.replies _ member with ⟨same, _⟩ | ⟨zero, _⟩
  · omega
  · omega

theorem StableHeight.later {threshold : Threshold} {candidates : List (Nat × Bytes)}
    {height other : Nat} {header : VerifiedHeader} {s s' : QuorumSnapshot}
    {earlier transcript : Transcript EsploraRequest EsploraReply}
    (stable : StableHeight jsonLoads sha256 threshold candidates height header s transcript)
    (quorum : QuorumOf jsonLoads other s' earlier) (later : other < height) :
    StableHeight jsonLoads sha256 threshold candidates height header s (earlier ++ transcript) := by
  obtain ⟨checked, candidate, enough, before, first, second, rfl, once, twice, absent⟩ := stable
  refine ⟨checked, candidate, enough, earlier ++ before, first, second, ?_, once, twice, ?_⟩
  · rw [List.append_assoc, List.append_assoc, List.append_assoc]
  · intro provider reply member
    rcases List.mem_append.1 member with old | new
    · exact quorum.other later provider reply old
    · exact absent provider reply new

theorem scanHeights_ensures (threshold : Threshold) (clock : Option Instant)
    (candidates : List (Nat × Bytes)) (heights : List Nat) (pending : List PendingSnapshot)
    (sorted : heights.Pairwise (· < ·)) :
    Ensures (scanHeights jsonLoads sha256 threshold clock candidates heights pending)
      fun transcript v => v.verified = true → ∃ height ∈ heights, ∃ header s verifiedAt,
        v = esploraVerification threshold verifiedAt height header (s.tipHeight - height + 1) ∧
          StableHeight jsonLoads sha256 threshold candidates height header s transcript := by
  induction heights generalizing pending with
  | nil =>
    refine ensures_mono (concludePending_ensures pending) ?_
    intro _ v unverified verified
    rw [unverified] at verified
    cases verified
  | cons other rest ih =>
    obtain ⟨below, sorted⟩ := List.pairwise_cons.1 sorted
    unfold scanHeights
    refine ensures_bind (quorumSnapshot_ensures other) ?_
    intro earlier s quorum
    refine ensures_bind (ensures_lift (P := fun transcript header =>
      transcript = [] ∧ heightHeader sha256 other s = .ok header) fun header checked =>
        ⟨rfl, checked⟩) ?_
    rintro _ header ⟨rfl, checked⟩
    have onward : ∀ pending, Ensures
        (scanHeights jsonLoads sha256 threshold clock candidates rest pending)
        fun transcript v => v.verified = true → ∃ height ∈ other :: rest, ∃ header s verifiedAt,
          v = esploraVerification threshold verifiedAt height header (s.tipHeight - height + 1) ∧
            StableHeight jsonLoads sha256 threshold candidates height header s
              (earlier ++ ([] ++ transcript)) := by
      intro pending
      refine ensures_mono (ih pending sorted) ?_
      intro transcript v kept verified
      obtain ⟨height, member, header, s', verifiedAt, same, stable⟩ := kept verified
      exact ⟨height, List.mem_cons_of_mem other member, header, s', verifiedAt, same,
        stable.later quorum (below height member)⟩
    dsimp only
    split
    · exact onward pending
    · next candidate =>
      split
      · exact onward _
      · next enough =>
        refine ensures_bind (requireStableSnapshot_ensures other s) ?_
        intro second _ twice
        cases clock with
        | none => trivial
        | some verifiedAt =>
          refine ensures_lift ?_
          intro v result verified
          refine ⟨other, List.mem_cons_self, header, s, verifiedAt, checked_ok result, checked,
            not_not.1 candidate, not_lt.1 enough, [], earlier, second, ?_, quorum, twice,
            fun _ _ => List.not_mem_nil⟩
          rw [List.append_nil, List.nil_append, List.nil_append]

theorem sortedHeights_sorted (candidates : List (Nat × Bytes)) :
    (sortedHeights candidates).Pairwise (· < ·) := by
  have sorted := List.pairwise_insertionSort (· ≤ ·) (candidates.map Prod.fst).dedup
  have nodup : (sortedHeights candidates).Nodup :=
    (List.perm_insertionSort (· ≤ ·) _).nodup_iff.2 (List.nodup_dedup _)
  refine (List.Pairwise.and sorted nodup).imp ?_
  intro a b both
  exact lt_of_le_of_ne both.1 both.2

theorem heightHeader_ok {height : Nat} {s : QuorumSnapshot} {header : VerifiedHeader}
    (checked : heightHeader sha256 height s = .ok header) :
    s.statusHeight = height ∧ s.inBestChain = true ∧ s.header.length = 80 ∧
      header.merkleRoot = headerBytes s.header 36 68 ∧
      header.blockHash = headerHash sha256 s.header ∧ s.blockHash = header.blockHash ∧
      header.blockTime = secondsInstant (littleNumber (headerBytes s.header 68 72)) := by
  unfold heightHeader at checked
  split at checked
  · cases checked
  · next canonical =>
    rw [not_or, not_or, not_not, Bool.not_eq_false] at canonical
    obtain ⟨read, verified, passes⟩ := except_bind_ok checked
    split at passes
    · cases passes
    · next same =>
      cases passes
      unfold verifyHeader at verified
      split at verified
      · cases verified
      · next length =>
        split at verified
        · cases verified
        · split at verified
          · cases verified
          · cases verified
            exact ⟨canonical.1, canonical.2.1, not_not.1 length, rfl, rfl, (not_not.1 same).symm,
              rfl⟩

variable (jsonLoads) (sha256)

/-- What a verified result of the two providers says. -/
structure EsploraVerified (deserialize : Bytes → Option DetachedTimestampFile)
    (threshold : Threshold) (digest : ManifestDigest) (proofBytes : Bytes)
    (transcript : Transcript EsploraRequest EsploraReply) (v : BitcoinVerification)
    (detached : DetachedTimestampFile) (height : Nat) (message header : Bytes)
    (s : QuorumSnapshot) : Prop where
  read : deserialize proofBytes = some detached
  target : detached.timestamp.msg = digest.value
  commits : Commits sha256 digest.value message
  attested : (message, Attestation.bitcoin height) ∈ detached.timestamp.allAttestations
  blockHeight : v.blockHeight = some height
  length : header.length = 80
  merkleRoot : headerBytes header 36 68 = message
  blockHash : v.blockHash = some (headerHash sha256 header)
  blockTime : v.blockTime = some (secondsInstant (littleNumber (headerBytes header 68 72)))
  confirmations : v.confirmations = some ((s.tipHeight : Int) - height + 1)
  enough : (threshold.value : Int) ≤ s.tipHeight - height + 1
  tip : s.tipHeight = min s.providerTipHeights.1 s.providerTipHeights.2
  /-- Every answer for the hash at the height is the reported hash. -/
  canonical : ∀ provider reply, (EsploraRequest.blockHeight provider height, reply) ∈ transcript →
    decoded hashOf reply = some (headerHash sha256 header)
  /-- Header, tips and hash are those of two equal snapshots at the end of the run. -/
  runs : ∃ before first second, transcript = before ++ first ++ second ∧
    QuorumOf jsonLoads height s first ∧ QuorumOf jsonLoads height s second
  snapshot : s.header = header ∧ s.blockHash = headerHash sha256 header

variable {jsonLoads} {sha256}

/-- The hashes that a snapshot of the height was told. -/
theorem QuorumOf.hash {height : Nat} {s : QuorumSnapshot}
    {transcript : Transcript EsploraRequest EsploraReply}
    (quorum : QuorumOf jsonLoads height s transcript) {provider : Provider} {reply : EsploraReply}
    (member : (EsploraRequest.blockHeight provider height, reply) ∈ transcript) :
    decoded hashOf reply = some s.blockHash := by
  rcases quorum.replies _ member with ⟨_, told⟩ | ⟨zero, told⟩
  · exact told
  · rw [quorum.genesis zero]
    exact told

theorem verifyExactDigest_ensures (deserialize : Bytes → Option DetachedTimestampFile)
    (threshold : Threshold) (clock : Option Instant) (digest : ManifestDigest)
    (proofBytes : Bytes) :
    Ensures (verifyExactDigest jsonLoads sha256 deserialize threshold clock digest proofBytes)
      fun transcript v => v.verified = true → ∃ detached height message header s,
        EsploraVerified jsonLoads sha256 deserialize threshold digest proofBytes transcript v
          detached height message header s := by
  unfold verifyExactDigest
  split
  · trivial
  · next detached accepted =>
    obtain ⟨read, _, target, commits⟩ := deserializeExactProof_commits accepted
    dsimp only
    split
    · refine ensures_lift ?_
      intro v checked verified
      rw [checked_ok checked] at verified
      cases verified
    · split
      · trivial
      · refine ensures_mono (scanHeights_ensures threshold clock _ _ []
          (sortedHeights_sorted _)) ?_
        intro transcript v kept verified
        obtain ⟨height, _, header, s, verifiedAt, rfl, checked, candidate, enough, before, first,
          second, rfl, once, twice, absent⟩ := kept verified
        obtain ⟨_, _, length, root, hash, sameHash, time⟩ := heightHeader_ok checked
        have attested := mem_bitcoinAttestations.1 (mem_sortedAttestations.1 candidate)
        refine ⟨detached, height, header.merkleRoot, s.header, s, read, target,
          commits _ attested, attested, rfl, length, root.symm, congrArg some hash,
          congrArg some time, rfl, enough, once.tip, ?_, ⟨before, first, second, rfl, once, twice⟩,
          rfl, sameHash.trans hash⟩
        intro provider reply member
        rw [← hash, ← sameHash]
        rcases List.mem_append.1 member with inFirst | inSecond
        · rcases List.mem_append.1 inFirst with old | told
          · exact absurd old (absent provider reply)
          · exact once.hash told
        · exact twice.hash inSecond

end EsploraQuorum
