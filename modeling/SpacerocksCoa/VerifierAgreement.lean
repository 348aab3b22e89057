import SpacerocksCoa.ChainGrowth

/-!
# The two verifiers on one chain

A node and two providers that show the same chain at the same tip. Both verifiers settle on
the lowest attested block with enough confirmations: the node because the strongest evidence
is of the lowest block and every attestation up to the tip has to match, the providers because
they ask from the lowest height on. The two readings of its header agree as well.

Nothing is said about proofs that only one of the two verifies.
-/
namespace VerifierAgreement
open OrderStates DetachedProofs FallibleSteps ProgramTranscripts TransactionalPrograms
open BitcoinCore ChainGrowth
open EsploraQuorum (EsploraRequest EsploraReply headerBytes littleNumber)

/-! ## The two readings of a header -/

theorem littleNumber_littleEndian {n : Nat} (small : n ≤ 4294967295) :
    littleNumber (littleEndian n) = n := by
  simp only [littleNumber, littleEndian, List.map_cons, List.map_nil, List.foldr_cons,
    List.foldr_nil, UInt8.toNat_ofNat']
  omega

/-- A header of 80 bytes has its merkle root and its time where the providers' reader looks. -/
theorem headerBytes_pack {header : BlockHeader} (root : header.merkleRoot.length = 32)
    (whole : header.pack.length = 80) :
    headerBytes header.pack 36 68 = header.merkleRoot ∧
      headerBytes header.pack 68 72 = littleEndian header.time := by
  have four : ∀ n, (littleEndian n).length = 4 := fun _ => rfl
  have previous : header.previous.length = 32 := by
    simp only [BlockHeader.pack, List.length_append, four, root] at whole
    omega
  constructor
  · simp only [headerBytes, BlockHeader.pack, List.append_assoc]
    rw [← List.append_assoc, List.drop_left' (by rw [List.length_append, four, previous]),
      List.take_left' (by rw [root])]
  · simp only [headerBytes, BlockHeader.pack, List.append_assoc]
    rw [← List.append_assoc, ← List.append_assoc,
      List.drop_left' (by rw [List.length_append, List.length_append, four, previous, root]),
      List.take_left' (by rw [four])]

theorem integer_bound {value : Json} {code : String} {least n : Int} {bound : Int}
    (read : integer value code least (some bound) = .ok n) : n ≤ bound := by
  unfold integer at read
  split at read
  · split at read
    · cases read
    · next inside =>
      cases read
      rw [not_or] at inside
      have within := inside.2
      rw [Option.any_some, decide_eq_true_iff] at within
      exact not_lt.1 within
  · cases read

/-- The time that the node reports fits into four bytes. -/
theorem serializeHeader_time {get : String → Json} {height : Nat} {header : BlockHeader}
    (read : serializeHeader get height = .ok header) : header.time ≤ 4294967295 := by
  unfold serializeHeader at read
  obtain ⟨version, _, read⟩ := except_bind_ok read
  obtain ⟨previous, _, read⟩ := except_bind_ok read
  obtain ⟨merkle, _, read⟩ := except_bind_ok read
  obtain ⟨time, timed, read⟩ := except_bind_ok read
  obtain ⟨bits, _, read⟩ := except_bind_ok read
  obtain ⟨nonce, _, read⟩ := except_bind_ok read
  cases read
  have bound := integer_bound timed
  dsimp only
  omega

section Chain

variable {sha256 : Bytes → Sha256} {chain : Nat → BlockHeader} {tip : Nat}
  {deserialize : Bytes → Option DetachedTimestampFile} {threshold : Threshold}
  {digest : ManifestDigest} {proofBytes : Bytes} {verifiedAt : Instant}
  {v : BitcoinVerification} {jsonLoads : List Char → Option Json}

/-! ## The block that the node reports -/

/-- A result of the node is of the lowest confirmed attestation. -/
structure LowestOf (threshold : Threshold) (tip : Nat) (attestations : List (Nat × Bytes))
    (height : Nat) : Prop where
  attested : ∃ message, (height, message) ∈ attestations
  confirmed : Confirmed threshold tip height
  lowest : ∀ pair ∈ attestations, Confirmed threshold tip pair.1 → height ≤ pair.1

theorem strongest_lowestOf {attestations : List (Nat × Bytes)} {first : BlockEvidence}
    {rest : List BlockEvidence}
    (blocks : confirmedBlocks sha256 chain threshold tip attestations = first :: rest) :
    ∃ height, LowestOf threshold tip attestations height ∧
      strongest first rest = blockOf sha256 chain tip height := by
  have same : ∀ block ∈ first :: rest, block.confirmations = (tip : Int) - block.height + 1 := by
    intro block member
    rw [← blocks] at member
    obtain ⟨pair, _, _, rfl⟩ := mem_confirmedBlocks.1 member
    rfl
  have least := strongest_lowest same
  have member := strongest_mem first rest
  rw [← blocks] at member
  obtain ⟨pair, known, confirmed, found⟩ := mem_confirmedBlocks.1 member
  refine ⟨pair.1, ⟨⟨pair.2, known⟩, confirmed, ?_⟩, found⟩
  intro other attested enough
  have block : blockOf sha256 chain tip other.1 ∈ first :: rest := by
    rw [← blocks]
    exact mem_confirmedBlocks.2 ⟨other, attested, enough, rfl⟩
  have below := least _ block
  rw [found] at below
  exact below

theorem node_result {answer : RpcRequest → RpcReply} (roots : ChainRoots chain)
    (honest : HonestNode sha256 chain tip answer)
    (run : evaluate answer (BitcoinCore.verifyExactDigest sha256 deserialize threshold
      (some verifiedAt) digest proofBytes) = .ok v) (verified : v.verified = true) :
    ∃ detached height, deserializeExactProof sha256 deserialize digest proofBytes = .ok detached ∧
      Matching chain tip (sortedAttestations detached) ∧
      LowestOf threshold tip (sortedAttestations detached) height ∧
      v = coreVerification threshold verifiedAt (blockOf sha256 chain tip height) := by
  obtain ⟨detached, acceptable⟩ := node_acceptable run verified
  have matching := node_matching honest acceptable run
  obtain ⟨waiting, concluded⟩ := node_run threshold verifiedAt roots honest acceptable matching
  rw [run] at concluded
  cases blocks : confirmedBlocks sha256 chain threshold tip (sortedAttestations detached) with
  | nil =>
    rw [blocks] at concluded
    rw [checked_ok concluded.symm] at verified
    cases verified
  | cons first rest =>
    obtain ⟨height, lowest, found⟩ := strongest_lowestOf blocks
    rw [blocks] at concluded
    simp only [conclude, found] at concluded
    exact ⟨detached, height, acceptable.1, matching, lowest, checked_ok concluded.symm⟩

/-! ## The block that the providers report -/

/-- The merkle root of a height as the providers' reader finds it. -/
def shownRoot (chain : Nat → BlockHeader) (height : Nat) : Bytes :=
  headerBytes (chain height).pack 36 68

/-- A result of the providers is of the first height with a commitment and enough
confirmations. -/
structure FirstOf (sha256 : Bytes → Sha256) (chain : Nat → BlockHeader) (threshold : Threshold)
    (tip : Nat) (candidates : List (Nat × Bytes)) (heights : List Nat) (height : Nat)
    (header : EsploraQuorum.VerifiedHeader) : Prop where
  known : height ∈ heights
  checked : EsploraQuorum.heightHeader sha256 height (quorumAt sha256 chain tip height) = .ok header
  candidate : (height, shownRoot chain height) ∈ candidates
  confirmed : Confirmed threshold tip height
  first : ∀ other ∈ heights, (other, shownRoot chain other) ∈ candidates →
    Confirmed threshold tip other → height ≤ other
  whole : ∀ other ∈ heights, other ≤ height → (chain other).pack.length = 80

theorem scan_result {answer : EsploraRequest → EsploraReply}
    (honest : HonestProviders sha256 chain jsonLoads tip answer)
    {candidates : List (Nat × Bytes)} {heights : List Nat}
    {pending : List EsploraQuorum.PendingSnapshot} (sorted : heights.Pairwise (· < ·))
    (run : evaluate answer (EsploraQuorum.scanHeights jsonLoads sha256 threshold (some verifiedAt)
      candidates heights pending) = .ok v) (verified : v.verified = true) :
    ∃ height header, FirstOf sha256 chain threshold tip candidates heights height header ∧
      v = EsploraQuorum.esploraVerification threshold verifiedAt height header
        ((tip : Int) - height + 1) := by
  induction heights generalizing pending with
  | nil =>
    obtain ⟨_, unverified, _⟩ :=
      ensures_evaluate (EsploraQuorum.concludePending_ensures pending) run
    rw [unverified] at verified
    cases verified
  | cons head rest ih =>
    obtain ⟨below, sorted⟩ := List.pairwise_cons.1 sorted
    unfold EsploraQuorum.scanHeights at run
    cases shown : evaluate answer (EsploraQuorum.quorumSnapshot jsonLoads head) with
    | error e =>
      rw [evaluate_bind, shown] at run
      cases run
    | ok s =>
      obtain ⟨transcript, quorum, answered⟩ :=
        ensures_evaluate (EsploraQuorum.quorumSnapshot_ensures head) shown
      obtain ⟨sameTip, mainnet⟩ := quorum_honest honest quorum answered
      rw [evaluate_bind_ok shown] at run
      cases checked : EsploraQuorum.heightHeader sha256 head s with
      | error e =>
        rw [checked] at run
        cases run
      | ok header =>
        have known : head ≤ tip := sameTip ▸ heightHeader_known checked
        have atTip := evaluate_quorum honest mainnet known
        rw [shown] at atTip
        obtain rfl := Except.ok.inj atTip
        obtain ⟨_, _, whole, root, _⟩ := EsploraQuorum.heightHeader_ok checked
        have root : header.merkleRoot = shownRoot chain head := root
        rw [checked, evaluate_bind_ok (evaluate_lift answer _)] at run
        dsimp only at run
        have onward : ∀ pending', evaluate answer (EsploraQuorum.scanHeights jsonLoads sha256
            threshold (some verifiedAt) candidates rest pending') = .ok v →
            ¬ ((head, shownRoot chain head) ∈ candidates ∧ Confirmed threshold tip head) →
            ∃ height header, FirstOf sha256 chain threshold tip candidates (head :: rest) height
              header ∧ v = EsploraQuorum.esploraVerification threshold verifiedAt height header
                ((tip : Int) - height + 1) := by
          intro pending' later passed
          obtain ⟨height, found, first, same⟩ := ih sorted later
          refine ⟨height, found, ⟨List.mem_cons_of_mem head first.known, first.checked,
            first.candidate, first.confirmed, ?_, ?_⟩, same⟩
          · intro other member candidate confirmed
            rcases List.mem_cons.1 member with rfl | inRest
            · exact absurd ⟨candidate, confirmed⟩ passed
            · exact first.first other inRest candidate confirmed
          · intro other member lower
            rcases List.mem_cons.1 member with rfl | inRest
            · exact whole
            · exact first.whole other inRest lower
        by_cases candidate : (head, header.merkleRoot) ∉ candidates
        · rw [if_pos candidate] at run
          refine onward pending run ?_
          rintro ⟨listed, _⟩
          rw [root] at candidate
          exact candidate listed
        · rw [if_neg candidate] at run
          by_cases few : ((quorumAt sha256 chain tip head).tipHeight : Int) - head + 1 <
              threshold.value
          · rw [if_pos few] at run
            refine onward _ run ?_
            rintro ⟨_, _, enough⟩
            exact absurd few (not_lt.2 enough)
          · rw [if_neg few, evaluate_bind_ok (evaluate_stable honest mainnet known)] at run
            rw [evaluate_lift] at run
            refine ⟨head, header, ⟨List.mem_cons_self, checked, ?_, ⟨known, not_lt.1 few⟩, ?_,
              ?_⟩, checked_ok run⟩
            · rw [← root]
              exact not_not.1 candidate
            · intro other member _ _
              rcases List.mem_cons.1 member with rfl | inRest
              · exact Nat.le_refl _
              · exact Nat.le_of_lt (below other inRest)
            · intro other member lower
              rcases List.mem_cons.1 member with rfl | inRest
              · exact whole
              · exact absurd lower (not_le.2 (below other inRest))

theorem providers_result {answer : EsploraRequest → EsploraReply}
    (honest : HonestProviders sha256 chain jsonLoads tip answer)
    {detached : DetachedTimestampFile}
    (accepted : deserializeExactProof sha256 deserialize digest proofBytes = .ok detached)
    (run : evaluate answer (EsploraQuorum.verifyExactDigest jsonLoads sha256 deserialize threshold
      (some verifiedAt) digest proofBytes) = .ok v) (verified : v.verified = true) :
    ∃ height header, FirstOf sha256 chain threshold tip (sortedAttestations detached)
        (EsploraQuorum.sortedHeights (sortedAttestations detached)) height header ∧
      v = EsploraQuorum.esploraVerification threshold verifiedAt height header
        ((tip : Int) - height + 1) := by
  unfold EsploraQuorum.verifyExactDigest at run
  rw [accepted] at run
  dsimp only at run
  by_cases empty : sortedAttestations detached = []
  · rw [if_pos empty, evaluate_lift] at run
    rw [checked_ok run] at verified
    cases verified
  · rw [if_neg empty] at run
    by_cases malformed : EsploraQuorum.candidatesValid (sortedAttestations detached) = false
    · rw [if_pos malformed] at run
      cases run
    · rw [if_neg malformed] at run
      exact scan_result honest (EsploraQuorum.sortedHeights_sorted _) run verified

theorem mem_sortedHeights {candidates : List (Nat × Bytes)} {height : Nat} :
    height ∈ EsploraQuorum.sortedHeights candidates ↔ ∃ message, (height, message) ∈ candidates := by
  rw [EsploraQuorum.sortedHeights, List.mem_insertionSort, List.mem_dedup, List.mem_map]
  constructor
  · rintro ⟨pair, member, rfl⟩
    exact ⟨pair.2, member⟩
  · rintro ⟨message, member⟩
    exact ⟨(height, message), member, rfl⟩

end Chain

/-! ## Agreement -/

/-- Two results for the same block with the same number of confirmations. -/
structure SameResult (v v' : BitcoinVerification) : Prop where
  blockHeight : v.blockHeight = v'.blockHeight
  blockHash : v.blockHash = v'.blockHash
  blockTime : v.blockTime = v'.blockTime
  confirmations : v.confirmations = v'.confirmations

/-- Whenever the node and the providers both verify a proof, they report the same block. -/
theorem verifiers_agree (sha256 : Bytes → Sha256)
    (deserialize : Bytes → Option DetachedTimestampFile) (jsonLoads : List Char → Option Json)
    (threshold : Threshold) (digest : ManifestDigest) (proofBytes : Bytes)
    (chain : Nat → BlockHeader) (tip : Nat) (verifiedAt verifiedAt' : Instant)
    (core : RpcRequest → RpcReply) (esplora : EsploraRequest → EsploraReply)
    (v v' : BitcoinVerification) (roots : ChainRoots chain)
    (node : HonestNode sha256 chain tip core)
    (providers : HonestProviders sha256 chain jsonLoads tip esplora)
    (coreRun : evaluate core (BitcoinCore.verifyExactDigest sha256 deserialize threshold
      (some verifiedAt) digest proofBytes) = .ok v) (verified : v.verified = true)
    (esploraRun : evaluate esplora (EsploraQuorum.verifyExactDigest jsonLoads sha256 deserialize
      threshold (some verifiedAt') digest proofBytes) = .ok v') (verified' : v'.verified = true) :
    SameResult v v' := by
  obtain ⟨detached, height, accepted, matching, lowest, rfl⟩ :=
    node_result roots node coreRun verified
  obtain ⟨height', header, first, rfl⟩ :=
    providers_result providers accepted esploraRun verified'
  obtain ⟨_, _, whole, _, hash, _, time⟩ := EsploraQuorum.heightHeader_ok first.checked
  have above : height ≤ height' :=
    lowest.lowest (height', shownRoot chain height') first.candidate first.confirmed
  have below : height' ≤ height := by
    obtain ⟨message, attested⟩ := lowest.attested
    have listed : height ∈ EsploraQuorum.sortedHeights (sortedAttestations detached) :=
      mem_sortedHeights.2 ⟨message, attested⟩
    by_contra higher
    have whole := first.whole height listed (Nat.le_of_not_le higher)
    have root : message = (chain height).merkleRoot :=
      matching (height, message) attested lowest.confirmed.1
    have shown : shownRoot chain height = message := by
      rw [root]
      exact (headerBytes_pack (roots height) whole).1
    rw [← shown] at attested
    exact higher (first.first height listed attested lowest.confirmed)
  obtain rfl := Nat.le_antisymm above below
  obtain ⟨get, _, _, _, _, serialized⟩ := node.header height lowest.confirmed.1
  obtain ⟨_, times⟩ := headerBytes_pack (roots height) whole
  refine ⟨rfl, congrArg some hash.symm, congrArg some ?_, rfl⟩
  rw [time]
  show secondsInstant (chain height).time =
    secondsInstant (littleNumber (headerBytes (chain height).pack 68 72))
  rw [times, littleNumber_littleEndian (serializeHeader_time serialized)]

open VerifiedOrders (sampleDigest sampleTime)
open VerifierSoundness (oneConfirmation)

/-- At the first block both verify the proof of the sample. -/
theorem first_block_agrees :
    ∃ v v', evaluate (nodeAt 0) (BitcoinCore.verifyExactDigest chainSha256 twiceDeserialize
        oneConfirmation (some (sampleTime 0)) sampleDigest twiceBytes) = .ok v ∧
      evaluate (providersAt 0) (EsploraQuorum.verifyExactDigest sampleJson chainSha256
        twiceDeserialize oneConfirmation (some (sampleTime 0)) sampleDigest twiceBytes) = .ok v' ∧
      v.verified = true ∧ SameResult v v' := by
  obtain ⟨v, run, verified⟩ := Option.map_eq_some_iff.1 node_verifies_first
  obtain ⟨v', run', verified'⟩ := Option.map_eq_some_iff.1 providers_verify_first
  refine ⟨v, v', toOption_ok run, toOption_ok run', verified, ?_⟩
  exact verifiers_agree chainSha256 twiceDeserialize sampleJson oneConfirmation sampleDigest
    twiceBytes firstBlocks 0 (sampleTime 0) (sampleTime 0) (nodeAt 0) (providersAt 0) v v'
    firstBlocks_roots (nodeAt_honest (by decide)) (providersAt_honest (by decide))
    (toOption_ok run) verified (toOption_ok run') verified'

end VerifierAgreement
