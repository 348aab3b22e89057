import SpacerocksCoa.VerifierSoundness

/-!
# Verified results while the chain grows

An honest chain is a header for each height. A node or a provider at a tip answers about the
heights up to it, always the same during a run. What a verifier says at a tip is compared with
what it says at a later tip of the same chain, about the same proof.

The two providers stay verified. The node reads every attestation up to its tip and refuses
the proof at the first one that does not match, where the providers pass it over: an
attestation above the tip can turn a verified proof into an invalid one once the chain reaches
its height.
-/
namespace ChainGrowth
open OrderStates DetachedProofs ProgramTranscripts TransactionalPrograms BitcoinCore
open EsploraQuorum (EsploraRequest EsploraReply QuorumSnapshot Provider decoded)

/-! ## Hexadecimal texts of hashes -/

theorem lowerHex_not_upper {c : Char} (lower : HexText.lowerHex c = true) :
    upperAscii c = false := by
  rw [HexText.lowerHex, Bool.or_eq_true, Bool.and_eq_true, Bool.and_eq_true] at lower
  cases upper : upperAscii c with
  | false => rfl
  | true =>
    rw [upperAscii, Bool.and_eq_true, decide_eq_true_eq, decide_eq_true_eq] at upper
    simp only [decide_eq_true_eq] at lower
    rcases lower with ⟨_, digit⟩ | ⟨letter, _⟩
    · exact absurd (upper.1.trans digit) (by decide)
    · exact absurd (letter.trans upper.2) (by decide)

/-- A hash as the node writes it is accepted. -/
theorem hashHex_headerHash (sha256 : Bytes → Sha256) (raw : Bytes) (safeCode : String) :
    hashHex (.str (headerHash sha256 raw)) safeCode = .ok (headerHash sha256 raw) := by
  have text : (headerHash sha256 raw).toList =
      HexText.toHex (sha256 (sha256 raw).value).value.reverse := String.toList_ofList
  have length : (headerHash sha256 raw).toList.length = 64 := by
    rw [text, HexText.toHex_length, List.length_reverse, (sha256 _).length]
  have lower : (headerHash sha256 raw).toList.any upperAscii = false := by
    rw [text, List.any_eq_false]
    intro c member
    have all := List.all_eq_true.1 (HexText.toHex_lowerHex
      (sha256 (sha256 raw).value).value.reverse) c member
    rw [lowerHex_not_upper all]
    exact Bool.false_ne_true
  have read : HexText.fromHex (headerHash sha256 raw).toList =
      some (sha256 (sha256 raw).value).value.reverse := by
    rw [text, HexText.fromHex_toHex]
  simp only [hashHex, length, lower, read, ne_eq, not_true_eq_false, Bool.false_eq_true, or_self,
    if_false]

/-! ## Honest answers -/

section Honest

variable (sha256 : Bytes → Sha256) (chain : Nat → BlockHeader)

def chainHash (height : Nat) : String := headerHash sha256 (chain height).pack

/-- The headers of a chain have merkle roots of 32 bytes. -/
def ChainRoots : Prop := ∀ height, (chain height).merkleRoot.length = 32

/-- A synchronized node at `tip`. -/
structure HonestNode (tip : Nat) (answer : RpcRequest → RpcReply) : Prop where
  info : ∃ value best, answer .getblockchaininfo = .result value ∧
    snapshotOf value = .ok ⟨tip, best⟩
  hash : ∀ height, height ≤ tip →
    answer (.getblockhash height) = .result (.str (chainHash sha256 chain height))
  header : ∀ height, height ≤ tip → ∃ get,
    answer (.getblockheader (chainHash sha256 chain height)) = .result (.object get) ∧
      get "height" = .int height ∧ get "hash" = .str (chainHash sha256 chain height) ∧
      get "confirmations" = .int ((tip : Int) - height + 1) ∧
      serializeHeader get height = .ok (chain height)

/-- Two providers at `tip`. -/
structure HonestProviders (jsonLoads : List Char → Option Json) (tip : Nat)
    (answer : EsploraRequest → EsploraReply) : Prop where
  hash : ∀ provider height, height ≤ tip →
    decoded EsploraQuorum.hashOf (answer (.blockHeight provider height)) =
      some (chainHash sha256 chain height)
  header : ∀ provider height, height ≤ tip →
    decoded EsploraQuorum.headerOf (answer (.header provider (chainHash sha256 chain height))) =
      some (chain height).pack
  status : ∀ provider height, height ≤ tip →
    decoded (EsploraQuorum.statusOf jsonLoads)
      (answer (.status provider (chainHash sha256 chain height))) = some (height, true)
  tip : ∀ provider, decoded EsploraQuorum.heightOf (answer (.tipHeight provider)) = some tip

end Honest

/-! ## The node -/

section Node

variable {sha256 : Bytes → Sha256} {chain : Nat → BlockHeader} {tip : Nat}
  {answer : RpcRequest → RpcReply}

theorem evaluate_canonicalHash (honest : HonestNode sha256 chain tip answer) {height : Nat}
    (known : height ≤ tip) :
    evaluate answer (canonicalHash height) = .ok (chainHash sha256 chain height) := by
  unfold canonicalHash
  rw [evaluate_bind_ok (evaluate_request answer _), evaluate_lift, honest.hash height known]
  exact hashHex_headerHash sha256 (chain height).pack _

/-- The evidence for a block of the chain. -/
def blockOf (sha256 : Bytes → Sha256) (chain : Nat → BlockHeader) (tip height : Nat) :
    BlockEvidence :=
  ⟨height, chainHash sha256 chain height, secondsInstant (chain height).time,
    (tip : Int) - height + 1⟩

theorem integer_ok {n minimum : Int} {safeCode : String} (low : minimum ≤ n) :
    integer (.int n) safeCode minimum none = .ok n := by
  have inside : ¬ (n < minimum ∨ (none : Option Int).any (fun bound => decide (bound < n)) =
      true) := by
    rintro (below | above)
    · omega
    · cases above
  rw [integer, if_neg inside]

theorem checkHeader_honest (best : String) (message : Bytes) {height : Nat} {get : String → Json}
    (known : height ≤ tip) (atHeight : get "height" = .int height)
    (hash : get "hash" = .str (chainHash sha256 chain height))
    (confirmations : get "confirmations" = .int ((tip : Int) - height + 1))
    (header : serializeHeader get height = .ok (chain height)) :
    checkHeader sha256 message height ⟨tip, best⟩ (chainHash sha256 chain height) (.object get) =
      if message ≠ (chain height).merkleRoot then
        .error (.invalid "bitcoin_attestation_merkle_mismatch")
      else .ok (blockOf sha256 chain tip height) := by
  have positive : ¬ ((tip : Int) - height + 1 < 0) := by omega
  simp only [checkHeader, atHeight, hash, confirmations, header]
  rw [integer_ok (Int.natCast_nonneg height), integer_ok (by omega),
    show chainHash sha256 chain height = headerHash sha256 (chain height).pack from rfl,
    hashHex_headerHash]
  simp only [Except.bind, bind, ne_eq, not_true_eq_false, if_false, positive]
  rfl

theorem evaluate_attestation (honest : HonestNode sha256 chain tip answer) (best : String)
    {message : Bytes} {height : Nat} (length : message.length = 32) (known : height ≤ tip) :
    evaluate answer (attestationEvidence sha256 message height ⟨tip, best⟩) =
      if message ≠ (chain height).merkleRoot then
        .error (.invalid "bitcoin_attestation_merkle_mismatch")
      else .ok (blockOf sha256 chain tip height) := by
  obtain ⟨get, reply, atHeight, hash, confirmations, header⟩ := honest.header height known
  have checked := checkHeader_honest best message known atHeight hash
    confirmations header
  unfold attestationEvidence
  rw [if_neg (not_not.2 length), evaluate_bind_ok (evaluate_canonicalHash honest known),
    evaluate_bind_ok (evaluate_request answer _), reply]
  have value : (chainValue (.result (.object get)) >>= checkHeader sha256 message height
      ⟨tip, best⟩ (chainHash sha256 chain height)) =
        checkHeader sha256 message height ⟨tip, best⟩ (chainHash sha256 chain height)
          (.object get) := rfl
  rw [value, checked]
  by_cases differs : message ≠ (chain height).merkleRoot
  · rw [if_pos differs]
    rfl
  · rw [if_neg differs]
    have again : evaluate answer (Prog.lift (Except.ok (blockOf sha256 chain tip height)) :
        RpcProg BlockEvidence) = .ok (blockOf sha256 chain tip height) := rfl
    rw [evaluate_bind_ok again, evaluate_bind_ok (evaluate_canonicalHash honest known),
      if_neg (not_not.2 rfl)]
    rfl

/-- The attestations up to the tip are of blocks of the chain. -/
def Matching (chain : Nat → BlockHeader) (tip : Nat) (attestations : List (Nat × Bytes)) : Prop :=
  ∀ pair ∈ attestations, pair.1 ≤ tip → pair.2 = (chain pair.1).merkleRoot

/-- Whether a height has enough confirmations at the tip. -/
def Confirmed (threshold : Threshold) (tip height : Nat) : Prop :=
  height ≤ tip ∧ (threshold.value : Int) ≤ (tip : Int) - height + 1

instance (threshold : Threshold) (tip height : Nat) : Decidable (Confirmed threshold tip height) :=
  instDecidableAnd

def confirmedBlock (sha256 : Bytes → Sha256) (chain : Nat → BlockHeader) (threshold : Threshold)
    (tip : Nat) (pair : Nat × Bytes) : Option BlockEvidence :=
  if Confirmed threshold tip pair.1 then some (blockOf sha256 chain tip pair.1) else none

/-- The blocks with enough confirmations. -/
def confirmedBlocks (sha256 : Bytes → Sha256) (chain : Nat → BlockHeader) (threshold : Threshold)
    (tip : Nat) (attestations : List (Nat × Bytes)) : List BlockEvidence :=
  attestations.filterMap (confirmedBlock sha256 chain threshold tip)

theorem confirmedBlocks_skip {threshold : Threshold} {head : Nat × Bytes}
    {rest : List (Nat × Bytes)} (few : ¬ Confirmed threshold tip head.1) :
    confirmedBlocks sha256 chain threshold tip (head :: rest) =
      confirmedBlocks sha256 chain threshold tip rest :=
  List.filterMap_cons_none (if_neg few)

theorem confirmedBlocks_take {threshold : Threshold} {head : Nat × Bytes}
    {rest : List (Nat × Bytes)} (enough : Confirmed threshold tip head.1) :
    confirmedBlocks sha256 chain threshold tip (head :: rest) =
      blockOf sha256 chain tip head.1 :: confirmedBlocks sha256 chain threshold tip rest :=
  List.filterMap_cons_some (if_pos enough)

theorem evaluate_collect (roots : ChainRoots chain) (honest : HonestNode sha256 chain tip answer)
    (best : String) (threshold : Threshold) {attestations : List (Nat × Bytes)}
    (matching : Matching chain tip attestations) (evidence : List BlockEvidence)
    (waiting : List Int) : ∃ waiting',
      evaluate answer (collectEvidence sha256 threshold ⟨tip, best⟩ attestations evidence waiting) =
        .ok (evidence ++ confirmedBlocks sha256 chain threshold tip attestations, waiting') := by
  induction attestations generalizing evidence waiting with
  | nil => exact ⟨waiting, by rw [confirmedBlocks, List.filterMap_nil, List.append_nil]; rfl⟩
  | cons head rest ih =>
    obtain ⟨height, message⟩ := head
    have later : Matching chain tip rest := fun pair member =>
      matching pair (List.mem_cons_of_mem _ member)
    unfold collectEvidence
    by_cases above : (height : Int) > (tip : Int)
    · rw [if_pos above]
      have skipped : ¬ Confirmed threshold tip height := by
        rintro ⟨known, _⟩
        omega
      obtain ⟨waiting', run⟩ := ih later evidence (waiting ++ [0])
      refine ⟨waiting', ?_⟩
      rw [run, confirmedBlocks_skip skipped]
    · have known : height ≤ tip := by omega
      have same : message = (chain height).merkleRoot :=
        matching (height, message) List.mem_cons_self known
      have length : message.length = 32 := by
        rw [same]
        exact roots height
      have block := evaluate_attestation honest best length known
      rw [if_neg (not_not.2 same)] at block
      rw [if_neg above, evaluate_bind_ok block]
      by_cases few : (blockOf sha256 chain tip height).confirmations < threshold.value
      · rw [if_pos few]
        have skipped : ¬ Confirmed threshold tip height := by
          rintro ⟨_, enough⟩
          exact absurd few (not_lt.2 enough)
        obtain ⟨waiting', run⟩ := ih later evidence (waiting ++ [_])
        refine ⟨waiting', ?_⟩
        rw [run, confirmedBlocks_skip skipped]
      · rw [if_neg few]
        have taken : Confirmed threshold tip height :=
          ⟨known, not_lt.1 few⟩
        obtain ⟨waiting', run⟩ := ih later (evidence ++ [_]) waiting
        refine ⟨waiting', ?_⟩
        rw [run, confirmedBlocks_take taken, List.append_assoc, List.singleton_append]

/-- An attestation that matches no block ends the verification. -/
theorem collect_mismatch (honest : HonestNode sha256 chain tip answer)
    {best : String} {threshold : Threshold} {attestations : List (Nat × Bytes)}
    {evidence : List BlockEvidence} {waiting : List Int} {out : List BlockEvidence × List Int}
    (run : evaluate answer (collectEvidence sha256 threshold ⟨tip, best⟩ attestations evidence
      waiting) = .ok out) : Matching chain tip attestations := by
  induction attestations generalizing evidence waiting with
  | nil =>
    intro pair member
    exact absurd member List.not_mem_nil
  | cons head rest ih =>
    obtain ⟨height, message⟩ := head
    unfold collectEvidence at run
    by_cases above : (height : Int) > (tip : Int)
    · rw [if_pos above] at run
      intro pair member known
      rcases List.mem_cons.1 member with rfl | later
      · dsimp only at known
        omega
      · exact ih run pair later known
    · have known : height ≤ tip := by omega
      rw [if_neg above, evaluate_bind] at run
      by_cases length : message.length = 32
      · rw [evaluate_attestation honest best length known] at run
        by_cases differs : message ≠ (chain height).merkleRoot
        · rw [if_pos differs] at run
          cases run
        · rw [if_neg differs] at run
          have onward : ∃ evidence' waiting', evaluate answer (collectEvidence sha256 threshold
              ⟨tip, best⟩ rest evidence' waiting') = .ok out := by
            simp only [Except.bind] at run
            split at run
            · exact ⟨_, _, run⟩
            · exact ⟨_, _, run⟩
          obtain ⟨evidence', waiting', run⟩ := onward
          intro pair member known'
          rcases List.mem_cons.1 member with rfl | later
          · exact not_not.1 differs
          · exact ih run pair later known'
      · unfold attestationEvidence at run
        rw [if_pos length] at run
        cases run

/-- The strongest evidence is of the lowest block. -/
theorem strongest_lowest {best : BlockEvidence} {blocks : List BlockEvidence}
    (same : ∀ block ∈ best :: blocks, block.confirmations = (tip : Int) - block.height + 1) :
    ∀ block ∈ best :: blocks, (strongest best blocks).height ≤ block.height := by
  induction blocks generalizing best with
  | nil =>
    intro block member
    rw [List.mem_singleton.1 member]
    exact Nat.le_refl _
  | cons next rest ih =>
    have ofBest := same best List.mem_cons_self
    have ofNext := same next (List.mem_cons_of_mem _ List.mem_cons_self)
    unfold strongest
    by_cases weak : weaker best next
    · rw [if_pos weak]
      have lowest := ih fun block member => same block (List.mem_cons_of_mem _ member)
      have below : next.height ≤ best.height := by
        rcases weak with fewer | ⟨_, higher | ⟨equal, _⟩⟩ <;> omega
      intro block member
      rcases List.mem_cons.1 member with rfl | later
      · exact (lowest next List.mem_cons_self).trans below
      · exact lowest block later
    · rw [if_neg weak]
      have lowest := @ih best fun block member => same block (by
        rcases List.mem_cons.1 member with rfl | later
        · exact List.mem_cons_self
        · exact List.mem_cons_of_mem _ (List.mem_cons_of_mem _ later))
      have below : best.height ≤ next.height := by
        by_contra higher
        exact weak (Or.inl (by omega))
      intro block member
      rcases List.mem_cons.1 member with rfl | later
      · exact lowest block List.mem_cons_self
      · rcases List.mem_cons.1 later with rfl | last
        · exact (lowest best List.mem_cons_self).trans below
        · exact lowest block (List.mem_cons_of_mem _ last)

theorem mem_confirmedBlocks {threshold : Threshold} {attestations : List (Nat × Bytes)}
    {block : BlockEvidence} :
    block ∈ confirmedBlocks sha256 chain threshold tip attestations ↔
      ∃ pair ∈ attestations, Confirmed threshold tip pair.1 ∧
        block = blockOf sha256 chain tip pair.1 := by
  constructor
  · intro member
    obtain ⟨pair, known, selected⟩ := List.mem_filterMap.1 member
    unfold confirmedBlock at selected
    split at selected
    · next enough => exact ⟨pair, known, enough, (Option.some.inj selected).symm⟩
    · cases selected
  · rintro ⟨pair, known, enough, rfl⟩
    exact List.mem_filterMap.2 ⟨pair, known, if_pos enough⟩

/-- The lowest confirmed block stays the lowest while the chain grows. -/
theorem strongest_grows {threshold : Threshold} {attestations : List (Nat × Bytes)} {tip' : Nat}
    (grows : tip ≤ tip') {first : BlockEvidence} {rest : List BlockEvidence}
    (blocks : confirmedBlocks sha256 chain threshold tip attestations = first :: rest) :
    ∃ height first' rest', Confirmed threshold tip height ∧
      strongest first rest = blockOf sha256 chain tip height ∧
      confirmedBlocks sha256 chain threshold tip' attestations = first' :: rest' ∧
      strongest first' rest' = blockOf sha256 chain tip' height := by
  have same : ∀ (t : Nat) (block : BlockEvidence),
      block ∈ confirmedBlocks sha256 chain threshold t attestations →
        block.confirmations = (t : Int) - block.height + 1 := by
    intro t block member
    obtain ⟨pair, _, _, rfl⟩ := mem_confirmedBlocks.1 member
    rfl
  have member := strongest_mem first rest
  rw [← blocks] at member
  obtain ⟨pair, known, enough, lowest⟩ := mem_confirmedBlocks.1 member
  have later : Confirmed threshold tip' pair.1 := by
    obtain ⟨below, confirmed⟩ := enough
    exact ⟨below.trans grows, by omega⟩
  have there : blockOf sha256 chain tip' pair.1 ∈
      confirmedBlocks sha256 chain threshold tip' attestations :=
    mem_confirmedBlocks.2 ⟨pair, known, later, rfl⟩
  cases blocks' : confirmedBlocks sha256 chain threshold tip' attestations with
  | nil =>
    rw [blocks'] at there
    exact absurd there List.not_mem_nil
  | cons first' rest' =>
    have member' := strongest_mem first' rest'
    rw [← blocks'] at member'
    obtain ⟨pair', known', enough', lowest'⟩ := mem_confirmedBlocks.1 member'
    have below : pair'.1 ≤ pair.1 := by
      rw [blocks'] at there
      have least := strongest_lowest (fun block inBlocks => same tip' block (blocks' ▸ inBlocks))
        _ there
      rw [lowest'] at least
      exact least
    have earlier : Confirmed threshold tip pair'.1 := by
      obtain ⟨known, confirmed⟩ := enough
      exact ⟨below.trans known, by omega⟩
    have above : pair.1 ≤ pair'.1 := by
      have here : blockOf sha256 chain tip pair'.1 ∈ first :: rest := by
        rw [← blocks]
        exact mem_confirmedBlocks.2 ⟨pair', known', earlier, rfl⟩
      have least := strongest_lowest (fun block inBlocks => same tip block (blocks ▸ inBlocks))
        _ here
      rw [lowest] at least
      exact least
    refine ⟨pair.1, first', rest', enough, lowest, rfl, ?_⟩
    rw [lowest', Nat.le_antisymm below above]

variable {deserialize : Bytes → Option DetachedTimestampFile} {threshold : Threshold}
  {digest : ManifestDigest} {proofBytes : Bytes} {detached : DetachedTimestampFile}
  {verifiedAt : Instant}

theorem evaluate_chainSnapshot (honest : HonestNode sha256 chain tip answer) :
    ∃ best, evaluate answer chainSnapshot = .ok ⟨tip, best⟩ := by
  obtain ⟨value, best, reply, snapshot⟩ := honest.info
  refine ⟨best, ?_⟩
  unfold chainSnapshot
  rw [evaluate_bind_ok (evaluate_request answer _), evaluate_lift, reply]
  exact snapshot

/-- The checks of a proof before the first request. -/
def Acceptable (sha256 : Bytes → Sha256) (deserialize : Bytes → Option DetachedTimestampFile)
    (digest : ManifestDigest) (proofBytes : Bytes) (detached : DetachedTimestampFile) : Prop :=
  deserializeExactProof sha256 deserialize digest proofBytes = .ok detached ∧
    sortedAttestations detached ≠ [] ∧
      ¬ maxBitcoinAttestations < (sortedAttestations detached).length

variable (threshold verifiedAt) in
theorem node_run (roots : ChainRoots chain) (honest : HonestNode sha256 chain tip answer)
    (acceptable : Acceptable sha256 deserialize digest proofBytes detached)
    (matching : Matching chain tip (sortedAttestations detached)) : ∃ waiting,
      evaluate answer (BitcoinCore.verifyExactDigest sha256 deserialize threshold
        (some verifiedAt) digest proofBytes) =
        conclude threshold (some verifiedAt)
          (confirmedBlocks sha256 chain threshold tip (sortedAttestations detached)) waiting := by
  obtain ⟨accepted, nonempty, few⟩ := acceptable
  obtain ⟨best, snapshot⟩ := evaluate_chainSnapshot honest
  obtain ⟨waiting, collected⟩ := evaluate_collect roots honest best threshold matching [] []
  refine ⟨waiting, ?_⟩
  unfold BitcoinCore.verifyExactDigest
  rw [accepted]
  dsimp only
  rw [if_neg nonempty, if_neg few, evaluate_bind_ok snapshot, evaluate_bind_ok collected,
    evaluate_bind_ok snapshot, if_neg (not_not.2 rfl), evaluate_lift, List.nil_append]

theorem node_matching (honest : HonestNode sha256 chain tip answer)
    (acceptable : Acceptable sha256 deserialize digest proofBytes detached)
    {v : BitcoinVerification} (run : evaluate answer (BitcoinCore.verifyExactDigest sha256
      deserialize threshold (some verifiedAt) digest proofBytes) = .ok v) :
    Matching chain tip (sortedAttestations detached) := by
  obtain ⟨accepted, nonempty, few⟩ := acceptable
  obtain ⟨best, snapshot⟩ := evaluate_chainSnapshot honest
  unfold BitcoinCore.verifyExactDigest at run
  rw [accepted] at run
  dsimp only at run
  rw [if_neg nonempty, if_neg few, evaluate_bind_ok snapshot, evaluate_bind] at run
  cases collected : evaluate answer (collectEvidence sha256 threshold ⟨tip, best⟩
      (sortedAttestations detached) [] []) with
  | ok out => exact collect_mismatch honest collected
  | error e =>
    rw [collected] at run
    cases run

/-- A verified result comes from an acceptable proof. -/
theorem node_acceptable {v : BitcoinVerification} (run : evaluate answer
      (BitcoinCore.verifyExactDigest sha256 deserialize threshold (some verifiedAt) digest
        proofBytes) = .ok v) (verified : v.verified = true) :
    ∃ detached, Acceptable sha256 deserialize digest proofBytes detached := by
  unfold BitcoinCore.verifyExactDigest at run
  cases accepted : deserializeExactProof sha256 deserialize digest proofBytes with
  | error e =>
    rw [accepted] at run
    cases run
  | ok detached =>
    rw [accepted] at run
    dsimp only at run
    by_cases empty : sortedAttestations detached = []
    · rw [if_pos empty, evaluate_lift] at run
      rw [checked_ok run] at verified
      cases verified
    · by_cases many : maxBitcoinAttestations < (sortedAttestations detached).length
      · rw [if_neg empty, if_pos many] at run
        cases run
      · exact ⟨detached, accepted, empty, many⟩

end Node

/-! ## The same evidence later -/

/-- A later result for the same block, with at least as many confirmations. -/
structure SameEvidence (v v' : BitcoinVerification) : Prop where
  verified : v'.verified = true
  blockHeight : v'.blockHeight = v.blockHeight
  blockHash : v'.blockHash = v.blockHash
  blockTime : v'.blockTime = v.blockTime
  confirmations : ∃ n n', v.confirmations = some n ∧ v'.confirmations = some n' ∧ n ≤ n'

/-- The attestations that the chain reaches on its way to the later tip match its blocks. -/
def MatchingBetween (chain : Nat → BlockHeader) (tip tip' : Nat)
    (detached : DetachedTimestampFile) : Prop :=
  ∀ height message, (message, Attestation.bitcoin height) ∈ detached.timestamp.allAttestations →
    tip < height → height ≤ tip' → message = (chain height).merkleRoot

section Growth

variable {sha256 : Bytes → Sha256} {chain : Nat → BlockHeader} {tip tip' : Nat}
  {deserialize : Bytes → Option DetachedTimestampFile} {threshold : Threshold}
  {digest : ManifestDigest} {proofBytes : Bytes} {verifiedAt verifiedAt' : Instant}
  {v : BitcoinVerification}

theorem core_checked {block : BlockEvidence} (positive : 1 ≤ block.confirmations) :
    (coreVerification threshold verifiedAt block).checked =
      .ok (coreVerification threshold verifiedAt block) := by
  have few : ¬ block.confirmations < 1 := not_lt.2 positive
  simp [BitcoinVerification.checked, coreVerification, few]

theorem acceptable_read {detached : DetachedTimestampFile}
    (acceptable : Acceptable sha256 deserialize digest proofBytes detached) :
    deserialize proofBytes = some detached := (deserializeExactProof_commits acceptable.1).1

theorem matching_later {detached : DetachedTimestampFile}
    (matching : Matching chain tip (sortedAttestations detached))
    (between : MatchingBetween chain tip tip' detached) :
    Matching chain tip' (sortedAttestations detached) := by
  intro pair member known
  by_cases before : pair.1 ≤ tip
  · exact matching pair member before
  · have attested := mem_bitcoinAttestations.1 (mem_sortedAttestations.1 member)
    exact between pair.1 pair.2 attested (by omega) known

theorem between_of_matching {detached : DetachedTimestampFile}
    (matching : Matching chain tip' (sortedAttestations detached)) :
    MatchingBetween chain tip tip' detached := by
  intro height message attested _ known
  exact matching (height, message)
    (mem_sortedAttestations.2 (mem_bitcoinAttestations.2 attested)) known

theorem node_grows (roots : ChainRoots chain) (grows : tip ≤ tip')
    {answer answer' : RpcRequest → RpcReply} (honest : HonestNode sha256 chain tip answer)
    (honest' : HonestNode sha256 chain tip' answer')
    (run : evaluate answer (BitcoinCore.verifyExactDigest sha256 deserialize threshold
      (some verifiedAt) digest proofBytes) = .ok v) (verified : v.verified = true) :
    ∃ detached, deserialize proofBytes = some detached ∧
      ((∃ v', evaluate answer' (BitcoinCore.verifyExactDigest sha256 deserialize threshold
          (some verifiedAt') digest proofBytes) = .ok v' ∧ SameEvidence v v') ↔
        MatchingBetween chain tip tip' detached) := by
  obtain ⟨detached, acceptable⟩ := node_acceptable run verified
  refine ⟨detached, acceptable_read acceptable, ?_, ?_⟩
  · rintro ⟨v', run', _⟩
    exact between_of_matching (node_matching honest' acceptable run')
  · intro between
    have matching := node_matching honest acceptable run
    have matching' := matching_later matching between
    obtain ⟨waiting, concluded⟩ := node_run threshold verifiedAt roots honest acceptable matching
    obtain ⟨waiting', concluded'⟩ :=
      node_run threshold verifiedAt' roots honest' acceptable matching'
    rw [run] at concluded
    cases blocks : confirmedBlocks sha256 chain threshold tip (sortedAttestations detached) with
    | nil =>
      rw [blocks] at concluded
      rw [checked_ok concluded.symm] at verified
      cases verified
    | cons first rest =>
      obtain ⟨height, first', rest', ⟨known, enough⟩, lowest, blocks', lowest'⟩ :=
        strongest_grows grows blocks
      rw [blocks] at concluded
      rw [blocks'] at concluded'
      simp only [conclude, lowest] at concluded
      simp only [conclude, lowest'] at concluded'
      have positive := threshold.positive
      have later : 1 ≤ (blockOf sha256 chain tip' height).confirmations := by
        simp only [blockOf]
        omega
      obtain rfl := checked_ok concluded.symm
      refine ⟨_, concluded'.trans (core_checked later), rfl, rfl, rfl, rfl, _, _, rfl, rfl, ?_⟩
      simp only [blockOf]
      omega


/-! ## The two providers -/

variable {jsonLoads : List Char → Option Json} {answer answer' : EsploraRequest → EsploraReply}

/-- What both providers show of a height. -/
def quorumAt (sha256 : Bytes → Sha256) (chain : Nat → BlockHeader) (tip height : Nat) :
    QuorumSnapshot :=
  ⟨chainHash sha256 chain height, (chain height).pack, height, true, tip, (tip, tip)⟩

theorem evaluate_fetch {α : Type} (request : EsploraRequest) (decode : Bytes → Option α) :
    evaluate answer (EsploraQuorum.fetch request decode) =
      .ok (decoded decode (answer request)) := rfl

theorem evaluate_bothHashes (honest : HonestProviders sha256 chain jsonLoads tip answer)
    {height : Nat} (known : height ≤ tip) :
    evaluate answer (EsploraQuorum.bothHashes height) =
      .ok (chainHash sha256 chain height, chainHash sha256 chain height) := by
  unfold EsploraQuorum.bothHashes
  rw [evaluate_bind_ok (evaluate_fetch _ _), evaluate_bind_ok (evaluate_fetch _ _),
    honest.hash .left height known, honest.hash .right height known]
  rfl

theorem evaluate_provider (honest : HonestProviders sha256 chain jsonLoads tip answer)
    (provider : Provider) {height : Nat} (known : height ≤ tip) :
    evaluate answer (EsploraQuorum.providerSnapshot jsonLoads provider
      (chainHash sha256 chain height)) = .ok (some ⟨(chain height).pack, height, true, tip⟩) := by
  unfold EsploraQuorum.providerSnapshot
  rw [evaluate_bind_ok (evaluate_fetch _ _), evaluate_bind_ok (evaluate_fetch _ _),
    evaluate_bind_ok (evaluate_fetch _ _), honest.header provider height known,
    honest.status provider height known, honest.tip provider]
  rfl

theorem evaluate_anchor (honest : HonestProviders sha256 chain jsonLoads tip answer)
    (height : Nat) :
    evaluate answer (EsploraQuorum.anchorHashes height
      (chainHash sha256 chain height, chainHash sha256 chain height)) =
        .ok (chainHash sha256 chain 0, chainHash sha256 chain 0) := by
  unfold EsploraQuorum.anchorHashes
  by_cases zero : height = 0
  · rw [if_pos zero, zero]
    rfl
  · rw [if_neg zero]
    exact evaluate_bothHashes honest (Nat.zero_le tip)

theorem evaluate_quorum (honest : HonestProviders sha256 chain jsonLoads tip answer)
    (mainnet : chainHash sha256 chain 0 = EsploraQuorum.mainnetGenesisHash) {height : Nat}
    (known : height ≤ tip) :
    evaluate answer (EsploraQuorum.quorumSnapshot jsonLoads height) =
      .ok (quorumAt sha256 chain tip height) := by
  unfold EsploraQuorum.quorumSnapshot
  rw [evaluate_bind_ok (evaluate_bothHashes honest known), if_neg (not_not.2 rfl),
    evaluate_bind_ok (evaluate_anchor honest height), if_neg (not_not.2 rfl),
    if_neg (not_not.2 mainnet), evaluate_bind_ok (evaluate_provider honest .left known),
    evaluate_bind_ok (evaluate_provider honest .right known), evaluate_lift]
  simp [EsploraQuorum.agreed, EsploraQuorum.tipSkew, EsploraQuorum.maxProviderTipSkew, quorumAt]

/-- A snapshot of honest providers has their tip, and their first block is that of mainnet. -/
theorem quorum_honest (honest : HonestProviders sha256 chain jsonLoads tip answer) {height : Nat}
    {s : QuorumSnapshot} {transcript : Transcript EsploraRequest EsploraReply}
    (quorum : EsploraQuorum.QuorumOf jsonLoads height s transcript)
    (answered : ∀ entry ∈ transcript, entry.2 = answer entry.1) :
    s.tipHeight = tip ∧ chainHash sha256 chain 0 = EsploraQuorum.mainnetGenesisHash := by
  have asked : ∀ request ∈ EsploraQuorum.quorumRequests height s.blockHash,
      EsploraQuorum.Says jsonLoads height s (request, answer request) := by
    intro request member
    rw [← quorum.requests] at member
    obtain ⟨entry, known, rfl⟩ := List.mem_map.1 member
    rw [← answered entry known]
    exact quorum.replies entry known
  have left := asked (.tipHeight .left) (by simp [EsploraQuorum.quorumRequests])
  have right := asked (.tipHeight .right) (by simp [EsploraQuorum.quorumRequests])
  have leftTip : tip = s.providerTipHeights.1 :=
    Option.some.inj ((honest.tip .left).symm.trans left)
  have rightTip : tip = s.providerTipHeights.2 :=
    Option.some.inj ((honest.tip .right).symm.trans right)
  have first := asked (.blockHeight .left 0) (by
    by_cases zero : height = 0
    · simp [EsploraQuorum.quorumRequests, zero]
    · simp [EsploraQuorum.quorumRequests, zero])
  have hash := honest.hash .left 0 (Nat.zero_le tip)
  refine ⟨?_, ?_⟩
  · rw [quorum.tip, ← leftTip, ← rightTip, Nat.min_self]
  · rcases first with ⟨zero, told⟩ | ⟨_, told⟩
    · rw [← quorum.genesis zero.symm]
      exact Option.some.inj (hash.symm.trans told)
    · exact Option.some.inj (hash.symm.trans told)

/-- The checks of a height up to the tip do not depend on the tip. -/
theorem heightHeader_grows {height : Nat} (known : height ≤ tip) (grows : tip ≤ tip') :
    EsploraQuorum.heightHeader sha256 height (quorumAt sha256 chain tip' height) =
      EsploraQuorum.heightHeader sha256 height (quorumAt sha256 chain tip height) := by
  have canonical : ∀ t, height ≤ t → ¬ (height ≠ height ∨ true = false ∨ t < height) := by
    rintro t below (differs | absurd | above)
    · exact differs rfl
    · cases absurd
    · omega
  exact (if_neg (canonical tip' (known.trans grows))).trans (if_neg (canonical tip known)).symm

theorem heightHeader_known {height : Nat} {s : QuorumSnapshot}
    {header : EsploraQuorum.VerifiedHeader}
    (checked : EsploraQuorum.heightHeader sha256 height s = .ok header) :
    height ≤ s.tipHeight := by
  unfold EsploraQuorum.heightHeader at checked
  split at checked
  · cases checked
  · next canonical =>
    rw [not_or, not_or] at canonical
    exact not_lt.1 canonical.2.2

theorem evaluate_stable (honest : HonestProviders sha256 chain jsonLoads tip answer)
    (mainnet : chainHash sha256 chain 0 = EsploraQuorum.mainnetGenesisHash) {height : Nat}
    (known : height ≤ tip) :
    evaluate answer (EsploraQuorum.requireStableSnapshot jsonLoads height
      (quorumAt sha256 chain tip height)) = .ok () := by
  have again : evaluate answer (EsploraQuorum.quorumSnapshot jsonLoads height).attempt =
      .ok (.ok (quorumAt sha256 chain tip height)) := by
    rw [evaluate_attempt, evaluate_quorum honest mainnet known]
  unfold EsploraQuorum.requireStableSnapshot
  rw [evaluate_bind_ok again]
  dsimp only
  rw [if_neg (not_not.2 rfl)]
  rfl

theorem esplora_checked {height : Nat} {header : EsploraQuorum.VerifiedHeader} {n : Int}
    (positive : 1 ≤ n) :
    (EsploraQuorum.esploraVerification threshold verifiedAt height header n).checked =
      .ok (EsploraQuorum.esploraVerification threshold verifiedAt height header n) := by
  have few : ¬ n < 1 := not_lt.2 positive
  simp [BitcoinVerification.checked, EsploraQuorum.esploraVerification, few]

/-- A height that a run verifies has enough confirmations at the tip. -/
theorem scan_enough (honest : HonestProviders sha256 chain jsonLoads tip answer)
    {candidates : List (Nat × Bytes)} {heights : List Nat}
    {pending : List EsploraQuorum.PendingSnapshot} (sorted : heights.Pairwise (· < ·))
    (run : evaluate answer (EsploraQuorum.scanHeights jsonLoads sha256 threshold (some verifiedAt)
      candidates heights pending) = .ok v) (verified : v.verified = true) :
    ∃ height ∈ heights, (threshold.value : Int) ≤ (tip : Int) - height + 1 := by
  obtain ⟨transcript, kept, answered⟩ := ensures_evaluate
    (EsploraQuorum.scanHeights_ensures threshold (some verifiedAt) candidates heights pending
      sorted) run
  obtain ⟨height, member, header, s, _, _, stable⟩ := kept verified
  obtain ⟨before, first, second, rfl, once, _, _⟩ := stable.runs
  have same : s.tipHeight = tip := (quorum_honest honest once fun entry known =>
    answered entry (List.mem_append_left _ (List.mem_append_right _ known))).1
  refine ⟨height, member, ?_⟩
  rw [← same]
  exact stable.enough

/-- A scan that verifies a height verifies the same height at a later tip. -/
theorem scan_grows (grows : tip ≤ tip') (honest : HonestProviders sha256 chain jsonLoads tip answer)
    (honest' : HonestProviders sha256 chain jsonLoads tip' answer')
    {candidates : List (Nat × Bytes)} {heights : List Nat}
    {pending : List EsploraQuorum.PendingSnapshot} (sorted : heights.Pairwise (· < ·))
    (run : evaluate answer (EsploraQuorum.scanHeights jsonLoads sha256 threshold (some verifiedAt)
      candidates heights pending) = .ok v) (verified : v.verified = true) :
    ∃ v', evaluate answer' (EsploraQuorum.scanHeights jsonLoads sha256 threshold
      (some verifiedAt') candidates heights pending) = .ok v' ∧ SameEvidence v v' := by
  induction heights generalizing pending with
  | nil =>
    obtain ⟨_, unverified, _⟩ :=
      ensures_evaluate (EsploraQuorum.concludePending_ensures pending) run
    rw [unverified] at verified
    cases verified
  | cons height rest ih =>
    obtain ⟨below, sorted⟩ := List.pairwise_cons.1 sorted
    unfold EsploraQuorum.scanHeights at run ⊢
    cases shown : evaluate answer (EsploraQuorum.quorumSnapshot jsonLoads height) with
    | error e =>
      rw [evaluate_bind, shown] at run
      cases run
    | ok s =>
      obtain ⟨transcript, quorum, answered⟩ :=
        ensures_evaluate (EsploraQuorum.quorumSnapshot_ensures height) shown
      obtain ⟨sameTip, mainnet⟩ := quorum_honest honest quorum answered
      rw [evaluate_bind_ok shown] at run
      cases checked : EsploraQuorum.heightHeader sha256 height s with
      | error e =>
        rw [checked] at run
        cases run
      | ok header =>
        have known : height ≤ tip := sameTip ▸ heightHeader_known checked
        have known' := known.trans grows
        have atTip := evaluate_quorum honest mainnet known
        rw [shown] at atTip
        obtain rfl := Except.ok.inj atTip
        have checked' := (heightHeader_grows known grows).trans checked
        rw [checked, evaluate_bind_ok (evaluate_lift answer _)] at run
        rw [evaluate_bind_ok (evaluate_quorum honest' mainnet known'), checked',
          evaluate_bind_ok (evaluate_lift answer' _)]
        dsimp only at run ⊢
        by_cases candidate : (height, header.merkleRoot) ∉ candidates
        · rw [if_pos candidate] at run ⊢
          exact ih sorted run
        · rw [if_neg candidate] at run ⊢
          by_cases few : ((quorumAt sha256 chain tip height).tipHeight : Int) - height + 1 <
              threshold.value
          · rw [if_pos few] at run
            -- a later height has fewer confirmations still
            obtain ⟨later, member, enough⟩ := scan_enough honest sorted run verified
            have above := below later member
            simp only [quorumAt] at few
            omega
          · have enough : ¬ ((quorumAt sha256 chain tip' height).tipHeight : Int) - height + 1 <
                threshold.value := by
              simp only [quorumAt] at few ⊢
              omega
            have positive := threshold.positive
            rw [if_neg few, evaluate_bind_ok (evaluate_stable honest mainnet known)] at run
            rw [if_neg enough, evaluate_bind_ok (evaluate_stable honest' mainnet known')]
            rw [evaluate_lift] at run ⊢
            obtain rfl := checked_ok run
            refine ⟨_, esplora_checked ?_, rfl, rfl, rfl, rfl, _, _, rfl, rfl, ?_⟩
            · omega
            · simp only [quorumAt]
              omega

theorem providers_grow (grows : tip ≤ tip')
    (honest : HonestProviders sha256 chain jsonLoads tip answer)
    (honest' : HonestProviders sha256 chain jsonLoads tip' answer')
    (run : evaluate answer (EsploraQuorum.verifyExactDigest jsonLoads sha256 deserialize threshold
      (some verifiedAt) digest proofBytes) = .ok v) (verified : v.verified = true) :
    ∃ v', evaluate answer' (EsploraQuorum.verifyExactDigest jsonLoads sha256 deserialize threshold
      (some verifiedAt') digest proofBytes) = .ok v' ∧ SameEvidence v v' := by
  unfold EsploraQuorum.verifyExactDigest at run ⊢
  cases accepted : deserializeExactProof sha256 deserialize digest proofBytes with
  | error e =>
    rw [accepted] at run
    cases run
  | ok detached =>
    rw [accepted] at run
    dsimp only at run ⊢
    by_cases empty : sortedAttestations detached = []
    · rw [if_pos empty, evaluate_lift] at run
      rw [checked_ok run] at verified
      cases verified
    · rw [if_neg empty] at run ⊢
      by_cases malformed : EsploraQuorum.candidatesValid (sortedAttestations detached) = false
      · rw [if_pos malformed] at run
        cases run
      · rw [if_neg malformed] at run ⊢
        exact scan_grows grows honest honest' (EsploraQuorum.sortedHeights_sorted _) run verified

end Growth

/-! ## Both verifiers on a growing chain -/

section Verifiers

variable (sha256 : Bytes → Sha256) (deserialize : Bytes → Option DetachedTimestampFile)
  (threshold : Threshold) (digest : ManifestDigest) (proofBytes : Bytes)
  (chain : Nat → BlockHeader) (tip tip' : Nat)

/-- A verified run against a node is followed by one at the later tip. -/
def CoreGrows : Prop :=
  ∀ (answer answer' : RpcRequest → RpcReply) (verifiedAt verifiedAt' : Instant)
    (v : BitcoinVerification), HonestNode sha256 chain tip answer →
      HonestNode sha256 chain tip' answer' →
      evaluate answer (BitcoinCore.verifyExactDigest sha256 deserialize threshold
        (some verifiedAt) digest proofBytes) = .ok v → v.verified = true →
    ∃ v', evaluate answer' (BitcoinCore.verifyExactDigest sha256 deserialize threshold
      (some verifiedAt') digest proofBytes) = .ok v' ∧ SameEvidence v v'

/-- It is followed by one exactly if the attestations in between match their blocks. -/
def CoreGrowsExactly : Prop :=
  ∀ (answer answer' : RpcRequest → RpcReply) (verifiedAt verifiedAt' : Instant)
    (v : BitcoinVerification), HonestNode sha256 chain tip answer →
      HonestNode sha256 chain tip' answer' →
      evaluate answer (BitcoinCore.verifyExactDigest sha256 deserialize threshold
        (some verifiedAt) digest proofBytes) = .ok v → v.verified = true →
    ∃ detached, deserialize proofBytes = some detached ∧
      ((∃ v', evaluate answer' (BitcoinCore.verifyExactDigest sha256 deserialize threshold
        (some verifiedAt') digest proofBytes) = .ok v' ∧ SameEvidence v v') ↔
          MatchingBetween chain tip tip' detached)

def EsploraGrows (jsonLoads : List Char → Option Json) : Prop :=
  ∀ (answer answer' : EsploraRequest → EsploraReply) (verifiedAt verifiedAt' : Instant)
    (v : BitcoinVerification), HonestProviders sha256 chain jsonLoads tip answer →
      HonestProviders sha256 chain jsonLoads tip' answer' →
      evaluate answer (EsploraQuorum.verifyExactDigest jsonLoads sha256 deserialize threshold
        (some verifiedAt) digest proofBytes) = .ok v → v.verified = true →
    ∃ v', evaluate answer' (EsploraQuorum.verifyExactDigest jsonLoads sha256 deserialize threshold
      (some verifiedAt') digest proofBytes) = .ok v' ∧ SameEvidence v v'

/-- The providers stay verified while the chain grows. The node does exactly as long as no
attestation that the chain reaches differs from its block. -/
theorem verified_while_chain_grows (jsonLoads : List Char → Option Json)
    (roots : ChainRoots chain) (grows : tip ≤ tip') :
    CoreGrowsExactly sha256 deserialize threshold digest proofBytes chain tip tip' ∧
      EsploraGrows sha256 deserialize threshold digest proofBytes chain tip tip' jsonLoads := by
  constructor
  · intro answer answer' verifiedAt verifiedAt' v honest honest' run verified
    exact node_grows roots grows honest honest' run verified
  · intro answer answer' verifiedAt verifiedAt' v honest honest' run verified
    exact providers_grow grows honest honest' run verified

end Verifiers

/-! ## The first two blocks

The proof attests the order's digest, the merkle root of the first block, at the heights 0
and 1. Only the first attestation matches. -/

open VerifiedOrders (sampleDigest proofHeader bitcoinAttestation sampleTime)
open VerifierSoundness (firstHash nodeSha256 oneConfirmation)
open FulfillmentAdapters (asciiBytes)

def nextHash : String := "00000000839a8e6886ab5951d76f411475428afc90947ee320161bbf18eb6048"

def firstHeader : BlockHeader :=
  ⟨1, List.replicate 32 0, sampleDigest.value, 1231006505, 486604799, 2083236893⟩

def nextHeader : BlockHeader :=
  ⟨1, [111, 226, 140, 10, 182, 241, 179, 114, 193, 166, 162, 70, 174, 99, 247, 79, 147, 30, 131,
    101, 225, 90, 8, 156, 104, 214, 25, 0, 0, 0, 0, 0],
    [152, 32, 81, 253, 30, 75, 167, 68, 187, 190, 104, 14, 31, 238, 20, 103, 123, 161, 163, 195,
      84, 11, 247, 177, 205, 182, 6, 232, 87, 35, 62, 14], 1231469665, 486604799, 2573394689⟩

def firstDigest : Bytes :=
  [175, 66, 3, 30, 128, 95, 244, 147, 160, 115, 65, 226, 247, 79, 245, 129, 73, 210, 42, 185, 186,
    25, 246, 19, 67, 226, 200, 108, 113, 197, 214, 109]

def nextDigest : Bytes :=
  [167, 109, 215, 55, 144, 222, 247, 181, 119, 118, 242, 47, 162, 17, 209, 156, 244, 49, 33, 167,
    9, 163, 126, 174, 218, 23, 35, 14, 170, 194, 88, 245]

/-- SHA-256; the two headers and their digests are looked up. -/
def chainSha256 (bytes : Bytes) : Sha256 :=
  if bytes = firstHeader.pack then ⟨firstDigest, rfl⟩
  else if bytes = nextHeader.pack then ⟨nextDigest, rfl⟩
  else if bytes = firstDigest then
    ⟨[111, 226, 140, 10, 182, 241, 179, 114, 193, 166, 162, 70, 174, 99, 247, 79, 147, 30, 131,
      101, 225, 90, 8, 156, 104, 214, 25, 0, 0, 0, 0, 0], rfl⟩
  else if bytes = nextDigest then
    ⟨[72, 96, 235, 24, 191, 27, 22, 32, 227, 126, 148, 144, 252, 138, 66, 117, 20, 65, 111, 215,
      81, 89, 171, 134, 104, 142, 154, 131, 0, 0, 0, 0], rfl⟩
  else nodeSha256 bytes

def firstBlocks (height : Nat) : BlockHeader := if height = 0 then firstHeader else nextHeader

def twiceBytes : Bytes :=
  proofHeader ++ sampleDigest.value ++ 255 :: bitcoinAttestation 0 ++ bitcoinAttestation 1

def twiceProof : DetachedTimestampFile :=
  ⟨.sha256, .node sampleDigest.value [.bitcoin 0, .bitcoin 1] .nil⟩

def twiceDeserialize (bytes : Bytes) : Option DetachedTimestampFile :=
  if bytes = twiceBytes then some twiceProof else none

def blockHashAt (height : Nat) : String := if height = 0 then firstHash else nextHash

def headerFields (tip : Int) (hash : String) (key : String) : Json :=
  if key = "hash" then .str hash
  else if key = "version" then .int 1
  else if key = "bits" then .str "1d00ffff"
  else if hash = firstHash then
    if key = "height" then .int 0
    else if key = "confirmations" then .int (tip + 1)
    else if key = "merkleroot" then
      .str "4a5e1e4baab89f3a32518a88c31bc87f618f76673e2cc77ab2127b7afdeda33b"
    else if key = "time" then .int 1231006505
    else if key = "nonce" then .int 2083236893
    else .null
  else if key = "height" then .int 1
  else if key = "confirmations" then .int tip
  else if key = "previousblockhash" then .str firstHash
  else if key = "merkleroot" then
    .str "0e3e2357e806b6cdb1f70b54c3a3a17b6714ee1f0e68bebb44a74b1efd512098"
  else if key = "time" then .int 1231469665
  else if key = "nonce" then .int 2573394689
  else .null

def infoFields (tip : Nat) (key : String) : Json :=
  if key = "chain" then .str "main"
  else if key = "blocks" ∨ key = "headers" then .int tip
  else if key = "bestblockhash" then .str (blockHashAt tip)
  else if key = "verificationprogress" then .int 1
  else if key = "initialblockdownload" then .bool false
  else .null

/-- A node that knows the first block or both. -/
def nodeAt (tip : Nat) : RpcRequest → RpcReply
  | .getblockchaininfo => .result (.object (infoFields tip))
  | .getblockhash height =>
    if height ≤ tip then .result (.str (blockHashAt height)) else .rejected (-8)
  | .getblockheader hash => .result (.object (headerFields tip hash))

theorem firstBlocks_roots : ChainRoots firstBlocks := by
  intro height
  unfold firstBlocks
  split
  · rfl
  · rfl

theorem firstBlocks_hash {height : Nat} (known : height ≤ 1) :
    chainHash chainSha256 firstBlocks height = blockHashAt height := by
  have both : ∀ height < 2, chainHash chainSha256 firstBlocks height = blockHashAt height := by
    decide +kernel
  exact both height (Nat.lt_succ_of_le known)

theorem toOption_ok {ε α : Type} {x : Except ε α} {a : α} (h : x.toOption = some a) :
    x = .ok a := by
  cases x with
  | error e => cases h
  | ok b => exact congrArg Except.ok (Option.some.inj h)

/-- What the two nodes say of the chain and of the two blocks. -/
theorem nodeAt_replies : ∀ tip < 2,
    (snapshotOf (.object (infoFields tip))).toOption = some ⟨tip, blockHashAt tip⟩ ∧
      ∀ height < 2, (serializeHeader (headerFields tip (blockHashAt height)) height).toOption =
        some (firstBlocks height) := by
  decide +kernel

theorem nodeAt_honest {tip : Nat} (small : tip ≤ 1) :
    HonestNode chainSha256 firstBlocks tip (nodeAt tip) := by
  obtain ⟨info, fields⟩ := nodeAt_replies tip (Nat.lt_succ_of_le small)
  refine ⟨⟨_, _, rfl, toOption_ok info⟩, ?_, ?_⟩
  · intro height known
    rw [firstBlocks_hash (known.trans small), nodeAt, if_pos known]
  · intro height known
    rw [firstBlocks_hash (known.trans small)]
    refine ⟨headerFields tip (blockHashAt height), rfl, ?_, rfl, ?_,
      toOption_ok (fields height (Nat.lt_succ_of_le (known.trans small)))⟩
    · rcases Nat.le_one_iff_eq_zero_or_eq_one.1 (known.trans small) with rfl | rfl
      · rfl
      · rfl
    · rcases Nat.le_one_iff_eq_zero_or_eq_one.1 (known.trans small) with rfl | rfl
      · have first : headerFields tip (blockHashAt 0) "confirmations" = .int (tip + 1) := rfl
        exact first.trans (congrArg Json.int (by omega))
      · have second : headerFields tip (blockHashAt 1) "confirmations" = .int tip := rfl
        exact second.trans (congrArg Json.int (by omega))

theorem node_verifies_first :
    ((evaluate (nodeAt 0) (BitcoinCore.verifyExactDigest chainSha256 twiceDeserialize
      oneConfirmation (some (sampleTime 0)) sampleDigest twiceBytes)).toOption.map
        BitcoinVerification.verified) = some true := by
  decide

/-- At the first tip the node verifies the proof, at the second it refuses it. -/
theorem reached_mismatch_is_refused :
    ChainRoots firstBlocks ∧ ¬ CoreGrows chainSha256 twiceDeserialize oneConfirmation sampleDigest
      twiceBytes firstBlocks 0 1 := by
  refine ⟨firstBlocks_roots, ?_⟩
  intro grows
  have after : (evaluate (nodeAt 1) (BitcoinCore.verifyExactDigest chainSha256 twiceDeserialize
      oneConfirmation (some (sampleTime 1)) sampleDigest twiceBytes)).toOption = none := by
    decide
  obtain ⟨v, run, verified⟩ := Option.map_eq_some_iff.1 node_verifies_first
  obtain ⟨v', run', _⟩ := grows (nodeAt 0) (nodeAt 1) (sampleTime 0) (sampleTime 1) v
    (nodeAt_honest (by decide)) (nodeAt_honest (by decide)) (toOption_ok run) verified
  rw [run'] at after
  cases after

/-! The two providers pass the second attestation over. -/

def statusText (height : Nat) : String :=
  if height = 0 then "\x7b\"in_best_chain\":true,\"height\":0\x7d"
  else "\x7b\"in_best_chain\":true,\"height\":1\x7d"

def statusFields (height : Nat) (key : String) : Json :=
  if key = "in_best_chain" then .bool true
  else if key = "height" then .int height
  else .null

/-- Decoding the two status texts. -/
def sampleJson (text : List Char) : Option Json :=
  if text = (statusText 0).toList then some (.object (statusFields 0))
  else if text = (statusText 1).toList then some (.object (statusFields 1))
  else none

def tipText (tip : Nat) : String := if tip = 0 then "0" else "1"

def providersAt (tip : Nat) : EsploraRequest → EsploraReply
  | .blockHeight _ height => if height ≤ tip then some (asciiBytes (blockHashAt height)) else none
  | .header _ hash =>
    some (asciiBytes (String.ofList (HexText.toHex
      (if hash = firstHash then firstHeader else nextHeader).pack)))
  | .status _ hash => some (asciiBytes (statusText (if hash = firstHash then 0 else 1)))
  | .tipHeight _ => some (asciiBytes (tipText tip))

theorem providersAt_honest {tip : Nat} (small : tip ≤ 1) :
    HonestProviders chainSha256 firstBlocks sampleJson tip (providersAt tip) := by
  refine ⟨?_, ?_, ?_, ?_⟩
  · intro provider height known
    rw [firstBlocks_hash (known.trans small), providersAt, if_pos known]
    rcases Nat.le_one_iff_eq_zero_or_eq_one.1 (known.trans small) with rfl | rfl
    · decide
    · decide +kernel
  · intro provider height known
    rw [firstBlocks_hash (known.trans small), providersAt]
    rcases Nat.le_one_iff_eq_zero_or_eq_one.1 (known.trans small) with rfl | rfl
    · decide +kernel
    · decide +kernel
  · intro provider height known
    rw [firstBlocks_hash (known.trans small), providersAt]
    rcases Nat.le_one_iff_eq_zero_or_eq_one.1 (known.trans small) with rfl | rfl
    · decide
    · decide
  · intro provider
    rw [providersAt]
    rcases Nat.le_one_iff_eq_zero_or_eq_one.1 small with rfl | rfl
    · decide
    · decide

theorem providers_verify_first :
    ((evaluate (providersAt 0) (EsploraQuorum.verifyExactDigest sampleJson chainSha256
      twiceDeserialize oneConfirmation (some (sampleTime 0)) sampleDigest
        twiceBytes)).toOption.map BitcoinVerification.verified) = some true := by
  decide +kernel

theorem reached_mismatch_is_passed_over :
    ∃ v v', evaluate (providersAt 0) (EsploraQuorum.verifyExactDigest sampleJson chainSha256
        twiceDeserialize oneConfirmation (some (sampleTime 0)) sampleDigest twiceBytes) = .ok v ∧
      evaluate (providersAt 1) (EsploraQuorum.verifyExactDigest sampleJson chainSha256
        twiceDeserialize oneConfirmation (some (sampleTime 1)) sampleDigest twiceBytes) = .ok v' ∧
      SameEvidence v v' := by
  obtain ⟨v, run, verified⟩ := Option.map_eq_some_iff.1 providers_verify_first
  obtain ⟨_, esplora⟩ := verified_while_chain_grows chainSha256 twiceDeserialize oneConfirmation
    sampleDigest twiceBytes firstBlocks 0 1 sampleJson firstBlocks_roots (by decide)
  obtain ⟨v', run', same⟩ := esplora (providersAt 0) (providersAt 1) (sampleTime 0) (sampleTime 1) v
    (providersAt_honest (by decide)) (providersAt_honest (by decide)) (toOption_ok run) verified
  exact ⟨v, v', toOption_ok run, run', same⟩

end ChainGrowth
