import SpacerocksCoa.CalendarTimestamps

/-!
# What a submission to several calendars gives

The calendars answer in any way. Answers that are invalid one by one are passed over, and the
proof has the attestations of all the others. They are joined before they are checked together,
so valid answers whose union is not within the limits of a proof lose the whole submission.

The union, not its parts, decides: every limit may be kept by each answer alone.
-/
namespace CalendarStamping
open OrderStates DetachedProofs TimestampContents CalendarTimestamps

variable (lib : TimestampLibrary) (sha256 : Bytes → Sha256)

/-- The responses that are valid on their own. -/
def validResponses (digest : ManifestDigest) (responses : List (Option Bytes)) :
    List Timestamp :=
  responses.filterMap fun response => response.bind fun body =>
    (timestampFromBytes lib sha256 digest.value body).toOption

def emptyTree (digest : ManifestDigest) : Timestamp := .node digest.value [] .nil

def atRoot (trees : List Timestamp) : List (Path × Timestamp) := trees.map fun t => ([], t)

/-- A valid response is enough: there is a proof of the digest with what a valid response
attests. -/
def ToleratesOthers (digest : ManifestDigest) (responses : List (Option Bytes)) (now : Instant) :
    Prop :=
  (∃ t, t ∈ validResponses lib sha256 digest responses) →
    ∃ proof detached, stampExactDigest lib sha256 digest responses now = .ok proof ∧
      deserializeExactProof sha256 lib.deserialize digest proof.proofBytes = .ok detached ∧
      ∃ t ∈ validResponses lib sha256 digest responses,
        ∀ pair ∈ t.allAttestations, pair ∈ detached.timestamp.allAttestations

variable {lib sha256}

theorem mergeInto_root (tree t : Timestamp) : mergeInto lib tree [] t = lib.merge tree t := by
  obtain ⟨msg, attestations, ops⟩ := tree
  rfl

/-- The loop merges the valid responses and no others. -/
theorem mergeResponses_eq {digest : ManifestDigest} {responses : List (Option Bytes)}
    {tree : Timestamp} {merged : Nat} :
    mergeResponses lib sha256 digest.value responses tree merged =
      (mergeAll lib (atRoot (validResponses lib sha256 digest responses)) tree,
        merged + (validResponses lib sha256 digest responses).length) := by
  induction responses generalizing tree merged with
  | nil => rfl
  | cons response rest ih =>
    cases response with
    | none => exact ih
    | some body =>
      cases read : timestampFromBytes lib sha256 digest.value body with
      | error e =>
        have same : validResponses lib sha256 digest (some body :: rest) =
            validResponses lib sha256 digest rest := by
          rw [validResponses, List.filterMap_cons, Option.bind_some, read]
          rfl
        rw [mergeResponses, read, same]
        exact ih
      | ok t =>
        have same : validResponses lib sha256 digest (some body :: rest) =
            t :: validResponses lib sha256 digest rest := by
          rw [validResponses, List.filterMap_cons, Option.bind_some, read]
          rfl
        rw [mergeResponses, read, same]
        simp only [ih]
        rw [List.length_cons, Nat.add_assoc, Nat.add_comm 1, ← mergeInto_root]
        rfl

theorem validResponses_read {digest : ManifestDigest} {responses : List (Option Bytes)}
    {t : Timestamp} (member : t ∈ validResponses lib sha256 digest responses) :
    ∃ body, timestampFromBytes lib sha256 digest.value body = .ok t := by
  obtain ⟨response, _, selected⟩ := List.mem_filterMap.1 member
  obtain ⟨body, _, read⟩ := Option.bind_eq_some_iff.1 selected
  cases outcome : timestampFromBytes lib sha256 digest.value body with
  | error e =>
    rw [outcome] at read
    cases read
  | ok s =>
    rw [outcome] at read
    cases read
    exact ⟨body, outcome⟩

/-- The joined tree of a submission. -/
theorem joined (lawful : Lawful lib sha256) (digest : ManifestDigest)
    (responses : List (Option Bytes)) :
    lib.Built (mergeAll lib (atRoot (validResponses lib sha256 digest responses))
        (emptyTree digest)) ∧
      ValidTree sha256 (mergeAll lib (atRoot (validResponses lib sha256 digest responses))
        (emptyTree digest)) ∧
      Merged (emptyTree digest) (atRoot (validResponses lib sha256 digest responses))
        (mergeAll lib (atRoot (validResponses lib sha256 digest responses))
          (emptyTree digest)) := by
  refine mergeAll_merged lawful (lawful.root digest) ⟨?_, trivial⟩ ?_
  · intro a member
    exact absurd member List.not_mem_nil
  · intro a member
    obtain ⟨t, valid, rfl⟩ := List.mem_map.1 member
    obtain ⟨body, read⟩ := validResponses_read valid
    obtain ⟨built, msg, _, holds⟩ := timestampFromBytes_ok lawful read
    exact ⟨root_mem _, built, holds, msg⟩

theorem joined_full (lawful : Lawful lib sha256) {digest : ManifestDigest}
    {responses : List (Option Bytes)} {tree : Timestamp}
    (merged : Merged (emptyTree digest) (atRoot (validResponses lib sha256 digest responses)) tree)
    {t : Timestamp} (valid : t ∈ validResponses lib sha256 digest responses) : Full tree := by
  have full : ∀ s ∈ validResponses lib sha256 digest responses, Full s := by
    intro s member
    obtain ⟨body, read⟩ := validResponses_read member
    exact (timestampFromBytes_ok lawful read).2.2.1
  refine merged.full ?_ ?_
  · intro a member
    obtain ⟨s, known, rfl⟩ := List.mem_map.1 member
    exact full s known
  · intro q known
    rcases List.mem_cons.1 known with rfl | below
    · obtain ⟨mark, marked, _⟩ := full t valid [] (root_mem t)
      have placed := (merged.contained (List.mem_map_of_mem valid)).marks mark marked
      exact ⟨_, placed, List.nil_prefix⟩
    · exact absurd below List.not_mem_nil

/-- A submission that succeeds writes the joined tree. -/
theorem stamp_writes {digest : ManifestDigest} {responses : List (Option Bytes)} {now : Instant}
    {proof : ProofRecords.PendingProof Instant}
    (stamped : stampExactDigest lib sha256 digest responses now = .ok proof) :
    serializeDetached lib sha256 ⟨.sha256,
      mergeAll lib (atRoot (validResponses lib sha256 digest responses)) (emptyTree digest)⟩ =
        .ok proof.proofBytes := by
  simp only [stampExactDigest, mergeResponses_eq] at stamped
  split at stamped
  · cases stamped
  · split at stamped
    · cases stamped
    · next written =>
      split at stamped
      · cases stamped
      · cases stamped
        exact written

theorem stamp_of_written {digest : ManifestDigest} {responses : List (Option Bytes)}
    {now : Instant} {bytes : Bytes} {detached : DetachedTimestampFile}
    (some : validResponses lib sha256 digest responses ≠ [])
    (written : serializeDetached lib sha256 ⟨.sha256,
      mergeAll lib (atRoot (validResponses lib sha256 digest responses)) (emptyTree digest)⟩ =
        .ok bytes)
    (read : deserializeExactProof sha256 lib.deserialize digest bytes = .ok detached) :
    stampExactDigest lib sha256 digest responses now = .ok ⟨bytes, now⟩ := by
  have counted : 0 + (validResponses lib sha256 digest responses).length ≠ 0 := by
    intro none
    exact some (List.length_eq_zero_iff.1 (by omega))
  have tree : Timestamp.node digest.value [] .nil = emptyTree digest := rfl
  simp only [stampExactDigest, mergeResponses_eq]
  rw [if_neg counted, tree, written]
  simp only [read]

/-- One valid response is enough exactly when what the valid responses hold together is within
the limits of a proof. -/
theorem stamping_tolerates_iff (lawful : Lawful lib sha256) (digest : ManifestDigest)
    (responses : List (Option Bytes)) (now : Instant) :
    ToleratesOthers lib sha256 digest responses now ↔
      validResponses lib sha256 digest responses = [] ∨
        UnionFits lib (emptyTree digest)
          (atRoot (validResponses lib sha256 digest responses)) := by
  obtain ⟨built, valid, merged⟩ := joined lawful digest responses
  rw [unionFits_iff lawful built merged]
  constructor
  · intro tolerates
    by_cases none : validResponses lib sha256 digest responses = []
    · exact Or.inl none
    · obtain ⟨proof, detached, stamped, _⟩ := tolerates (List.exists_mem_of_ne_nil _ none)
      obtain ⟨⟨_, within⟩, short, _⟩ := (serializeDetached_iff lawful).1 (stamp_writes stamped)
      exact Or.inr ⟨within, short⟩
  · rintro none ⟨t, member⟩
    have some : validResponses lib sha256 digest responses ≠ [] := by
      intro empty
      rw [empty] at member
      exact absurd member List.not_mem_nil
    rcases none with empty | ⟨within, short⟩
    · exact absurd empty some
    · have written := (serializeDetached_iff lawful).2 ⟨⟨valid, within⟩, short, rfl⟩
      obtain ⟨detached, read, same⟩ :=
        serialized_reads lawful built (joined_full lawful merged member) merged.msg written
      refine ⟨_, detached, stamp_of_written some written read, read, t, member, ?_⟩
      obtain ⟨body, parsed⟩ := validResponses_read member
      obtain ⟨_, msg, _, holds⟩ := timestampFromBytes_ok lawful parsed
      have accepted := deserializeExactProof_iff.1 read
      refine attestations_of_contained
        (SameContents.contained same (merged.contained (List.mem_map_of_mem member))) holds
        accepted.2.2.2.2.1 ?_
      rw [accepted.2.2.2.1]
      exact msg

/-- Attestations of one calendar and of one block. -/
def oneCalendar : TimestampLibrary := partsLibrary [.pending (poolUri 97)] [.bitcoin 850000]

theorem oneCalendar_parts : TwoParts [.pending (poolUri 97)] [.bitcoin 850000] :=
  ⟨by decide, by decide, by decide, by decide, by decide, by decide⟩

/-- The answer of a calendar that has the block. -/
def blockAnswer : Bytes :=
  treeBytes (partsTree [.pending (poolUri 97)] [.bitcoin 850000] false true)

theorem one_answer_is_enough :
    ToleratesOthers oneCalendar partsSha256 partsDigest
      [some blockAnswer, some [7], some [], none] 0 := by
  have lawful : Lawful oneCalendar partsSha256 := partsLibrary_lawful partsSha256 oneCalendar_parts
  refine (stamping_tolerates_iff lawful partsDigest _ 0).2 (Or.inr ⟨?_, ?_, ?_, ?_⟩)
  · decide
  · decide
  · decide
  · intro t built _
    exact parts_short oneCalendar_parts built

/-- Nine attestations, one for each of nine calendars. -/
def nineCalendars : List Attestation :=
  (List.range 9).map fun i => .pending (poolUri (UInt8.ofNat (97 + i)))

def ninePending : TimestampLibrary := partsLibrary nineCalendars nineCalendars

theorem nineCalendars_parts : TwoParts nineCalendars nineCalendars :=
  ⟨by decide, by decide, by decide, by decide, by decide +kernel, by decide +kernel⟩

/-- The answers of nine calendars for the digest and for the digest with a byte appended. -/
def nineAnswers : List (Option Bytes) :=
  [some (treeBytes (partsTree nineCalendars nineCalendars true false)),
    some (treeBytes (partsTree nineCalendars nineCalendars false true))]

/-- Two valid answers with nine pending attestations each, and no proof at all. -/
theorem valid_answers_lose_the_submission :
    Lawful ninePending partsSha256 ∧
      (validResponses ninePending partsSha256 partsDigest nineAnswers).length = 2 ∧
      stampExactDigest ninePending partsSha256 partsDigest nineAnswers 0 =
        .error (.proof ⟨"proof_pending_attestation_limit_exceeded"⟩) ∧
      ¬ToleratesOthers ninePending partsSha256 partsDigest nineAnswers 0 := by
  have two : (validResponses ninePending partsSha256 partsDigest nineAnswers).length = 2 := by
    decide +kernel
  have failed : stampExactDigest ninePending partsSha256 partsDigest nineAnswers 0 =
      .error (.proof ⟨"proof_pending_attestation_limit_exceeded"⟩) := by decide +kernel
  refine ⟨partsLibrary_lawful _ nineCalendars_parts, two, failed, ?_⟩
  intro tolerates
  have some : validResponses ninePending partsSha256 partsDigest nineAnswers ≠ [] := by
    intro none
    rw [none] at two
    cases two
  obtain ⟨proof, _, stamped, _⟩ := tolerates (List.exists_mem_of_ne_nil _ some)
  rw [failed] at stamped
  cases stamped

end CalendarStamping
