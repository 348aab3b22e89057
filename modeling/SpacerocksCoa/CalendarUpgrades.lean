import SpacerocksCoa.CalendarTimestamps
import SpacerocksCoa.HandlerRequests

/-!
# What an upgrade with several calendars gives

A proof names a calendar for each of its pending attestations, and every such calendar is asked
for the message of the attestation. The upgraded proof has all that the proof and the answers
have. An answer that is not valid is not passed over as in a submission: it ends the upgrade,
whatever the other calendars returned.

Two nodes with one message count as one for a calendar, which is asked for the message.
-/
namespace CalendarUpgrades
open OrderStates DetachedProofs TimestampContents CalendarTimestamps
open TransactionalPrograms TransactionalPrograms.Prog WorkerRuns
open FulfillmentHandlers hiding upgradeExactDigest stampExactDigest

variable (lib : TimestampLibrary) (sha256 : Bytes → Sha256)

/-! ## The calendars that are asked -/

/-- A calendar is asked for the message of a pending attestation. -/
def Asked (allowed : List Bytes) (tree : Timestamp) (key : PendingKey) : Prop :=
  ∃ path uri, (path, Attestation.pending uri) ∈ treeMarks tree ∧ calendarUrl uri ∈ allowed ∧
    key = (pathMessage sha256 tree.msg path, calendarUrl uri)

variable {lib sha256}

theorem mem_nodeKeys {allowed : List Bytes} {node : Timestamp} {key : PendingKey} :
    key ∈ nodeKeys allowed node ↔ ∃ uri, Attestation.pending uri ∈ attestationsOf node ∧
      calendarUrl uri ∈ allowed ∧ key = (node.msg, calendarUrl uri) := by
  obtain ⟨msg, attestations, ops⟩ := node
  rw [nodeKeys, List.mem_filterMap]
  constructor
  · rintro ⟨a, known, selected⟩
    cases a with
    | pending uri =>
      simp only at selected
      split at selected
      · next listed =>
        cases selected
        exact ⟨uri, known, listed, rfl⟩
      · cases selected
    | bitcoin height => cases selected
    | other tag => cases selected
  · rintro ⟨uri, known, listed, rfl⟩
    exact ⟨.pending uri, known, if_pos listed⟩

mutual

/-- The walk gives nodes of the tree with their messages and attestations. -/
theorem walkTree_node : ∀ (t : Timestamp), ValidTree sha256 t → ∀ path node,
    (path, node) ∈ walkTree t → path ∈ treeNodes t ∧ node.msg = pathMessage sha256 t.msg path ∧
      ∀ a ∈ attestationsOf node, (path, a) ∈ treeMarks t
  | .node msg attestations ops, valid, path, node, member => by
    rcases List.mem_cons.1 member with here | below
    · cases here
      refine ⟨root_mem _, rfl, ?_⟩
      intro a known
      exact List.mem_append_left _ (List.mem_map_of_mem known)
    · obtain ⟨known, message, marks⟩ := walkOps_node msg ops valid.2 path node below
      exact ⟨List.mem_cons_of_mem _ known, message,
        fun a held => List.mem_append_right _ (marks a held)⟩

theorem walkOps_node (msg : Bytes) : ∀ (ops : Operations), ValidOps sha256 msg ops →
    ∀ path node, (path, node) ∈ walkOps ops → path ∈ opNodes ops ∧
      node.msg = pathMessage sha256 msg path ∧ ∀ a ∈ attestationsOf node, (path, a) ∈ opMarks ops
  | .nil, _, _, _, member => absurd member List.not_mem_nil
  | .cons op child rest, valid, path, node, member => by
    obtain ⟨_, result, childValid, restValid⟩ := valid
    rcases List.mem_append.1 member with later | inChild
    · obtain ⟨known, message, marks⟩ := walkOps_node msg rest restValid path node later
      exact ⟨List.mem_append_right _ known, message,
        fun a held => List.mem_append_right _ (marks a held)⟩
    · obtain ⟨entry, visited, same⟩ := List.mem_map.1 inChild
      obtain ⟨q, n⟩ := entry
      cases same
      obtain ⟨known, message, marks⟩ := walkTree_node child childValid q n visited
      refine ⟨List.mem_append_left _ (List.mem_map_of_mem known), ?_, ?_⟩
      · rw [message, result]
        rfl
      · intro a held
        exact List.mem_append_left _ (List.mem_map.2 ⟨_, marks a held, rfl⟩)

end

mutual

/-- The walk misses no attestation. -/
theorem walkTree_visits : ∀ (t : Timestamp) (path : Path) (a : Attestation),
    (path, a) ∈ treeMarks t → ∃ node, (path, node) ∈ walkTree t ∧ a ∈ attestationsOf node
  | .node msg attestations ops, path, a, marked => by
    rcases List.mem_append.1 marked with here | below
    · obtain ⟨b, known, same⟩ := List.mem_map.1 here
      cases same
      exact ⟨_, List.mem_cons_self, known⟩
    · obtain ⟨node, visited, known⟩ := walkOps_visits ops path a below
      exact ⟨node, List.mem_cons_of_mem _ visited, known⟩

theorem walkOps_visits : ∀ (ops : Operations) (path : Path) (a : Attestation),
    (path, a) ∈ opMarks ops → ∃ node, (path, node) ∈ walkOps ops ∧ a ∈ attestationsOf node
  | .nil, _, _, marked => absurd marked List.not_mem_nil
  | .cons op child rest, path, a, marked => by
    rcases List.mem_append.1 marked with inChild | later
    · obtain ⟨mark, known, same⟩ := List.mem_map.1 inChild
      obtain ⟨q, b⟩ := mark
      cases same
      obtain ⟨node, visited, held⟩ := walkTree_visits child q b known
      exact ⟨node, List.mem_append_right _ (List.mem_map.2 ⟨_, visited, rfl⟩), held⟩
    · obtain ⟨node, visited, held⟩ := walkOps_visits rest path a later
      exact ⟨node, List.mem_append_left _ visited, held⟩

end

theorem mem_setEntry {entries : List (PendingKey × Path)} {key : PendingKey} {path : Path}
    {entry : PendingKey × Path} (member : entry ∈ setEntry entries key path) :
    entry ∈ entries ∨ entry = (key, path) := by
  unfold setEntry at member
  split at member
  · obtain ⟨old, known, same⟩ := List.mem_map.1 member
    split at same
    · exact Or.inr same.symm
    · exact Or.inl (same ▸ known)
  · rcases List.mem_append.1 member with known | new
    · exact Or.inl known
    · exact Or.inr (List.mem_singleton.1 new)

/-- An entry for a key stays or gets a new path; the new key has one. -/
theorem setEntry_keeps (entries : List (PendingKey × Path)) {key k : PendingKey} (path : Path)
    {p : Path} (known : (k, p) ∈ entries ∨ k = key) :
    ∃ p', (k, p') ∈ setEntry entries key path := by
  unfold setEntry
  split
  · next present =>
    obtain ⟨old, member, equal⟩ := List.any_eq_true.1 present
    by_cases same : k = key
    · refine ⟨path, List.mem_map.2 ⟨old, member, ?_⟩⟩
      rw [if_pos (eq_of_beq equal), same]
    · rcases known with before | new
      · exact ⟨p, List.mem_map.2 ⟨_, before, if_neg same⟩⟩
      · exact absurd new same
  · rcases known with before | rfl
    · exact ⟨p, List.mem_append_left _ before⟩
    · exact ⟨path, List.mem_append_right _ (List.mem_singleton_self _)⟩

/-- The pairs of a dictionary comprehension: those given, and every key once given is there. -/
theorem foldEntries {pairs entries : List (PendingKey × Path)} :
    (∀ entry ∈ pairs.foldl (fun es pair => setEntry es pair.1 pair.2) entries,
      entry ∈ entries ∨ entry ∈ pairs) ∧
    (∀ k p, (k, p) ∈ entries ∨ (k, p) ∈ pairs →
      ∃ p', (k, p') ∈ pairs.foldl (fun es pair => setEntry es pair.1 pair.2) entries) := by
  induction pairs generalizing entries with
  | nil =>
    constructor
    · intro entry member
      exact Or.inl member
    · rintro k p (known | none)
      · exact ⟨p, known⟩
      · exact absurd none List.not_mem_nil
  | cons pair rest ih =>
    obtain ⟨sound, complete⟩ := @ih (setEntry entries pair.1 pair.2)
    constructor
    · intro entry member
      rcases sound entry member with before | later
      · rcases mem_setEntry before with old | new
        · exact Or.inl old
        · exact Or.inr (new ▸ List.mem_cons_self)
      · exact Or.inr (List.mem_cons_of_mem _ later)
    · rintro k p (known | given)
      · obtain ⟨p', kept⟩ := setEntry_keeps entries pair.2 (Or.inl known)
        exact complete k p' (Or.inl kept)
      · rcases List.mem_cons.1 given with rfl | later
        · obtain ⟨p', kept⟩ := @setEntry_keeps entries k k p p (Or.inr rfl)
          exact complete k p' (Or.inl kept)
        · exact complete k p (Or.inr later)

theorem pendingByKey_pairs {allowed : List Bytes} {tree : Timestamp} {entry : PendingKey × Path} :
    entry ∈ ((walkTree tree).flatMap fun visited =>
      (nodeKeys allowed visited.2).map fun key => (key, visited.1)) ↔
        ∃ node, (entry.2, node) ∈ walkTree tree ∧ entry.1 ∈ nodeKeys allowed node := by
  rw [List.mem_flatMap]
  constructor
  · rintro ⟨visited, known, inside⟩
    obtain ⟨key, keyed, rfl⟩ := List.mem_map.1 inside
    exact ⟨visited.2, known, keyed⟩
  · rintro ⟨node, known, keyed⟩
    exact ⟨_, known, List.mem_map.2 ⟨entry.1, keyed, rfl⟩⟩

/-- An entry stands for a node whose calendar is asked. -/
theorem pendingByKey_asked {allowed : List Bytes} {tree : Timestamp}
    {entry : PendingKey × Path} (valid : ValidTree sha256 tree)
    (member : entry ∈ pendingByKey allowed tree) : Asked sha256 allowed tree entry.1 ∧
      entry.2 ∈ treeNodes tree ∧ entry.1.1 = pathMessage sha256 tree.msg entry.2 := by
  rcases foldEntries.1 entry member with none | given
  · exact absurd none List.not_mem_nil
  · obtain ⟨node, visited, keyed⟩ := pendingByKey_pairs.1 given
    obtain ⟨known, message, marks⟩ := walkTree_node tree valid entry.2 node visited
    obtain ⟨uri, held, listed, same⟩ := mem_nodeKeys.1 keyed
    rw [same, message]
    exact ⟨⟨entry.2, uri, marks _ held, listed, rfl⟩, known, rfl⟩

theorem asked_pendingByKey {allowed : List Bytes} {tree : Timestamp} {key : PendingKey}
    (valid : ValidTree sha256 tree) (asked : Asked sha256 allowed tree key) :
    ∃ path, (key, path) ∈ pendingByKey allowed tree := by
  obtain ⟨path, uri, marked, listed, rfl⟩ := asked
  obtain ⟨node, visited, held⟩ := walkTree_visits tree path _ marked
  have message := (walkTree_node tree valid path node visited).2.1
  refine foldEntries.2 _ path (Or.inr (pendingByKey_pairs.2 ⟨node, visited, ?_⟩))
  refine mem_nodeKeys.2 ⟨uri, held, listed, ?_⟩
  rw [message]

/-! ## The loop -/

variable (lib sha256) in
/-- The valid answers with their nodes. -/
def validAnswers (answers : PendingKey → Option Bytes) (entries : List (PendingKey × Path)) :
    List (Path × Timestamp) :=
  entries.filterMap fun entry => (answers entry.1).bind fun body =>
    (timestampFromBytes lib sha256 entry.1.1 body).toOption.map fun t => (entry.2, t)

theorem mem_validAnswers {answers : PendingKey → Option Bytes}
    {entries : List (PendingKey × Path)} {a : Path × Timestamp} :
    a ∈ validAnswers lib sha256 answers entries ↔ ∃ entry ∈ entries, ∃ body,
      answers entry.1 = some body ∧ timestampFromBytes lib sha256 entry.1.1 body = .ok a.2 ∧
        a.1 = entry.2 := by
  rw [validAnswers, List.mem_filterMap]
  constructor
  · rintro ⟨entry, member, selected⟩
    obtain ⟨body, answered, read⟩ := Option.bind_eq_some_iff.1 selected
    obtain ⟨t, parsed, rfl⟩ := Option.map_eq_some_iff.1 read
    refine ⟨entry, member, body, answered, ?_, rfl⟩
    cases outcome : timestampFromBytes lib sha256 entry.1.1 body with
    | error e =>
      rw [outcome] at parsed
      cases parsed
    | ok s =>
      rw [outcome] at parsed
      cases parsed
      rfl
  · rintro ⟨entry, member, body, answered, read, same⟩
    refine ⟨entry, member, ?_⟩
    rw [answered, Option.bind_some, read, ← same]
    rfl

/-- Every body that was returned is valid. -/
def AllValid (lib : TimestampLibrary) (sha256 : Bytes → Sha256)
    (answers : PendingKey → Option Bytes) (entries : List (PendingKey × Path)) : Prop :=
  ∀ entry ∈ entries, ∀ body, answers entry.1 = some body →
    ∃ t, timestampFromBytes lib sha256 entry.1.1 body = .ok t

/-- The loop merges the answers when all of them are valid. -/
theorem mergeAnswers_eq {answers : PendingKey → Option Bytes}
    {entries : List (PendingKey × Path)} {tree : Timestamp} {changed : Bool}
    (all : AllValid lib sha256 answers entries) :
    mergeAnswers lib sha256 answers entries tree changed =
      .ok (mergeAll lib (validAnswers lib sha256 answers entries) tree,
        changed || !(validAnswers lib sha256 answers entries).isEmpty) := by
  induction entries generalizing tree changed with
  | nil =>
    rw [mergeAnswers]
    simp [validAnswers, mergeAll]
  | cons entry rest ih =>
    obtain ⟨key, path⟩ := entry
    have later : AllValid lib sha256 answers rest := fun entry member =>
      all entry (List.mem_cons_of_mem _ member)
    cases answered : answers key with
    | none =>
      have same : validAnswers lib sha256 answers ((key, path) :: rest) =
          validAnswers lib sha256 answers rest := by
        rw [validAnswers, List.filterMap_cons, answered]
        rfl
      simp only [mergeAnswers, answered, same]
      exact ih later
    | some body =>
      obtain ⟨t, read⟩ := all (key, path) List.mem_cons_self body answered
      have same : validAnswers lib sha256 answers ((key, path) :: rest) =
          (path, t) :: validAnswers lib sha256 answers rest := by
        rw [validAnswers, List.filterMap_cons, answered, Option.bind_some, read]
        rfl
      simp only [mergeAnswers, answered, read, same]
      rw [ih later]
      simp [mergeAll]

/-- A body that is not valid ends the loop. -/
theorem mergeAnswers_ok {answers : PendingKey → Option Bytes}
    {entries : List (PendingKey × Path)} {tree : Timestamp} {changed : Bool}
    {loop : Timestamp × Bool}
    (passes : mergeAnswers lib sha256 answers entries tree changed = .ok loop) :
    AllValid lib sha256 answers entries := by
  induction entries generalizing tree changed with
  | nil =>
    intro entry member
    exact absurd member List.not_mem_nil
  | cons entry rest ih =>
    obtain ⟨key, path⟩ := entry
    intro other member body answered
    simp only [mergeAnswers] at passes
    cases here : answers key with
    | none =>
      rw [here] at passes
      rcases List.mem_cons.1 member with rfl | later
      · rw [here] at answered
        cases answered
      · exact ih passes other later body answered
    | some response =>
      rw [here] at passes
      cases read : timestampFromBytes lib sha256 key.1 response with
      | error e =>
        simp only [read] at passes
        cases passes
      | ok t =>
        simp only [read] at passes
        rcases List.mem_cons.1 member with rfl | later
        · rw [here] at answered
          cases answered
          exact ⟨t, read⟩
        · exact ih passes other later body answered

/-- The answers are merged into the tree of the proof. -/
theorem answers_merged (lawful : Lawful lib sha256) {allowed : List Bytes} {tree : Timestamp}
    (answers : PendingKey → Option Bytes) (built : lib.Built tree)
    (valid : ValidTree sha256 tree) :
    lib.Built (mergeAll lib (validAnswers lib sha256 answers (pendingByKey allowed tree)) tree) ∧
      ValidTree sha256
        (mergeAll lib (validAnswers lib sha256 answers (pendingByKey allowed tree)) tree) ∧
      Merged tree (validAnswers lib sha256 answers (pendingByKey allowed tree))
        (mergeAll lib (validAnswers lib sha256 answers (pendingByKey allowed tree)) tree) := by
  refine mergeAll_merged lawful built valid ?_
  intro a member
  obtain ⟨entry, listed, body, _, read, same⟩ := mem_validAnswers.1 member
  obtain ⟨_, known, message⟩ := pendingByKey_asked valid listed
  obtain ⟨remoteBuilt, msg, _, holds⟩ := timestampFromBytes_ok lawful read
  rw [← same] at known message
  exact ⟨known, remoteBuilt, holds, msg.trans message⟩

theorem merged_full (lawful : Lawful lib sha256) {tree t : Timestamp}
    {answers : PendingKey → Option Bytes} {entries : List (PendingKey × Path)} (full : Full tree)
    (merged : Merged tree (validAnswers lib sha256 answers entries) t) : Full t := by
  refine merged.full ?_ ?_
  · intro a member
    obtain ⟨entry, _, body, _, read, _⟩ := mem_validAnswers.1 member
    exact (timestampFromBytes_ok lawful read).2.2.1
  · intro q known
    obtain ⟨mark, marked, above⟩ := full q known
    exact ⟨mark, (merged.marks mark).2 (Or.inl marked), above⟩

/-! ## The upgrade -/

/-- What an upgrade that succeeds did. -/
theorem upgrade_ok {allowed : List Bytes} {digest : ManifestDigest} {proofBytes upgraded : Bytes}
    {answers : PendingKey → Option Bytes}
    (returned : upgradeExactDigest lib sha256 allowed digest proofBytes answers = .ok upgraded) :
    ∃ before after, deserializeExactProof sha256 lib.deserialize digest proofBytes = .ok before ∧
      deserializeExactProof sha256 lib.deserialize digest upgraded = .ok after ∧
      AllValid lib sha256 answers (pendingByKey allowed before.timestamp) ∧
      (if validAnswers lib sha256 answers (pendingByKey allowed before.timestamp) = [] then
        upgraded = proofBytes
      else serializeDetached lib sha256 ⟨.sha256, mergeAll lib
        (validAnswers lib sha256 answers (pendingByKey allowed before.timestamp))
          before.timestamp⟩ = .ok upgraded) := by
  unfold upgradeExactDigest at returned
  cases accepted : deserializeExactProof sha256 lib.deserialize digest proofBytes with
  | error e =>
    rw [accepted] at returned
    cases returned
  | ok before =>
    have hashOp := (deserializeExactProof_iff.1 accepted).2.2.1
    simp only [accepted] at returned
    split at returned
    · cases returned
    · split at returned
      · next none =>
        cases returned
        refine ⟨before, before, rfl, accepted, ?_, ?_⟩
        · rw [none]
          intro entry member
          exact absurd member List.not_mem_nil
        · rw [none]
          have nothing : validAnswers lib sha256 answers [] = [] := rfl
          rw [if_pos nothing]
      · split at returned
        · cases returned
        · next passes =>
          have all := mergeAnswers_ok passes
          rw [mergeAnswers_eq all] at passes
          cases passes
          split at returned
          · cases returned
          · next written =>
            split at returned
            · cases returned
            · next after read =>
              cases returned
              refine ⟨before, after, rfl, read, all, ?_⟩
              cases found : validAnswers lib sha256 answers
                  (pendingByKey allowed before.timestamp) with
              | nil =>
                rw [found] at written
                cases written
                rw [if_pos rfl]
              | cons answer rest =>
                rw [found] at written
                rw [if_neg (List.cons_ne_nil _ _), ← hashOp]
                exact written

/-- An upgrade whose bodies are all valid writes the merged tree. -/
theorem upgrade_of_written {allowed : List Bytes} {digest : ManifestDigest}
    {proofBytes upgraded : Bytes} {answers : PendingKey → Option Bytes}
    {before after : DetachedTimestampFile}
    (accepted : deserializeExactProof sha256 lib.deserialize digest proofBytes = .ok before)
    (fanout : (pendingByKey allowed before.timestamp).length ≤ maxUpgradeRequests)
    (all : AllValid lib sha256 answers (pendingByKey allowed before.timestamp))
    (written : if validAnswers lib sha256 answers (pendingByKey allowed before.timestamp) = [] then
        upgraded = proofBytes
      else serializeDetached lib sha256 ⟨.sha256, mergeAll lib
        (validAnswers lib sha256 answers (pendingByKey allowed before.timestamp))
          before.timestamp⟩ = .ok upgraded)
    (read : deserializeExactProof sha256 lib.deserialize digest upgraded = .ok after) :
    upgradeExactDigest lib sha256 allowed digest proofBytes answers = .ok upgraded := by
  have hashOp := (deserializeExactProof_iff.1 accepted).2.2.1
  have few : ¬maxUpgradeRequests < (pendingByKey allowed before.timestamp).length := by omega
  simp only [upgradeExactDigest, accepted, mergeAnswers_eq all]
  rw [if_neg few]
  cases found : validAnswers lib sha256 answers (pendingByKey allowed before.timestamp) with
  | nil =>
    rw [found, if_pos rfl] at written
    subst written
    split
    · rfl
    · simp [upgradedBytes, read]
  | cons answer rest =>
    rw [found, if_neg (List.cons_ne_nil _ _), ← hashOp] at written
    split
    · next none =>
      rw [none] at found
      cases found
    · simp [upgradedBytes, written, read]

variable (lib sha256) in
/-- Whatever other calendars return, what a valid answer attests is in the upgraded proof. -/
def UpgradesEach (allowed : List Bytes) (digest : ManifestDigest) (proofBytes : Bytes)
    (tree : Timestamp) (answers : PendingKey → Option Bytes) : Prop :=
  ∀ key body remote, Asked sha256 allowed tree key → answers key = some body →
    timestampFromBytes lib sha256 key.1 body = .ok remote →
      ∃ upgraded after,
        upgradeExactDigest lib sha256 allowed digest proofBytes answers = .ok upgraded ∧
        deserializeExactProof sha256 lib.deserialize digest upgraded = .ok after ∧
        ∀ pair ∈ remote.allAttestations, pair ∈ after.timestamp.allAttestations

variable (lib sha256) in
def BodyValid (key : PendingKey) (body : Bytes) : Prop :=
  ∃ remote, timestampFromBytes lib sha256 key.1 body = .ok remote

/-- Every calendar with a valid answer upgrades the proof exactly when all the bodies that are
returned are valid, or none is. -/
theorem upgrade_tolerates_iff (lawful : Lawful lib sha256) {allowed : List Bytes}
    {digest : ManifestDigest} {proofBytes : Bytes} {answers : PendingKey → Option Bytes}
    {detached : DetachedTimestampFile}
    (accepted : deserializeExactProof sha256 lib.deserialize digest proofBytes = .ok detached)
    (fanout : (pendingByKey allowed detached.timestamp).length ≤ maxUpgradeRequests)
    (fits : UnionFits lib detached.timestamp
      (validAnswers lib sha256 answers (pendingByKey allowed detached.timestamp))) :
    UpgradesEach lib sha256 allowed digest proofBytes detached.timestamp answers ↔
      (∀ key body, Asked sha256 allowed detached.timestamp key → answers key = some body →
        BodyValid lib sha256 key body) ∨
      (∀ key body, Asked sha256 allowed detached.timestamp key → answers key = some body →
        ¬BodyValid lib sha256 key body) := by
  obtain ⟨_, readBack, _, target, valid, _⟩ := deserializeExactProof_iff.1 accepted
  obtain ⟨built, full⟩ := lawful.read readBack
  constructor
  · intro upgrades
    by_cases some : ∃ key body, Asked sha256 allowed detached.timestamp key ∧
        answers key = some body ∧ BodyValid lib sha256 key body
    · obtain ⟨key, body, asked, answered, remote, read⟩ := some
      obtain ⟨upgraded, _, returned, _⟩ := upgrades key body remote asked answered read
      obtain ⟨before, _, again, _, all, _⟩ := upgrade_ok returned
      rw [accepted] at again
      cases again
      refine Or.inl ?_
      intro other response askedOther answeredOther
      obtain ⟨path, listed⟩ := asked_pendingByKey valid askedOther
      exact all _ listed response answeredOther
    · refine Or.inr ?_
      intro key body asked answered held
      exact some ⟨key, body, asked, answered, held⟩
  · rintro (allBodies | none)
    · intro key body remote asked answered read
      have all : AllValid lib sha256 answers (pendingByKey allowed detached.timestamp) := by
        intro entry member response given
        exact allBodies entry.1 response (pendingByKey_asked valid member).1 given
      obtain ⟨path, listed⟩ := asked_pendingByKey valid asked
      have member : (path, remote) ∈
          validAnswers lib sha256 answers (pendingByKey allowed detached.timestamp) :=
        mem_validAnswers.2 ⟨_, listed, body, answered, read, rfl⟩
      obtain ⟨builtNext, validNext, merged⟩ := answers_merged lawful answers built valid
      obtain ⟨within, short⟩ := (unionFits_iff lawful builtNext merged).1 fits
      have written := (serializeDetached_iff lawful).2 ⟨⟨validNext, within⟩, short, rfl⟩
      obtain ⟨after, readAfter, same⟩ := serialized_reads lawful builtNext
        (merged_full lawful full merged) (merged.msg.trans target) written
      refine ⟨_, after, upgrade_of_written accepted fanout all ?_ readAfter, readAfter, ?_⟩
      · rw [if_neg (List.ne_nil_of_mem member)]
        exact written
      · obtain ⟨_, msg, _, holds⟩ := timestampFromBytes_ok lawful read
        have facts := deserializeExactProof_iff.1 readAfter
        refine attestations_of_contained (SameContents.contained same (merged.contained member))
          holds facts.2.2.2.2.1 ?_
        rw [msg, (pendingByKey_asked valid listed).2.2, ← same.msg, merged.msg]
    · intro key body remote asked answered read
      exact absurd ⟨remote, read⟩ (none key body asked answered)

/-! ## The handler around an upgrade -/

/-- An upgrade that raises leaves the record of the order as it is. -/
theorem raised_upgrade_keeps (s : Services) {w : World}
    (state : w.record.order.fulfillmentState = .calendarPending) :
    Keeps (perform s) (fun env _ _ => ∃ e, env.upgrade = .error e)
      (fun w' => w'.record = w.record) (fun _ _ => True) (upgradeHandler s) w := by
  refine ⟨rfl, fun _ _ => ⟨rfl, fun _ _ => ?_⟩⟩
  have pending : (FulfillmentAdapters.getForFulfillment w.record).state.fulfillment =
      .calendarPending := state
  cases found : FulfillmentAdapters.latest w.record with
  | none =>
    simp only [perform, answer, found]
    exact ⟨rfl, trivial⟩
  | some latest =>
    simp only [perform, answer, found, Prog.bind, pending, reduceCtorEq, or_self, if_false,
      ne_eq, not_true_eq_false]
    split
    · exact ⟨rfl, trivial⟩
    · split
      · exact ⟨rfl, trivial⟩
      · refine ⟨rfl, ?_⟩
        rintro env ⟨e, raised⟩
        simp only [perform, answer, raised]
        cases e with
        | proofInvalid => exact ⟨rfl, trivial⟩
        | unavailable => exact ⟨rfl, trivial⟩

theorem only_confirm (s : Services) (digest : ManifestDigest)
    (latest : ProofRecords.StoredProof Instant) :
    Only (fun q : Request => ∀ proof, q ≠ .append proof) (confirmUpgrade s digest latest) := by
  refine only_bind (only_bind (only_request fun _ => nofun) fun reply => ?_)
    fun verification => ?_
  · cases reply with
    | ok verification => trivial
    | error e =>
      cases e with
      | unavailable => trivial
      | evidenceInvalid => trivial
      | unexpected => trivial
  · cases verification with
    | unverified => trivial
    | verified e =>
      refine only_bind (only_request fun _ => nofun) fun reply =>
        only_bind (HandlerRequests.only_adapter reply) fun _ => ?_
      refine only_bind ⟨fun _ => nofun, fun reply => HandlerRequests.only_adapter reply⟩ fun _ => ?_
      exact only_bind ⟨fun _ => nofun, fun reply => HandlerRequests.only_adapter reply⟩
        fun _ => trivial

/-- Bytes that are stored already are not appended again. -/
theorem same_bytes_append_nothing (s : Services) {w : World} {envs : List Env}
    (state : w.record.order.fulfillmentState = .calendarPending)
    (same : ∀ env ∈ envs, ∀ latest, FulfillmentAdapters.latest w.record = some latest →
      env.upgrade = .ok latest.proofBytes) :
    Along (perform s) (fun _ q _ => ∀ proof, q ≠ .append proof) (upgradeHandler s) envs w := by
  cases envs with
  | nil => trivial
  | cons first envs =>
    refine ⟨fun _ => nofun, ?_⟩
    cases envs with
    | nil => trivial
    | cons second envs =>
      refine ⟨fun _ => nofun, ?_⟩
      have pending : (FulfillmentAdapters.getForFulfillment w.record).state.fulfillment =
          .calendarPending := state
      cases found : FulfillmentAdapters.latest w.record with
      | none =>
        simp only [perform, answer, found]
        trivial
      | some latest =>
        simp only [perform, answer, found, Prog.bind, pending, reduceCtorEq, or_self, if_false,
          ne_eq, not_true_eq_false]
        split
        · trivial
        · split
          · trivial
          · cases envs with
            | nil => trivial
            | cons third envs =>
              refine ⟨fun _ => nofun, ?_⟩
              have returned := same third (by simp) latest found
              simp only [perform, answer, returned, Prog.bind, if_true]
              split
              · trivial
              · exact along_of_only (only_confirm s _ latest)

/-! ## The fixed point -/

variable (lib sha256) in
/-- Every body is a valid answer whose contents are at its node already. -/
def AlreadyContained (allowed : List Bytes) (tree : Timestamp)
    (answers : PendingKey → Option Bytes) : Prop :=
  ∀ entry ∈ pendingByKey allowed tree, ∀ body, answers entry.1 = some body →
    ∃ remote, timestampFromBytes lib sha256 entry.1.1 body = .ok remote ∧
      ContainedAt entry.2 remote tree

/-- An upgrade keeps what was attested. -/
theorem upgrade_preserves (lawful : Lawful lib sha256) {allowed : List Bytes}
    {digest : ManifestDigest} {proofBytes upgraded : Bytes} {answers : PendingKey → Option Bytes}
    (returned : upgradeExactDigest lib sha256 allowed digest proofBytes answers = .ok upgraded) :
    ∃ before after, deserializeExactProof sha256 lib.deserialize digest proofBytes = .ok before ∧
      deserializeExactProof sha256 lib.deserialize digest upgraded = .ok after ∧
      (∀ pair ∈ before.timestamp.allAttestations, pair ∈ after.timestamp.allAttestations) ∧
      (lib.serialize before = proofBytes → lib.serialize after = upgraded) := by
  obtain ⟨before, after, accepted, read, _, written⟩ := upgrade_ok returned
  refine ⟨before, after, accepted, read, ?_⟩
  obtain ⟨_, readBefore, hashBefore, target, valid, _⟩ := deserializeExactProof_iff.1 accepted
  obtain ⟨_, readAfter, hashAfter, targetAfter, validAfter, _⟩ :=
    deserializeExactProof_iff.1 read
  obtain ⟨built, full⟩ := lawful.read readBefore
  obtain ⟨builtAfter, _⟩ := lawful.read readAfter
  obtain ⟨builtNext, validNext, merged⟩ := answers_merged lawful answers built valid
  split at written
  · subst written
    rw [accepted] at read
    cases read
    exact ⟨fun _ known => known, fun same => same⟩
  · obtain ⟨again, readAgain, same⟩ := serialized_reads lawful builtNext
      (merged_full lawful full merged) (merged.msg.trans target) written
    rw [read] at readAgain
    cases readAgain
    constructor
    · have contained : ContainedAt [] before.timestamp after.timestamp :=
        ⟨fun q known => (same.nodes q).1 ((merged.nodes q).2 (Or.inl known)),
          fun m known => (same.marks _).1 ((merged.marks _).2 (Or.inl known))⟩
      refine attestations_of_contained contained valid validAfter ?_
      rw [target, targetAfter]
      rfl
    · intro _
      obtain ⟨_, _, equal⟩ := (serializeDetached_iff lawful).1 written
      obtain ⟨op, tree⟩ := after
      cases hashAfter
      rw [equal]
      exact (lawful.canonical builtNext builtAfter same).symm

/-- Answers that are contained change nothing. -/
theorem upgrade_contained (lawful : Lawful lib sha256) {allowed : List Bytes}
    {digest : ManifestDigest} {proofBytes : Bytes} {detached : DetachedTimestampFile}
    {answers : PendingKey → Option Bytes}
    (accepted : deserializeExactProof sha256 lib.deserialize digest proofBytes = .ok detached)
    (canonical : lib.serialize detached = proofBytes)
    (fanout : (pendingByKey allowed detached.timestamp).length ≤ maxUpgradeRequests)
    (contained : AlreadyContained lib sha256 allowed detached.timestamp answers) :
    upgradeExactDigest lib sha256 allowed digest proofBytes answers = .ok proofBytes := by
  obtain ⟨⟨_, short⟩, readBack, hashOp, target, valid, within⟩ :=
    deserializeExactProof_iff.1 accepted
  obtain ⟨built, full⟩ := lawful.read readBack
  obtain ⟨builtNext, validNext, merged⟩ := answers_merged lawful answers built valid
  have all : AllValid lib sha256 answers (pendingByKey allowed detached.timestamp) := by
    intro entry member body answered
    obtain ⟨remote, read, _⟩ := contained entry member body answered
    exact ⟨remote, read⟩
  have inside : ∀ a ∈ validAnswers lib sha256 answers (pendingByKey allowed detached.timestamp),
      ContainedAt a.1 a.2 detached.timestamp := by
    intro a member
    obtain ⟨entry, listed, body, answered, read, at'⟩ := mem_validAnswers.1 member
    obtain ⟨remote, readAgain, held⟩ := contained entry listed body answered
    rw [read] at readAgain
    cases readAgain
    rw [at']
    exact held
  have same : SameContents detached.timestamp (mergeAll lib
      (validAnswers lib sha256 answers (pendingByKey allowed detached.timestamp))
        detached.timestamp) := by
    refine ⟨merged.msg.symm, ?_, ?_⟩
    · intro q
      rw [merged.nodes]
      constructor
      · exact Or.inl
      · rintro (known | ⟨a, member, n, known, rfl⟩)
        · exact known
        · exact (inside a member).nodes n known
    · intro m
      rw [merged.marks]
      constructor
      · exact Or.inl
      · rintro (known | ⟨a, member, n, known, rfl⟩)
        · exact known
        · exact (inside a member).marks n known
  refine upgrade_of_written accepted fanout all ?_ accepted
  split
  · rfl
  · obtain ⟨op, tree⟩ := detached
    cases hashOp
    have written := lawful.canonical built builtNext same
    refine (serializeDetached_iff lawful).2 ⟨⟨validNext, ?_⟩, ?_, ?_⟩
    · exact SameContents.within same (lawful.proper built).1 (lawful.proper builtNext).1 within
    · rw [← written, canonical]
      exact short
    · rw [← written, canonical]

/-- An upgrade that returns keeps every attestation, and its result is a fixed point where the
proof was written by the library and not too many calendars are to be asked again. One that
raises leaves the order and its proofs as they are. -/
theorem upgrade_reaches_fixed_point (lawful : Lawful lib sha256) :
    (∀ allowed digest proofBytes upgraded answers,
      upgradeExactDigest lib sha256 allowed digest proofBytes answers = .ok upgraded →
        ∃ before after,
          deserializeExactProof sha256 lib.deserialize digest proofBytes = .ok before ∧
          deserializeExactProof sha256 lib.deserialize digest upgraded = .ok after ∧
          after.timestamp.msg = before.timestamp.msg ∧ WithinLimits after.timestamp ∧
          (∀ pair ∈ before.timestamp.allAttestations, pair ∈ after.timestamp.allAttestations) ∧
          (lib.serialize before = proofBytes →
            (pendingByKey allowed after.timestamp).length ≤ maxUpgradeRequests →
              ∀ again, AlreadyContained lib sha256 allowed after.timestamp again →
                upgradeExactDigest lib sha256 allowed digest upgraded again = .ok upgraded)) ∧
    (∀ (s : Services) (w : World) (envs : List Env),
      w.record.order.fulfillmentState = .calendarPending →
        (∀ env ∈ envs, ∃ e, env.upgrade = .error e) →
          (serve (perform s) (upgradeHandler s) envs w).2.record = w.record) ∧
    (∀ (s : Services) (w : World) (envs : List Env),
      w.record.order.fulfillmentState = .calendarPending →
        (∀ env ∈ envs, ∀ latest, FulfillmentAdapters.latest w.record = some latest →
          env.upgrade = .ok latest.proofBytes) →
            Along (perform s) (fun _ q _ => ∀ proof, q ≠ .append proof) (upgradeHandler s)
              envs w) := by
  refine ⟨?_, ?_, fun s w envs => same_bytes_append_nothing s⟩
  · intro allowed digest proofBytes upgraded answers returned
    obtain ⟨before, after, accepted, read, kept, written⟩ := upgrade_preserves lawful returned
    have beforeFacts := deserializeExactProof_iff.1 accepted
    have afterFacts := deserializeExactProof_iff.1 read
    refine ⟨before, after, accepted, read, ?_, afterFacts.2.2.2.2.2, kept, ?_⟩
    · rw [afterFacts.2.2.2.1, beforeFacts.2.2.2.1]
    · intro canonical fanout again contained
      exact upgrade_contained lawful read (written canonical) fanout contained
  · intro s w envs state raised
    have keeps := raised_upgrade_keeps s state
    exact serve_keeps keeps (along_of_all raised)

/-! ## One calendar of two answers badly -/

def twoPending : List Attestation := [.pending (poolUri 97), .pending (poolUri 98)]

def oneBlock : List Attestation := [.bitcoin 850000]

def twoAllowed : List Bytes := [calendarUrl (poolUri 97), calendarUrl (poolUri 98)]

/-- The library of a proof that two calendars are asked for. -/
def twoCalendars : TimestampLibrary := partsLibrary twoPending oneBlock

def twoTree : Timestamp := partsTree twoPending oneBlock true false

/-- The answer of a calendar that has the block. -/
def blockTree : Timestamp := partsTree twoPending oneBlock false true

def twoUpgraded : Timestamp := partsTree twoPending oneBlock true true

/-- The first calendar has the block; what the second returns is left open. -/
def firstAnswers (second : Option Bytes) (key : PendingKey) : Option Bytes :=
  if key.2 = calendarUrl (poolUri 97) then some (treeBytes blockTree) else second

theorem twoCalendars_parts : TwoParts twoPending oneBlock :=
  ⟨by decide, by decide, by decide, by decide, by decide, by decide +kernel⟩

theorem twoCalendars_lawful : Lawful twoCalendars partsSha256 :=
  partsLibrary_lawful partsSha256 twoCalendars_parts

/-- The keys of the two calendars, and what is read and upgraded. -/
theorem twoCalendars_run :
    (∀ t ∈ [twoTree, twoUpgraded], pendingByKey twoAllowed t =
      [((partsDigest.value, calendarUrl (poolUri 97)), []),
        ((partsDigest.value, calendarUrl (poolUri 98)), [])]) ∧
      (∀ t ∈ [twoTree, twoUpgraded], deserializeExactProof partsSha256 twoCalendars.deserialize
        partsDigest (fileOf t) = .ok ⟨.sha256, t⟩) ∧
      timestampFromBytes twoCalendars partsSha256 partsDigest.value (treeBytes blockTree) =
        .ok blockTree ∧
      upgradeExactDigest twoCalendars partsSha256 twoAllowed partsDigest (fileOf twoTree)
        (firstAnswers none) = .ok (fileOf twoUpgraded) ∧
      upgradeExactDigest twoCalendars partsSha256 twoAllowed partsDigest (fileOf twoTree)
        (firstAnswers (some [7])) = .error (.unavailable "calendar_response_invalid") := by
  decide +kernel

theorem twoCalendars_keys {t : Timestamp} (member : t ∈ [twoTree, twoUpgraded]) :
    pendingByKey twoAllowed t = [((partsDigest.value, calendarUrl (poolUri 97)), []),
      ((partsDigest.value, calendarUrl (poolUri 98)), [])] := twoCalendars_run.1 t member

theorem twoTree_accepted : deserializeExactProof partsSha256 twoCalendars.deserialize partsDigest
    (fileOf twoTree) = .ok ⟨.sha256, twoTree⟩ := twoCalendars_run.2.1 _ List.mem_cons_self

/-- The answer with the block is read. -/
theorem blockTree_read : timestampFromBytes twoCalendars partsSha256 partsDigest.value
    (treeBytes blockTree) = .ok blockTree := twoCalendars_run.2.2.1

/-- A second answer that is missing or no timestamp leaves the union small. -/
theorem twoTree_small : ∀ second ∈ [none, some [7]],
    let answers := validAnswers twoCalendars partsSha256 (firstAnswers second)
      (pendingByKey twoAllowed twoTree)
    (unionNodes twoTree answers).length ≤ maxTimestampNodes ∧
      (unionMarks twoTree answers).length ≤ maxAttestations ∧
      ((unionMarks twoTree answers).countP fun m => isPending m.2) ≤ maxPendingAttestations := by
  decide

theorem twoTree_fits {second : Option Bytes} (invalid : second ∈ [none, some [7]]) :
    UnionFits twoCalendars twoTree (validAnswers twoCalendars partsSha256 (firstAnswers second)
      (pendingByKey twoAllowed twoTree)) := by
  obtain ⟨nodes, marks, pending⟩ := twoTree_small second invalid
  exact ⟨nodes, marks, pending, fun t built _ => parts_short twoCalendars_parts built⟩

theorem one_answer_upgrades : UpgradesEach twoCalendars partsSha256 twoAllowed partsDigest
    (fileOf twoTree) twoTree (firstAnswers none) := by
  have few : (pendingByKey twoAllowed twoTree).length ≤ maxUpgradeRequests := by
    rw [twoCalendars_keys List.mem_cons_self]
    decide
  refine (upgrade_tolerates_iff twoCalendars_lawful twoTree_accepted few
    (twoTree_fits List.mem_cons_self)).2 (Or.inl ?_)
  rintro key body ⟨path, uri, marked, _, rfl⟩ answered
  rcases mem_partsMarks.1 marked with ⟨_, top, _⟩ | ⟨wrong, _⟩
  · have root : path = [] := top
    subst root
    unfold firstAnswers at answered
    split at answered
    · cases answered
      exact ⟨blockTree, blockTree_read⟩
    · cases answered
  · cases wrong

/-- One calendar has the block, the other returns bytes that are no timestamp, and the upgrade
gives nothing. -/
theorem bad_body_loses_the_block :
    Lawful twoCalendars partsSha256 ∧
      deserializeExactProof partsSha256 twoCalendars.deserialize partsDigest (fileOf twoTree) =
        .ok ⟨.sha256, twoTree⟩ ∧
      (pendingByKey twoAllowed twoTree).length = 2 ∧
      UnionFits twoCalendars twoTree (validAnswers twoCalendars partsSha256
        (firstAnswers (some [7])) (pendingByKey twoAllowed twoTree)) ∧
      upgradeExactDigest twoCalendars partsSha256 twoAllowed partsDigest (fileOf twoTree)
        (firstAnswers (some [7])) = .error (.unavailable "calendar_response_invalid") ∧
      ¬UpgradesEach twoCalendars partsSha256 twoAllowed partsDigest (fileOf twoTree) twoTree
        (firstAnswers (some [7])) := by
  have failed := twoCalendars_run.2.2.2.2
  have keys := congrArg List.length (twoCalendars_keys (t := twoTree) List.mem_cons_self)
  refine ⟨twoCalendars_lawful, twoTree_accepted, keys,
    twoTree_fits (List.mem_cons_of_mem _ List.mem_cons_self), failed, ?_⟩
  intro upgrades
  have marked : ([], Attestation.pending (poolUri 97)) ∈ treeMarks twoTree :=
    mem_partsMarks.2 (Or.inl ⟨rfl, rfl, List.mem_cons_self⟩)
  obtain ⟨_, _, returned, _⟩ := upgrades (partsDigest.value, calendarUrl (poolUri 97))
    (treeBytes blockTree) blockTree ⟨[], poolUri 97, marked, by decide, rfl⟩ rfl blockTree_read
  rw [failed] at returned
  cases returned

theorem parts_contained {above below : List Attestation} (first : Bool) :
    ContainedAt [] (partsTree above below first (!first)) (partsTree above below true true) := by
  constructor
  · intro q known
    rcases mem_partsNodes.1 known with rfl | ⟨_, rfl⟩
    · exact mem_partsNodes.2 (Or.inl rfl)
    · exact mem_partsNodes.2 (Or.inr ⟨rfl, rfl⟩)
  · intro m known
    rcases mem_partsMarks.1 known with ⟨_, above⟩ | ⟨_, below⟩
    · exact mem_partsMarks.2 (Or.inl ⟨rfl, above⟩)
    · exact mem_partsMarks.2 (Or.inr ⟨rfl, below⟩)

theorem upgraded_twice :
    upgradeExactDigest twoCalendars partsSha256 twoAllowed partsDigest (fileOf twoTree)
        (firstAnswers none) = .ok (fileOf twoUpgraded) ∧
      upgradeExactDigest twoCalendars partsSha256 twoAllowed partsDigest (fileOf twoUpgraded)
        (firstAnswers none) = .ok (fileOf twoUpgraded) := by
  obtain ⟨_, accept, _, first, _⟩ := twoCalendars_run
  refine ⟨first, ?_⟩
  obtain ⟨before, after, accepted, read, _, _, _, again⟩ :=
    (upgrade_reaches_fixed_point twoCalendars_lawful).1 _ _ _ _ _ first
  cases twoTree_accepted.symm.trans accepted
  have upgraded : twoUpgraded ∈ [twoTree, twoUpgraded] :=
    List.mem_cons_of_mem _ List.mem_cons_self
  cases (accept _ upgraded).symm.trans read
  have entries := twoCalendars_keys upgraded
  have few : (pendingByKey twoAllowed twoUpgraded).length ≤ maxUpgradeRequests := by
    rw [entries]
    decide
  refine again rfl few (firstAnswers none) ?_
  intro entry member body answered
  rw [entries] at member
  rcases List.mem_cons.1 member with rfl | second
  · cases answered
    exact ⟨blockTree, blockTree_read, parts_contained false⟩
  · rw [List.mem_singleton.1 second] at answered
    cases answered

/-! ## Too many calendars afterwards, and a file in another order -/

def eightCalendars : List Bytes := (List.range 8).map fun i => poolUri (UInt8.ofNat (97 + i))

def eightAllowed : List Bytes := eightCalendars.map calendarUrl

/-- The answer of one calendar brings pending attestations of eight. -/
def eightBelow : TimestampLibrary :=
  partsLibrary [.pending (poolUri 97)] (eightCalendars.map Attestation.pending)

def eightTree (first second : Bool) : Timestamp :=
  partsTree [.pending (poolUri 97)] (eightCalendars.map Attestation.pending) first second

theorem eightBelow_parts :
    TwoParts [.pending (poolUri 97)] (eightCalendars.map Attestation.pending) :=
  ⟨by decide, by decide, by decide, by decide, by decide +kernel, by decide +kernel⟩

def rootAnswer (key : PendingKey) : Option Bytes :=
  if key = (partsDigest.value, calendarUrl (poolUri 97)) then
    some (treeBytes (eightTree false true))
  else none

theorem eightBelow_run :
    upgradeExactDigest eightBelow partsSha256 eightAllowed partsDigest
        (fileOf (eightTree true false)) rootAnswer = .ok (fileOf (eightTree true true)) ∧
      upgradeExactDigest eightBelow partsSha256 eightAllowed partsDigest
        (fileOf (eightTree true true)) rootAnswer =
          .error (.unavailable "calendar_upgrade_fanout_exceeded") ∧
      timestampFromBytes eightBelow partsSha256 partsDigest.value
        (treeBytes (eightTree false true)) = .ok (eightTree false true) ∧
      deserializeExactProof partsSha256 eightBelow.deserialize partsDigest
        (fileOf (eightTree true true)) = .ok ⟨.sha256, eightTree true true⟩ := by
  decide +kernel

theorem upgraded_once_only :
    Lawful eightBelow partsSha256 ∧
      upgradeExactDigest eightBelow partsSha256 eightAllowed partsDigest
        (fileOf (eightTree true false)) rootAnswer = .ok (fileOf (eightTree true true)) ∧
      AlreadyContained eightBelow partsSha256 eightAllowed (eightTree true true) rootAnswer ∧
      upgradeExactDigest eightBelow partsSha256 eightAllowed partsDigest
        (fileOf (eightTree true true)) rootAnswer =
          .error (.unavailable "calendar_upgrade_fanout_exceeded") := by
  obtain ⟨first, second, answer, accepted⟩ := eightBelow_run
  refine ⟨partsLibrary_lawful _ eightBelow_parts, first, ?_, second⟩
  intro entry member body answered
  unfold rootAnswer at answered
  split at answered
  · next key =>
    cases answered
    rw [key]
    refine ⟨eightTree false true, answer, ?_⟩
    have valid : ValidTree partsSha256 (eightTree true true) :=
      (deserializeExactProof_iff.1 accepted).2.2.2.2.1
    obtain ⟨_, known, message⟩ := pendingByKey_asked valid member
    rw [key] at message
    rcases mem_partsNodes.1 known with root | ⟨_, child⟩
    · rw [root]
      exact parts_contained false
    · rw [child] at message
      exact absurd message (@leaf_msg_ne [] partsDigest).symm
  · cases answered

/-- The file of the tree with its attestations in the opposite order. -/
def reversedFile : Bytes := fileOf (partsTree twoPending.reverse oneBlock true false)

def ownAnswer (key : PendingKey) : Option Bytes :=
  if key.2 = calendarUrl (poolUri 97) then some (treeBytes twoTree) else none

-- Such a file is returned as it is, and written anew once a body arrives that adds nothing.
example :
    deserializeExactProof partsSha256 twoCalendars.deserialize partsDigest reversedFile =
        .ok ⟨.sha256, twoTree⟩ ∧
      upgradeExactDigest twoCalendars partsSha256 twoAllowed partsDigest reversedFile
        (fun _ => none) = .ok reversedFile ∧
      timestampFromBytes twoCalendars partsSha256 partsDigest.value (treeBytes twoTree) =
        .ok twoTree ∧
      upgradeExactDigest twoCalendars partsSha256 twoAllowed partsDigest reversedFile ownAnswer =
        .ok (fileOf twoTree) ∧
      fileOf twoTree ≠ reversedFile := by
  decide +kernel

end CalendarUpgrades
