import SpacerocksCoa.TreeTraversal
import SpacerocksCoa.ProofRecords
import SpacerocksCoa.Sha256

/-!
# Stamping and upgrading with several calendars

The two operations of the timestamper on whatever the calendars answer: an answer is a body,
or none for a call that raises or finds nothing. The library that reads, merges and writes
timestamps is a parameter; what is relied on is that reading and merging give trees with every
operation and attestation once, that merging forms unions and that what is written depends on
the contents only.

The transport of the calendars is left out. A tree that is changed in place is a tree with
another one under the same node.
-/
namespace CalendarTimestamps
open OrderStates DetachedProofs TimestampContents

structure TimestampLibrary where
  /-- The trees that the library can build. -/
  Built : Timestamp → Prop
  merge : Timestamp → Timestamp → Timestamp
  /-- `Timestamp.deserialize` of a whole body for a message. -/
  parse : Bytes → Bytes → Option Timestamp
  deserialize : Bytes → Option DetachedTimestampFile
  serialize : DetachedTimestampFile → Bytes

inductive CalendarFailure where
  | unavailable (text : String)
  | proof (error : ProofValidationError)
  deriving DecidableEq

def calendarResponseLimit : Nat := 10000
def maxUpgradeRequests : Nat := 8

variable (lib : TimestampLibrary) (sha256 : Bytes → Sha256)

/-- `_timestamp_from_bytes`. -/
def timestampFromBytes (message response : Bytes) : Except CalendarFailure Timestamp :=
  if response = [] ∨ calendarResponseLimit < response.length then
    .error (.unavailable "calendar_response_invalid")
  else
    match lib.parse message response with
    | none => .error (.unavailable "calendar_response_invalid")
    | some timestamp =>
      match validateTimestampTree sha256 timestamp with
      | .error _ => .error (.unavailable "calendar_response_invalid")
      | .ok _ => .ok timestamp

/-- `serialize_detached`. -/
def serializeDetached (detached : DetachedTimestampFile) : Except ProofValidationError Bytes :=
  match validateTimestampTree sha256 detached.timestamp with
  | .error e => .error e
  | .ok _ =>
    if lib.serialize detached = [] ∨ maxProofBytes < (lib.serialize detached).length then
      .error ⟨"proof_size_invalid"⟩
    else .ok (lib.serialize detached)

/-! ## Stamping -/

/-- The loop of `stamp_exact_digest`: the tree and how many responses are merged. -/
def mergeResponses (target : Bytes) :
    List (Option Bytes) → Timestamp → Nat → Timestamp × Nat
  | [], tree, merged => (tree, merged)
  | none :: rest, tree, merged => mergeResponses target rest tree merged
  | some response :: rest, tree, merged =>
    match timestampFromBytes lib sha256 target response with
    | .error _ => mergeResponses target rest tree merged
    | .ok timestamp => mergeResponses target rest (lib.merge tree timestamp) (merged + 1)

/-- `stamp_exact_digest`, with the time at its end. -/
def stampExactDigest (digest : ManifestDigest) (responses : List (Option Bytes)) (now : Instant) :
    Except CalendarFailure (ProofRecords.PendingProof Instant) :=
  let loop := mergeResponses lib sha256 digest.value responses (.node digest.value [] .nil) 0
  if loop.2 = 0 then .error (.unavailable "all_calendars_unavailable")
  else
    match serializeDetached lib sha256 ⟨.sha256, loop.1⟩ with
    | .error e => .error (.proof e)
    | .ok proofBytes =>
      match deserializeExactProof sha256 lib.deserialize digest proofBytes with
      | .error e => .error (.proof e)
      | .ok _ => .ok ⟨proofBytes, now⟩

/-! ## Upgrading -/

def slash : UInt8 := 47

/-- `uri.rstrip("/") + "/"`. -/
def calendarUrl (uri : Bytes) : Bytes :=
  ((uri.reverse.dropWhile fun b => b == slash).reverse) ++ [slash]

mutual

/-- `_walk`: a node before those below it, and its last operation first. -/
def walkTree : Timestamp → List (Path × Timestamp)
  | .node msg attestations ops => ([], .node msg attestations ops) :: walkOps ops

def walkOps : Operations → List (Path × Timestamp)
  | .nil => []
  | .cons op child rest =>
    walkOps rest ++ (walkTree child).map fun entry => (op :: entry.1, entry.2)

end

/-- A commitment and the calendar that is asked for it. -/
abbrev PendingKey := Bytes × Bytes

/-- The keys of one node. -/
def nodeKeys (allowed : List Bytes) (node : Timestamp) : List PendingKey :=
  match node with
  | .node msg attestations _ => attestations.filterMap fun a =>
    match a with
    | .pending uri => if calendarUrl uri ∈ allowed then some (msg, calendarUrl uri) else none
    | _ => none

/-- An entry of a dictionary: a key keeps its place and gets the new node. -/
def setEntry (entries : List (PendingKey × Path)) (key : PendingKey) (path : Path) :
    List (PendingKey × Path) :=
  if entries.any (fun e => e.1 == key) then
    entries.map fun e => if e.1 = key then (key, path) else e
  else entries ++ [(key, path)]

/-- `pending_by_key`. -/
def pendingByKey (allowed : List Bytes) (root : Timestamp) : List (PendingKey × Path) :=
  ((walkTree root).flatMap fun entry =>
    (nodeKeys allowed entry.2).map fun key => (key, entry.1)).foldl
      (fun entries pair => setEntry entries pair.1 pair.2) []

/-- `node.merge(remote)` for a node of the tree. -/
def mergeInto (tree : Timestamp) (path : Path) (remote : Timestamp) : Timestamp :=
  match subtree tree path with
  | none => tree
  | some node => replaceAt (lib.merge node remote) tree path

/-- The loop of `upgrade_exact_digest`; the flag is `changed`. -/
def mergeAnswers (answers : PendingKey → Option Bytes) :
    List (PendingKey × Path) → Timestamp → Bool → Except CalendarFailure (Timestamp × Bool)
  | [], tree, changed => .ok (tree, changed)
  | (key, path) :: rest, tree, changed =>
    match answers key with
    | none => mergeAnswers answers rest tree changed
    | some response =>
      match timestampFromBytes lib sha256 key.1 response with
      | .error e => .error e
      | .ok remote => mergeAnswers answers rest (mergeInto lib tree path remote) true

/-- The bytes of the upgraded tree. -/
def upgradedBytes (detached : DetachedTimestampFile) (proofBytes : Bytes)
    (loop : Timestamp × Bool) : Except ProofValidationError Bytes :=
  if loop.2 then serializeDetached lib sha256 ⟨detached.fileHashOp, loop.1⟩ else .ok proofBytes

/-- `upgrade_exact_digest`. -/
def upgradeExactDigest (allowed : List Bytes) (digest : ManifestDigest) (proofBytes : Bytes)
    (answers : PendingKey → Option Bytes) : Except CalendarFailure Bytes :=
  match deserializeExactProof sha256 lib.deserialize digest proofBytes with
  | .error e => .error (.proof e)
  | .ok detached =>
    let pending := pendingByKey allowed detached.timestamp
    if maxUpgradeRequests < pending.length then
      .error (.unavailable "calendar_upgrade_fanout_exceeded")
    else if pending = [] then .ok proofBytes
    else
      match mergeAnswers lib sha256 answers pending detached.timestamp false with
      | .error e => .error e
      | .ok loop =>
        match upgradedBytes lib sha256 detached proofBytes loop with
        | .error e => .error (.proof e)
        | .ok upgraded =>
          match deserializeExactProof sha256 lib.deserialize digest upgraded with
          | .error e => .error (.proof e)
          | .ok _ => .ok upgraded

/-! ## What is relied on -/

/-- No node without something attested at it or below. -/
def Full (t : Timestamp) : Prop :=
  ∀ path ∈ treeNodes t, ∃ mark ∈ treeMarks t, path <+: mark.1

/-- The documented behaviour of the library. -/
structure Lawful : Prop where
  proper : ∀ {t}, lib.Built t → Proper t ∧ Consistent sha256 t
  root : ∀ digest : ManifestDigest, lib.Built (.node digest.value [] .nil)
  parsed : ∀ {message response t}, lib.parse message response = some t →
    lib.Built t ∧ t.msg = message ∧ Full t
  read : ∀ {bytes detached}, lib.deserialize bytes = some detached →
    lib.Built detached.timestamp ∧ Full detached.timestamp
  /-- Merging forms the union. -/
  merged : ∀ {t s}, lib.Built t → lib.Built s → t.msg = s.msg →
    lib.Built (lib.merge t s) ∧ Grown [] (treeNodes s) (treeMarks s) t (lib.merge t s)
  below : ∀ {t path s}, lib.Built t → subtree t path = some s → lib.Built s
  placed : ∀ {t path s s' nodes marks}, lib.Built t → subtree t path = some s → lib.Built s' →
    Grown [] nodes marks s s' → lib.Built (replaceAt s' t path)
  headed : ∀ detached, lib.serialize detached ≠ []
  /-- What is written is read back. -/
  written : ∀ {t}, lib.Built t → Full t → ValidTree sha256 t →
    WithinLimits t → ∃ detached, lib.deserialize (lib.serialize ⟨.sha256, t⟩) = some detached ∧
      detached.fileHashOp = .sha256 ∧ SameContents t detached.timestamp
  /-- What is written depends on the contents only. -/
  canonical : ∀ {t t'}, lib.Built t → lib.Built t' → SameContents t t' →
    lib.serialize ⟨.sha256, t⟩ = lib.serialize ⟨.sha256, t'⟩

/-! ## Unions -/

/-- A tree with others under nodes of it: what every addition has, at its path. -/
structure Merged (base : Timestamp) (additions : List (Path × Timestamp)) (t : Timestamp) :
    Prop where
  msg : t.msg = base.msg
  nodes : ∀ q, q ∈ treeNodes t ↔
    q ∈ treeNodes base ∨ ∃ a ∈ additions, ∃ n ∈ treeNodes a.2, q = a.1 ++ n
  marks : ∀ m, m ∈ treeMarks t ↔
    m ∈ treeMarks base ∨ ∃ a ∈ additions, ∃ n ∈ treeMarks a.2, m = (a.1 ++ n.1, n.2)

def unionNodes (base : Timestamp) (additions : List (Path × Timestamp)) : List Path :=
  (treeNodes base ++ additions.flatMap fun a => (treeNodes a.2).map (a.1 ++ ·)).dedup

def unionMarks (base : Timestamp) (additions : List (Path × Timestamp)) :
    List (Path × Attestation) :=
  (treeMarks base ++ additions.flatMap fun a =>
    (treeMarks a.2).map fun m => (a.1 ++ m.1, m.2)).dedup

/-- The contents together are within the limits of a proof. -/
structure UnionFits (base : Timestamp) (additions : List (Path × Timestamp)) : Prop where
  nodes : (unionNodes base additions).length ≤ maxTimestampNodes
  marks : (unionMarks base additions).length ≤ maxAttestations
  pending : ((unionMarks base additions).countP fun m => isPending m.2) ≤ maxPendingAttestations
  size : ∀ t, lib.Built t → Merged base additions t →
    (lib.serialize ⟨.sha256, t⟩).length ≤ DetachedProofs.maxProofBytes

/-- The merges of a run, in their order. -/
def mergeAll (additions : List (Path × Timestamp)) (tree : Timestamp) : Timestamp :=
  additions.foldl (fun t a => mergeInto lib t a.1 a.2) tree

/-- A parsed answer for a node of the tree. -/
structure Mergeable (tree : Timestamp) (addition : Path × Timestamp) : Prop where
  known : addition.1 ∈ treeNodes tree
  built : lib.Built addition.2
  valid : ValidTree sha256 addition.2
  msg : addition.2.msg = pathMessage sha256 tree.msg addition.1

variable {lib sha256}

theorem Merged.nil (base : Timestamp) : Merged base [] base := by
  refine ⟨rfl, ?_, ?_⟩
  · intro q
    constructor
    · exact Or.inl
    · rintro (known | ⟨a, member, _⟩)
      · exact known
      · exact absurd member List.not_mem_nil
  · intro m
    constructor
    · exact Or.inl
    · rintro (known | ⟨a, member, _⟩)
      · exact known
      · exact absurd member List.not_mem_nil

theorem Merged.cons {base t t' : Timestamp} {addition : Path × Timestamp}
    {rest : List (Path × Timestamp)}
    (grown : Grown addition.1 (treeNodes addition.2) (treeMarks addition.2) base t)
    (merged : Merged t rest t') : Merged base (addition :: rest) t' := by
  refine ⟨merged.msg.trans grown.msg, ?_, ?_⟩
  · intro q
    rw [merged.nodes, grown.nodes, List.exists_mem_cons_iff, or_assoc]
  · intro m
    rw [merged.marks, grown.marks, List.exists_mem_cons_iff, or_assoc]

theorem Grown.permitted {path : Path} {s t t' : Timestamp}
    (grown : Grown path (treeNodes s) (treeMarks s) t t') (known : path ∈ treeNodes t)
    (old : PermittedContents t) (new : PermittedContents s) : PermittedContents t' := by
  constructor
  · intro mark member
    rcases (grown.marks mark).1 member with before | ⟨n, added, rfl⟩
    · exact old.1 mark before
    · exact new.1 n added
  · intro q member op used
    rcases (grown.nodes q).1 member with before | ⟨n, added, rfl⟩
    · exact old.2 q before op used
    · rcases List.mem_append.1 used with above | below
      · exact old.2 path known op above
      · exact new.2 n added op below

/-- One merge: the tree grows by the answer and is valid again. -/
theorem mergeInto_grown (lawful : Lawful lib sha256) {tree : Timestamp}
    {addition : Path × Timestamp} (built : lib.Built tree) (valid : ValidTree sha256 tree)
    (mergeable : Mergeable lib sha256 tree addition) :
    lib.Built (mergeInto lib tree addition.1 addition.2) ∧
      ValidTree sha256 (mergeInto lib tree addition.1 addition.2) ∧
      Grown addition.1 (treeNodes addition.2) (treeMarks addition.2) tree
        (mergeInto lib tree addition.1 addition.2) := by
  obtain ⟨proper, consistent⟩ := lawful.proper built
  obtain ⟨node, found⟩ := subtree_of_mem tree addition.1 proper mergeable.known
  have same : node.msg = addition.2.msg := by
    rw [mergeable.msg]
    exact subtree_message tree addition.1 node valid found
  obtain ⟨joined, grown⟩ := lawful.merged (lawful.below built found) mergeable.built same
  have placed := lawful.placed built found joined grown
  have whole := replaceAt_grown tree addition.1 node _ _ _ found grown
  have unfolds : mergeInto lib tree addition.1 addition.2 =
      replaceAt (lib.merge node addition.2) tree addition.1 := by
    rw [mergeInto, found]
  rw [unfolds]
  refine ⟨placed, ?_, whole⟩
  rw [validTree_iff _ (lawful.proper placed).2]
  refine Grown.permitted whole mergeable.known ((validTree_iff tree consistent).1 valid) ?_
  exact (validTree_iff addition.2 (lawful.proper mergeable.built).2).1 mergeable.valid

/-- A run of merges gives the union. -/
theorem mergeAll_merged (lawful : Lawful lib sha256) {additions : List (Path × Timestamp)}
    {tree : Timestamp} (built : lib.Built tree) (valid : ValidTree sha256 tree)
    (mergeable : ∀ a ∈ additions, Mergeable lib sha256 tree a) :
    lib.Built (mergeAll lib additions tree) ∧ ValidTree sha256 (mergeAll lib additions tree) ∧
      Merged tree additions (mergeAll lib additions tree) := by
  induction additions generalizing tree with
  | nil => exact ⟨built, valid, Merged.nil tree⟩
  | cons addition rest ih =>
    obtain ⟨builtNext, validNext, grown⟩ :=
      mergeInto_grown lawful built valid (mergeable addition List.mem_cons_self)
    have later : ∀ a ∈ rest,
        Mergeable lib sha256 (mergeInto lib tree addition.1 addition.2) a := by
      intro a member
      obtain ⟨known, remoteBuilt, remoteValid, msg⟩ :=
        mergeable a (List.mem_cons_of_mem _ member)
      refine ⟨(grown.nodes _).2 (Or.inl known), remoteBuilt, remoteValid, ?_⟩
      rw [grown.msg]
      exact msg
    obtain ⟨builtLast, validLast, merged⟩ := ih builtNext validNext later
    exact ⟨builtLast, validLast, Merged.cons grown merged⟩

theorem Merged.contained {base t : Timestamp} {additions : List (Path × Timestamp)}
    (merged : Merged base additions t) {a : Path × Timestamp} (member : a ∈ additions) :
    ContainedAt a.1 a.2 t :=
  ⟨fun q known => (merged.nodes _).2 (Or.inr ⟨a, member, q, known, rfl⟩),
    fun mark known => (merged.marks _).2 (Or.inr ⟨a, member, mark, known, rfl⟩)⟩

theorem Merged.full {base t : Timestamp} {additions : List (Path × Timestamp)}
    (merged : Merged base additions t) (added : ∀ a ∈ additions, Full a.2)
    (old : ∀ q ∈ treeNodes base, ∃ mark ∈ treeMarks t, q <+: mark.1) : Full t := by
  intro q known
  rcases (merged.nodes q).1 known with before | ⟨a, member, n, inside, rfl⟩
  · exact old q before
  · obtain ⟨mark, marked, above⟩ := added a member n inside
    refine ⟨(a.1 ++ mark.1, mark.2), (merged.contained member).marks mark marked, ?_⟩
    exact (List.prefix_append_right_inj a.1).2 above

/-! ## Counting contents -/

theorem perm_of_same {α : Type} {left right : List α} (leftOnce : left.Nodup)
    (rightOnce : right.Nodup) (same : ∀ x, x ∈ left ↔ x ∈ right) : left.Perm right :=
  (List.perm_ext_iff_of_nodup leftOnce rightOnce).2 same

/-- Trees with the same contents are within the limits together. -/
theorem withinLimits_of_perm {t t' : Timestamp} (nodes : (treeNodes t).Perm (treeNodes t'))
    (marks : (treeMarks t).Perm (treeMarks t')) (within : WithinLimits t) : WithinLimits t' := by
  obtain ⟨few, marked, pending⟩ := within
  rw [nodeCount, nodes.length_eq] at few
  rw [markCount, marks.length_eq] at marked
  rw [pendingCount, marks.countP_eq] at pending
  exact ⟨few, marked, pending⟩

theorem SameContents.within {t t' : Timestamp} (same : SameContents t t') (proper : Proper t)
    (proper' : Proper t') (within : WithinLimits t) : WithinLimits t' :=
  withinLimits_of_perm
    (perm_of_same (treeNodes_nodup t proper) (treeNodes_nodup t' proper') same.nodes)
    (perm_of_same (treeMarks_nodup t proper) (treeMarks_nodup t' proper') same.marks) within

theorem SameContents.valid {t t' : Timestamp} (same : SameContents t t')
    (consistent : Consistent sha256 t) (consistent' : Consistent sha256 t')
    (valid : ValidTree sha256 t) : ValidTree sha256 t' := by
  obtain ⟨marks, paths⟩ := (validTree_iff t consistent).1 valid
  refine (validTree_iff t' consistent').2 ⟨?_, ?_⟩
  · intro mark known
    exact marks mark ((same.marks mark).2 known)
  · intro path known
    exact paths path ((same.nodes path).2 known)

theorem mem_unionNodes {base : Timestamp} {additions : List (Path × Timestamp)} {q : Path} :
    q ∈ unionNodes base additions ↔
      q ∈ treeNodes base ∨ ∃ a ∈ additions, ∃ n ∈ treeNodes a.2, q = a.1 ++ n := by
  rw [unionNodes, List.mem_dedup, List.mem_append, List.mem_flatMap]
  simp only [List.mem_map, eq_comm]

theorem mem_unionMarks {base : Timestamp} {additions : List (Path × Timestamp)}
    {m : Path × Attestation} : m ∈ unionMarks base additions ↔
      m ∈ treeMarks base ∨ ∃ a ∈ additions, ∃ n ∈ treeMarks a.2, m = (a.1 ++ n.1, n.2) := by
  rw [unionMarks, List.mem_dedup, List.mem_append, List.mem_flatMap]
  simp only [List.mem_map, eq_comm]

/-- The limits of a union in the lists of its contents. -/
theorem Merged.within_iff {base t : Timestamp} {additions : List (Path × Timestamp)}
    (merged : Merged base additions t) (proper : Proper t) : WithinLimits t ↔
      (unionNodes base additions).length ≤ maxTimestampNodes ∧
        (unionMarks base additions).length ≤ maxAttestations ∧
        ((unionMarks base additions).countP fun m => isPending m.2) ≤ maxPendingAttestations := by
  have nodes : (treeNodes t).Perm (unionNodes base additions) :=
    perm_of_same (treeNodes_nodup t proper) (List.nodup_dedup _) fun q =>
      (merged.nodes q).trans mem_unionNodes.symm
  have marks : (treeMarks t).Perm (unionMarks base additions) :=
    perm_of_same (treeMarks_nodup t proper) (List.nodup_dedup _) fun m =>
      (merged.marks m).trans mem_unionMarks.symm
  rw [WithinLimits, nodeCount, markCount, pendingCount, nodes.length_eq, marks.length_eq,
    marks.countP_eq]

theorem Merged.same {base t t' : Timestamp} {additions : List (Path × Timestamp)}
    (merged : Merged base additions t) (merged' : Merged base additions t') :
    SameContents t t' :=
  ⟨merged.msg.trans merged'.msg.symm, fun q => (merged.nodes q).trans (merged'.nodes q).symm,
    fun m => (merged.marks m).trans (merged'.marks m).symm⟩

/-- The union fits when one tree with its contents does. -/
theorem unionFits_iff (lawful : Lawful lib sha256) {base t : Timestamp}
    {additions : List (Path × Timestamp)} (built : lib.Built t)
    (merged : Merged base additions t) : UnionFits lib base additions ↔
      WithinLimits t ∧ (lib.serialize ⟨.sha256, t⟩).length ≤ DetachedProofs.maxProofBytes := by
  rw [merged.within_iff (lawful.proper built).1]
  constructor
  · rintro ⟨nodes, marks, pending, size⟩
    exact ⟨⟨nodes, marks, pending⟩, size t built merged⟩
  · rintro ⟨⟨nodes, marks, pending⟩, short⟩
    refine ⟨nodes, marks, pending, ?_⟩
    intro t' built' merged'
    rw [lawful.canonical built' built (merged'.same merged)]
    exact short

/-! ## Writing and reading -/

theorem deserializeExactProof_iff {deserialize : Bytes → Option DetachedTimestampFile}
    {digest : ManifestDigest} {proofBytes : Bytes} {detached : DetachedTimestampFile} :
    deserializeExactProof sha256 deserialize digest proofBytes = .ok detached ↔
      (proofBytes ≠ [] ∧ proofBytes.length ≤ DetachedProofs.maxProofBytes) ∧
        deserialize proofBytes = some detached ∧ detached.fileHashOp = .sha256 ∧
        detached.timestamp.msg = digest.value ∧ ValidTree sha256 detached.timestamp ∧
        WithinLimits detached.timestamp := by
  constructor
  · intro accepted
    have facts := deserializeExactProof_commits accepted
    obtain ⟨read, hashOp, target, _⟩ := facts
    unfold deserializeExactProof at accepted
    by_cases size : proofBytes = [] ∨ DetachedProofs.maxProofBytes < proofBytes.length
    · rw [if_pos size] at accepted
      cases accepted
    · rw [if_neg size, read] at accepted
      simp only [hashOp, target, ne_eq, not_true_eq_false, if_false] at accepted
      cases checked : validateTimestampTree sha256 detached.timestamp with
      | error e =>
        rw [checked] at accepted
        cases accepted
      | ok counts =>
        obtain ⟨valid, within⟩ := TreeTraversal.validateTimestampTree_iff.1 ⟨counts, checked⟩
        exact ⟨⟨fun empty => size (Or.inl empty), by omega⟩, read, hashOp, target, valid, within⟩
  · rintro ⟨⟨nonempty, short⟩, read, hashOp, target, valid, within⟩
    obtain ⟨counts, checked⟩ := TreeTraversal.validateTimestampTree_iff.2 ⟨valid, within⟩
    unfold deserializeExactProof
    have size : ¬(proofBytes = [] ∨ DetachedProofs.maxProofBytes < proofBytes.length) := by
      rintro (empty | long)
      · exact nonempty empty
      · omega
    rw [if_neg size, read]
    simp only [hashOp, target, ne_eq, not_true_eq_false, if_false, checked]

theorem serializeDetached_iff (lawful : Lawful lib sha256) {detached : DetachedTimestampFile}
    {bytes : Bytes} : serializeDetached lib sha256 detached = .ok bytes ↔
      (ValidTree sha256 detached.timestamp ∧ WithinLimits detached.timestamp) ∧
        (lib.serialize detached).length ≤ DetachedProofs.maxProofBytes ∧
        bytes = lib.serialize detached := by
  unfold serializeDetached
  rw [← TreeTraversal.validateTimestampTree_iff]
  cases validateTimestampTree sha256 detached.timestamp with
  | error e =>
    constructor
    · intro failed
      cases failed
    · rintro ⟨⟨_, failed⟩, _⟩
      cases failed
  | ok counts =>
    have headed := lawful.headed detached
    by_cases long : DetachedProofs.maxProofBytes < (lib.serialize detached).length
    · simp only [long, or_true, if_true]
      constructor
      · intro failed
        cases failed
      · rintro ⟨_, short, _⟩
        omega
    · simp only [long, headed, or_self, if_false]
      constructor
      · intro same
        cases same
        exact ⟨⟨counts, rfl⟩, by omega, rfl⟩
      · rintro ⟨_, _, rfl⟩
        rfl

/-- What is written for a tree is a proof with the contents of the tree. -/
theorem serialized_reads (lawful : Lawful lib sha256) {digest : ManifestDigest} {t : Timestamp}
    {bytes : Bytes} (built : lib.Built t) (full : Full t) (target : t.msg = digest.value)
    (written : serializeDetached lib sha256 ⟨.sha256, t⟩ = .ok bytes) :
    ∃ detached, deserializeExactProof sha256 lib.deserialize digest bytes = .ok detached ∧
      SameContents t detached.timestamp := by
  obtain ⟨⟨valid, within⟩, short, rfl⟩ := (serializeDetached_iff lawful).1 written
  obtain ⟨detached, read, hashOp, same⟩ := lawful.written built full valid within
  obtain ⟨builtAgain, _⟩ := lawful.read read
  obtain ⟨proper, consistent⟩ := lawful.proper built
  obtain ⟨proper', consistent'⟩ := lawful.proper builtAgain
  refine ⟨detached, deserializeExactProof_iff.2 ⟨⟨lawful.headed _, short⟩, read, hashOp, ?_, ?_,
    ?_⟩, same⟩
  · rw [← same.msg]
    exact target
  · exact SameContents.valid same consistent consistent' valid
  · exact SameContents.within same proper proper' within

theorem timestampFromBytes_ok (lawful : Lawful lib sha256) {message response : Bytes}
    {t : Timestamp} (read : timestampFromBytes lib sha256 message response = .ok t) :
    lib.Built t ∧ t.msg = message ∧ Full t ∧ ValidTree sha256 t := by
  unfold timestampFromBytes at read
  split at read
  · cases read
  · split at read
    · cases read
    · next parsed =>
      split at read
      · cases read
      · next checked =>
        cases read
        obtain ⟨built, msg, full⟩ := lawful.parsed parsed
        exact ⟨built, msg, full, (TreeTraversal.validateTimestampTree_iff.1 ⟨_, checked⟩).1⟩

/-- A tree that has the contents of a valid one below a node attests what that attests. -/
theorem attestations_of_contained {s t : Timestamp} {path : Path}
    (contained : ContainedAt path s t) (validS : ValidTree sha256 s) (validT : ValidTree sha256 t)
    (msg : s.msg = pathMessage sha256 t.msg path) :
    ∀ pair ∈ s.allAttestations, pair ∈ t.allAttestations := by
  rintro ⟨m, a⟩ member
  obtain ⟨q, marked, rfl⟩ := (mem_allAttestations s validS m a).1 member
  refine (mem_allAttestations t validT _ a).2 ⟨path ++ q, contained.marks _ marked, ?_⟩
  rw [msg]
  exact (List.foldl_append ..).symm

theorem SameContents.contained {s t t' : Timestamp} {path : Path} (same : SameContents t t')
    (contained : ContainedAt path s t) : ContainedAt path s t' :=
  ⟨fun q known => (same.nodes _).1 (contained.nodes q known),
    fun mark known => (same.marks _).1 (contained.marks mark known)⟩

/-! ## How trees are written -/

/-- An unsigned integer in groups of seven bits, the lowest first; ten groups are enough for
64 bits. -/
def varuint : Nat → Nat → Bytes
  | 0, _ => []
  | groups + 1, n =>
    if n < 128 then [UInt8.ofNat n] else UInt8.ofNat (n % 128 + 128) :: varuint groups (n / 128)

def varbytes (bytes : Bytes) : Bytes := varuint 10 bytes.length ++ bytes

def attestationBytes : Attestation → Bytes
  | .bitcoin height => [5, 136, 150, 13, 115, 215, 25, 1] ++ varbytes (varuint 10 height)
  | .pending uri => [131, 223, 227, 13, 46, 249, 12, 142] ++ varbytes (varbytes uri)
  | .other tag => tag ++ varbytes []

def opBytes : TimestampOp → Bytes
  | .append argument => 240 :: varbytes argument
  | .prepend argument => 241 :: varbytes argument
  | .sha256 => [8]
  | .other tag => [UInt8.ofNat tag]

/-- Every item but the last is announced. -/
def announced : List Bytes → Bytes
  | [] => []
  | [last] => last
  | item :: rest => 255 :: item ++ announced rest

mutual

/-- A tree whose attestations and operations stand in the library's order. -/
def treeBytes : Timestamp → Bytes
  | .node _ attestations ops =>
    announced (attestations.map (fun a => 0 :: attestationBytes a) ++ branches ops)

def branches : Operations → List Bytes
  | .nil => []
  | .cons op child rest => (opBytes op ++ treeBytes child) :: branches rest

end

/-- The magic bytes of a detached proof and its version. -/
def detachedHeader : Bytes :=
  [0, 79, 112, 101, 110, 84, 105, 109, 101, 115, 116, 97, 109, 112, 115, 0, 0, 80,
    114, 111, 111, 102, 0, 191, 137, 226, 232, 132, 232, 146, 148, 1]

def detachedBytes (detached : DetachedTimestampFile) : Bytes :=
  detachedHeader ++ opBytes detached.fileHashOp ++ detached.timestamp.msg ++
    treeBytes detached.timestamp

/-! ## A library of trees in two parts

The trees of one digest with attestations at the root, with attestations below an appended
byte or with both, as they are written; the file of the root's attestations is also read when
they stand in the opposite order.
-/

/-- SHA-256 of no bytes. -/
def partsDigest : ManifestDigest :=
  ⟨[227, 176, 196, 66, 152, 252, 28, 20, 154, 251, 244, 200, 153, 111, 185, 36, 39, 174, 65,
    228, 100, 155, 147, 76, 164, 149, 153, 27, 120, 82, 184, 85], rfl⟩

def partsOp : TimestampOp := .append [1]

def leaf (below : List Attestation) : Timestamp := .node (partsDigest.value ++ [1]) below .nil

def partsTree (above below : List Attestation) (first second : Bool) : Timestamp :=
  .node partsDigest.value (if first then above else [])
    (if second then .cons partsOp (leaf below) .nil else .nil)

def hasAbove : Timestamp → Bool
  | .node _ attestations _ => !attestations.isEmpty

def hasBelow : Timestamp → Bool
  | .node _ _ ops => !ops.toList.isEmpty

def partsMerge (above below : List Attestation) (t s : Timestamp) : Timestamp :=
  if t.msg = partsDigest.value then
    partsTree above below (hasAbove t || hasAbove s) (hasBelow t || hasBelow s)
  else t

def partsTrees (above below : List Attestation) : List Timestamp :=
  [partsTree above below true false, partsTree above below false true,
    partsTree above below true true, leaf below]

/-- The file of a tree of the digest. -/
def fileOf (t : Timestamp) : Bytes := detachedBytes ⟨.sha256, t⟩

/-- The files that are read, with their trees. -/
def partsFiles (above below : List Attestation) : List (Bytes × Timestamp) :=
  (partsTrees above below).map (fun t => (fileOf t, t)) ++
    [(fileOf (partsTree above.reverse below true false), partsTree above below true false)]

def partsLibrary (above below : List Attestation) : TimestampLibrary where
  Built t := (∃ digest : ManifestDigest, t = .node digest.value [] .nil) ∨
    (∃ first second, t = partsTree above below first second) ∨ t = leaf below
  merge := partsMerge above below
  parse message bytes :=
    (partsTrees above below).find? fun t => t.msg == message && treeBytes t == bytes
  deserialize bytes := ((partsFiles above below).find? fun file => file.1 == bytes).map
    fun file => ⟨.sha256, file.2⟩
  serialize := detachedBytes

def partsSha256 (bytes : Bytes) : Sha256 := ⟨Sha256.sha256 bytes, Sha256.sha256_length bytes⟩

/-- The address of a calendar of the pool, which has a letter as its name. -/
def poolUri (calendar : UInt8) : Bytes :=
  [104, 116, 116, 112, 115, 58, 47, 47, calendar, 46, 112, 111, 111, 108, 46, 111, 112, 101, 110,
    116, 105, 109, 101, 115, 116, 97, 109, 112, 115, 46, 111, 114, 103]

/-- Attestations that make trees in two parts, whose files tell them apart and are no longer than
a proof may be. -/
structure TwoParts (above below : List Attestation) : Prop where
  someAbove : above ≠ []
  someBelow : below ≠ []
  aboveOnce : above.Nodup
  belowOnce : below.Nodup
  told : ∀ file ∈ partsFiles above below, ∀ file' ∈ partsFiles above below,
    file.1 = file'.1 → file.2 = file'.2
  short : ∀ t ∈ partsTrees above below, (fileOf t).length ≤ DetachedProofs.maxProofBytes

section Parts

variable {above below : List Attestation}

theorem leaf_msg_ne (digest : ManifestDigest) : (leaf below).msg ≠ digest.value := by
  intro same
  have lengths := congrArg List.length same
  have longer : (leaf below).msg.length = 33 := rfl
  rw [digest.length] at lengths
  omega

theorem hasAbove_parts (someAbove : above ≠ []) (first second : Bool) :
    hasAbove (partsTree above below first second) = first := by
  cases above with
  | nil => exact absurd rfl someAbove
  | cons a rest => cases first <;> rfl

theorem hasBelow_parts (first second : Bool) :
    hasBelow (partsTree above below first second) = second := by
  cases second <;> rfl

theorem merge_parts (someAbove : above ≠ []) (a b a' b' : Bool) :
    partsMerge above below (partsTree above below a b) (partsTree above below a' b') =
      partsTree above below (a || a') (b || b') := by
  rw [partsMerge, hasAbove_parts someAbove, hasAbove_parts someAbove, hasBelow_parts,
    hasBelow_parts]
  exact if_pos rfl

theorem mem_partsNodes {first second : Bool} {q : Path} :
    q ∈ treeNodes (partsTree above below first second) ↔
      q = [] ∨ (second = true ∧ q = [partsOp]) := by
  cases second <;>
    simp [partsTree, leaf, treeNodes, opNodes]

theorem mem_partsMarks {first second : Bool} {m : Path × Attestation} :
    m ∈ treeMarks (partsTree above below first second) ↔
      (first = true ∧ m.1 = [] ∧ m.2 ∈ above) ∨
        (second = true ∧ m.1 = [partsOp] ∧ m.2 ∈ below) := by
  obtain ⟨q, a⟩ := m
  cases first <;> cases second <;>
    simp [partsTree, leaf, treeMarks, opMarks, eq_comm, and_comm]

theorem mem_leafMarks {m : Path × Attestation} :
    m ∈ treeMarks (leaf below) ↔ m.1 = [] ∧ m.2 ∈ below := by
  obtain ⟨q, a⟩ := m
  simp [leaf, treeMarks, opMarks, eq_comm, and_comm]

/-- The trees of a message that can be merged with one another. -/
theorem built_same {t s : Timestamp} (builtT : (partsLibrary above below).Built t)
    (builtS : (partsLibrary above below).Built s) (same : t.msg = s.msg) :
    (∃ a b a' b', t = partsTree above below a b ∧ s = partsTree above below a' b') ∨
      (s = t ∧ t.msg ≠ partsDigest.value) := by
  have classify : ∀ {u : Timestamp}, (partsLibrary above below).Built u →
      (∃ a b, u = partsTree above below a b) ∨
        (u.msg ≠ partsDigest.value ∧
          (u = leaf below ∨ ∃ digest : ManifestDigest, u = .node digest.value [] .nil)) := by
    rintro u (⟨digest, rfl⟩ | tree | rfl)
    · by_cases known : digest.value = partsDigest.value
      · refine Or.inl ⟨false, false, ?_⟩
        rw [known]
        rfl
      · exact Or.inr ⟨known, Or.inr ⟨digest, rfl⟩⟩
    · exact Or.inl tree
    · exact Or.inr ⟨leaf_msg_ne partsDigest, Or.inl rfl⟩
  rcases classify builtT with ⟨a, b, rfl⟩ | ⟨differs, kindT⟩
  · rcases classify builtS with ⟨a', b', rfl⟩ | ⟨differs, _⟩
    · exact Or.inl ⟨a, b, a', b', rfl, rfl⟩
    · exact absurd same.symm differs
  · rcases classify builtS with ⟨a', b', rfl⟩ | ⟨_, kindS⟩
    · exact absurd same differs
    · refine Or.inr ⟨?_, differs⟩
      rcases kindT with rfl | ⟨digest, rfl⟩
      · rcases kindS with rfl | ⟨other, rfl⟩
        · rfl
        · exact absurd same (leaf_msg_ne other)
      · rcases kindS with rfl | ⟨other, rfl⟩
        · exact absurd same.symm (leaf_msg_ne digest)
        · have values : other.value = digest.value := same.symm
          rw [values]

theorem Grown.refl (t : Timestamp) : Grown [] (treeNodes t) (treeMarks t) t t := by
  refine ⟨rfl, ?_, ?_⟩
  · intro q
    constructor
    · exact Or.inl
    · rintro (known | ⟨n, known, rfl⟩)
      · exact known
      · exact known
  · intro m
    constructor
    · exact Or.inl
    · rintro (known | ⟨n, known, rfl⟩)
      · exact known
      · exact known

theorem parts_merged (someAbove : above ≠ []) {t s : Timestamp}
    (builtT : (partsLibrary above below).Built t) (builtS : (partsLibrary above below).Built s)
    (same : t.msg = s.msg) : (partsLibrary above below).Built (partsMerge above below t s) ∧
      Grown [] (treeNodes s) (treeMarks s) t (partsMerge above below t s) := by
  rcases built_same builtT builtS same with ⟨a, b, a', b', rfl, rfl⟩ | ⟨rfl, differs⟩
  · rw [merge_parts someAbove]
    refine ⟨Or.inr (Or.inl ⟨_, _, rfl⟩), rfl, ?_, ?_⟩
    · intro q
      simp only [mem_partsNodes, Bool.or_eq_true, List.nil_append, exists_eq_right']
      rw [or_and_right, or_or_or_comm, or_self]
    · rintro ⟨q, x⟩
      simp only [mem_partsMarks, Bool.or_eq_true, List.nil_append, Prod.mk.eta, exists_eq_right']
      rw [or_and_right, or_and_right, or_or_or_comm]
  · rw [partsMerge, if_neg differs]
    exact ⟨builtT, Grown.refl s⟩

theorem leaf_proper (sha256 : Bytes → Sha256) (belowOnce : below.Nodup) :
    Proper (leaf below) ∧ Consistent sha256 (leaf below) :=
  ⟨⟨belowOnce, List.nodup_nil, trivial⟩, trivial⟩

theorem parts_proper (sha256 : Bytes → Sha256) (aboveOnce : above.Nodup)
    (belowOnce : below.Nodup) {t : Timestamp} (built : (partsLibrary above below).Built t) :
    Proper t ∧ Consistent sha256 t := by
  rcases built with ⟨digest, rfl⟩ | ⟨first, second, rfl⟩ | rfl
  · exact ⟨⟨List.nodup_nil, List.nodup_nil, trivial⟩, trivial⟩
  · have once : (if first then above else []).Nodup := by
      cases first
      · exact List.nodup_nil
      · exact aboveOnce
    cases second
    · exact ⟨⟨once, List.nodup_nil, trivial⟩, trivial⟩
    · refine ⟨⟨once, List.nodup_singleton _, (leaf_proper sha256 belowOnce).1, trivial⟩, ?_⟩
      exact ⟨fun _ => rfl, (leaf_proper sha256 belowOnce).2, trivial⟩
  · exact leaf_proper sha256 belowOnce

theorem parts_below {t s : Timestamp} {path : Path}
    (built : (partsLibrary above below).Built t) (found : subtree t path = some s) :
    (path = [] ∧ s = t) ∨ (path = [partsOp] ∧ s = leaf below) := by
  cases path with
  | nil =>
    obtain ⟨msg, attestations, ops⟩ := t
    cases found
    exact Or.inl ⟨rfl, rfl⟩
  | cons op rest =>
    rcases built with ⟨digest, rfl⟩ | ⟨first, second, rfl⟩ | rfl
    · cases found
    · cases second
      · cases found
      · simp only [partsTree, if_true, subtree, opSubtree] at found
        split at found
        · next same =>
          cases rest with
          | nil =>
            cases found
            rw [← same]
            exact Or.inr ⟨rfl, rfl⟩
          | cons next others => cases found
        · cases found
    · cases found

theorem parts_full {t : Timestamp} (parts : TwoParts above below)
    (listed : t ∈ partsTrees above below) : (partsLibrary above below).Built t ∧ Full t := by
  obtain ⟨a, marksAbove⟩ := List.exists_mem_of_ne_nil above parts.someAbove
  obtain ⟨b, marksBelow⟩ := List.exists_mem_of_ne_nil below parts.someBelow
  have tree : ∀ first second : Bool, (first || second) = true →
      Full (partsTree above below first second) := by
    intro first second some q known
    rw [mem_partsNodes] at known
    cases second
    · have top : first = true := by simpa using some
      rcases known with rfl | ⟨wrong, _⟩
      · exact ⟨([], a), mem_partsMarks.2 (Or.inl ⟨top, rfl, marksAbove⟩), List.nil_prefix⟩
      · cases wrong
    · have mark : ([partsOp], b) ∈ treeMarks (partsTree above below first true) :=
        mem_partsMarks.2 (Or.inr ⟨rfl, rfl, marksBelow⟩)
      rcases known with rfl | ⟨_, rfl⟩
      · exact ⟨_, mark, List.nil_prefix⟩
      · exact ⟨_, mark, List.prefix_rfl⟩
  simp only [partsTrees, List.mem_cons, List.not_mem_nil, or_false] at listed
  rcases listed with rfl | rfl | rfl | rfl
  · exact ⟨Or.inr (Or.inl ⟨_, _, rfl⟩), tree _ _ rfl⟩
  · exact ⟨Or.inr (Or.inl ⟨_, _, rfl⟩), tree _ _ rfl⟩
  · exact ⟨Or.inr (Or.inl ⟨_, _, rfl⟩), tree _ _ rfl⟩
  · refine ⟨Or.inr (Or.inr rfl), ?_⟩
    intro q known
    simp only [leaf, treeNodes, opNodes, List.mem_singleton] at known
    subst known
    exact ⟨([], b), mem_leafMarks.2 ⟨rfl, marksBelow⟩, List.nil_prefix⟩

/-- A tree with something attested everywhere is one of the four. -/
theorem parts_listed {t : Timestamp} (built : (partsLibrary above below).Built t)
    (full : Full t) : t ∈ partsTrees above below := by
  have nothing : ∀ msg, ¬Full (.node msg [] .nil) := by
    intro msg held
    obtain ⟨mark, member, _⟩ := held [] (root_mem _)
    exact absurd member List.not_mem_nil
  simp only [partsTrees, List.mem_cons, List.not_mem_nil, or_false]
  rcases built with ⟨digest, rfl⟩ | ⟨first, second, rfl⟩ | rfl
  · exact absurd full (nothing _)
  · cases first
    · cases second
      · exact absurd full (nothing _)
      · exact Or.inr (Or.inl rfl)
    · cases second
      · exact Or.inl rfl
      · exact Or.inr (Or.inr (Or.inl rfl))
  · exact Or.inr (Or.inr (Or.inr rfl))

/-- Every file is that of one of the four trees. -/
theorem tree_of_file {file : Bytes × Timestamp} (listed : file ∈ partsFiles above below) :
    file.2 ∈ partsTrees above below := by
  rcases List.mem_append.1 listed with written | reversed
  · obtain ⟨t, known, rfl⟩ := List.mem_map.1 written
    exact known
  · rw [List.mem_singleton.1 reversed]
    exact List.mem_cons_self

/-- What is written is read back. -/
theorem deserialize_file (parts : TwoParts above below) {t : Timestamp}
    (listed : t ∈ partsTrees above below) :
    (partsLibrary above below).deserialize (fileOf t) = some ⟨.sha256, t⟩ := by
  have written : (fileOf t, t) ∈ partsFiles above below :=
    List.mem_append_left _ (List.mem_map_of_mem listed)
  have found : ((partsFiles above below).find? fun file => file.1 == fileOf t).isSome :=
    List.find?_isSome.2 ⟨_, written, beq_self_eq_true _⟩
  obtain ⟨file, here⟩ := Option.isSome_iff_exists.1 found
  have bytes := List.find?_some here
  have same := parts.told file (List.mem_of_find?_eq_some here) _ written (eq_of_beq bytes)
  change (List.find? _ _).map _ = _
  rw [here, Option.map_some, same]

/-- The contents say which parts there are. -/
theorem parts_same {t t' : Timestamp} (parts : TwoParts above below)
    (built : (partsLibrary above below).Built t) (built' : (partsLibrary above below).Built t')
    (same : SameContents t t') : t = t' := by
  rcases built_same built built' same.msg with ⟨a, b, a', b', rfl, rfl⟩ | ⟨rfl, _⟩
  · obtain ⟨x, marksAbove⟩ := List.exists_mem_of_ne_nil above parts.someAbove
    have first := same.marks ([], x)
    have second := same.nodes [partsOp]
    simp only [mem_partsMarks, mem_partsNodes] at first second
    have equalA : a = a' := by
      cases a <;> cases a' <;> simp_all
    have equalB : b = b' := by
      cases b <;> cases b' <;> simp_all
    rw [equalA, equalB]
  · rfl

theorem parts_short (parts : TwoParts above below) {t : Timestamp}
    (built : (partsLibrary above below).Built t) :
    (fileOf t).length ≤ DetachedProofs.maxProofBytes := by
  have empty : ∀ digest : ManifestDigest,
      (fileOf (.node digest.value [] .nil)).length ≤ DetachedProofs.maxProofBytes := by
    intro digest
    change (detachedHeader ++ [8] ++ digest.value ++ []).length ≤ 262144
    rw [List.append_nil, List.length_append, digest.length]
    decide
  rcases built with ⟨digest, rfl⟩ | ⟨first, second, rfl⟩ | rfl
  · exact empty digest
  · have member : (first || second) = true →
        partsTree above below first second ∈ partsTrees above below := by
      cases first <;> cases second <;> simp [partsTrees]
    cases some : first || second
    · obtain ⟨rfl, rfl⟩ := Bool.or_eq_false_iff.1 some
      exact empty partsDigest
    · exact parts.short _ (member some)
  · exact parts.short _ (by simp [partsTrees])

theorem partsLibrary_lawful (sha256 : Bytes → Sha256) (parts : TwoParts above below) :
    Lawful (partsLibrary above below) sha256 where
  proper built := parts_proper sha256 parts.aboveOnce parts.belowOnce built
  root digest := Or.inl ⟨digest, rfl⟩
  parsed {message response t} read := by
    change (partsTrees above below).find? (fun t => t.msg == message && treeBytes t == response) =
      some t at read
    have same := List.find?_some read
    obtain ⟨built, full⟩ := parts_full parts (List.mem_of_find?_eq_some read)
    exact ⟨built, eq_of_beq (Bool.and_eq_true_iff.1 same).1, full⟩
  read found := by
    obtain ⟨file, read, same⟩ := Option.map_eq_some_iff.1 found
    cases same
    exact parts_full parts (tree_of_file (List.mem_of_find?_eq_some read))
  merged builtT builtS same := parts_merged parts.someAbove builtT builtS same
  below built found := by
    rcases parts_below built found with ⟨_, rfl⟩ | ⟨_, rfl⟩
    · exact built
    · exact Or.inr (Or.inr rfl)
  placed {t path s s' nodes marks} built found built' grown := by
    rcases parts_below built found with ⟨rfl, rfl⟩ | ⟨rfl, rfl⟩
    · obtain ⟨msg, attestations, ops⟩ := s
      exact built'
    · have leaves : s' = leaf below := by
        rcases built_same (Or.inr (Or.inr rfl)) built' grown.msg.symm with
          ⟨a, b, _, _, wrong, _⟩ | ⟨same, _⟩
        · exact absurd (congrArg Timestamp.msg wrong) (leaf_msg_ne partsDigest)
        · exact same
      subst leaves
      rcases built with ⟨digest, rfl⟩ | ⟨first, second, rfl⟩ | rfl
      · cases found
      · cases second
        · cases found
        · exact Or.inr (Or.inl ⟨first, true, rfl⟩)
      · cases found
  headed detached := List.cons_ne_nil _ _
  written {t} built full valid within :=
    ⟨⟨.sha256, t⟩, deserialize_file parts (parts_listed built full), rfl, rfl,
      fun _ => Iff.rfl, fun _ => Iff.rfl⟩
  canonical built built' same := by
    rw [parts_same parts built built' same]

end Parts

end CalendarTimestamps
