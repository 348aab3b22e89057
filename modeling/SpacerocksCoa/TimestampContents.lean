import SpacerocksCoa.DetachedProofs
import Mathlib.Data.List.Dedup

/-!
# The contents of a timestamp tree

A node is named by the operations that lead to it, since a tree has every operation of a node
once. The contents of a tree are its nodes and its marks, the attestations with their nodes.
Validation is a statement about both: every operation and attestation is of a kind that is
taken, every message follows from its operation, and there are not too many of them.
-/
namespace TimestampContents
open OrderStates DetachedProofs

abbrev Path := List TimestampOp

mutual

/-- The nodes of a tree. -/
def treeNodes : Timestamp → List Path
  | .node _ _ ops => [] :: opNodes ops

def opNodes : Operations → List Path
  | .nil => []
  | .cons op child rest => (treeNodes child).map (op :: ·) ++ opNodes rest

end

mutual

/-- The attestations of a tree with their nodes. -/
def treeMarks : Timestamp → List (Path × Attestation)
  | .node _ attestations ops => attestations.map (fun a => ([], a)) ++ opMarks ops

def opMarks : Operations → List (Path × Attestation)
  | .nil => []
  | .cons op child rest =>
    (treeMarks child).map (fun mark => (op :: mark.1, mark.2)) ++ opMarks rest

end

mutual

/-- The tree under a node. -/
def subtree : Timestamp → Path → Option Timestamp
  | .node msg attestations ops, path =>
    match path with
    | [] => some (.node msg attestations ops)
    | op :: rest => opSubtree ops op rest

def opSubtree : Operations → TimestampOp → Path → Option Timestamp
  | .nil, _, _ => none
  | .cons key child rest, op, path =>
    if key = op then subtree child path else opSubtree rest op path

end

mutual

/-- The tree with another tree under a node. -/
def replaceAt (replacement : Timestamp) : Timestamp → Path → Timestamp
  | .node msg attestations ops, path =>
    match path with
    | [] => replacement
    | op :: rest => .node msg attestations (opReplaceAt replacement ops op rest)

def opReplaceAt (replacement : Timestamp) : Operations → TimestampOp → Path → Operations
  | .nil, _, _ => .nil
  | .cons key child rest, op, path =>
    if key = op then .cons key (replaceAt replacement child path) rest
    else .cons key child (opReplaceAt replacement rest op path)

end

/-- Two trees with the same message, nodes and marks. -/
structure SameContents (t t' : Timestamp) : Prop where
  msg : t.msg = t'.msg
  nodes : ∀ path, path ∈ treeNodes t ↔ path ∈ treeNodes t'
  marks : ∀ mark, mark ∈ treeMarks t ↔ mark ∈ treeMarks t'

/-- The contents of a tree lie in those of another below a node of it. -/
structure ContainedAt (path : Path) (s t : Timestamp) : Prop where
  nodes : ∀ q ∈ treeNodes s, path ++ q ∈ treeNodes t
  marks : ∀ mark ∈ treeMarks s, (path ++ mark.1, mark.2) ∈ treeMarks t

theorem root_mem (t : Timestamp) : [] ∈ treeNodes t := by
  obtain ⟨msg, attestations, ops⟩ := t
  exact List.mem_cons_self

theorem mem_opNodes : ∀ (ops : Operations) (path : Path), path ∈ opNodes ops ↔
    ∃ pair ∈ ops.toList, ∃ q ∈ treeNodes pair.2, path = pair.1 :: q
  | .nil, path => by
    constructor
    · intro member
      exact absurd member List.not_mem_nil
    · rintro ⟨pair, member, _⟩
      exact absurd member List.not_mem_nil
  | .cons op child rest, path => by
    rw [opNodes, List.mem_append, List.mem_map, mem_opNodes rest path, Operations.toList]
    constructor
    · rintro (⟨q, known, rfl⟩ | ⟨pair, member, q, known, rfl⟩)
      · exact ⟨(op, child), List.mem_cons_self, q, known, rfl⟩
      · exact ⟨pair, List.mem_cons_of_mem _ member, q, known, rfl⟩
    · rintro ⟨pair, member, q, known, rfl⟩
      rcases List.mem_cons.1 member with rfl | later
      · exact Or.inl ⟨q, known, rfl⟩
      · exact Or.inr ⟨pair, later, q, known, rfl⟩

theorem mem_opMarks : ∀ (ops : Operations) (mark : Path × Attestation), mark ∈ opMarks ops ↔
    ∃ pair ∈ ops.toList, ∃ m ∈ treeMarks pair.2, mark = (pair.1 :: m.1, m.2)
  | .nil, mark => by
    constructor
    · intro member
      exact absurd member List.not_mem_nil
    · rintro ⟨pair, member, _⟩
      exact absurd member List.not_mem_nil
  | .cons op child rest, mark => by
    rw [opMarks, List.mem_append, List.mem_map, mem_opMarks rest mark, Operations.toList]
    constructor
    · rintro (⟨m, known, rfl⟩ | ⟨pair, member, m, known, rfl⟩)
      · exact ⟨(op, child), List.mem_cons_self, m, known, rfl⟩
      · exact ⟨pair, List.mem_cons_of_mem _ member, m, known, rfl⟩
    · rintro ⟨pair, member, m, known, rfl⟩
      rcases List.mem_cons.1 member with rfl | later
      · exact Or.inl ⟨m, known, rfl⟩
      · exact Or.inr ⟨pair, later, m, known, rfl⟩

/-! ## Replacing a tree under a node -/

/-- The operations of every node are different. -/
def UniqueKeys (ops : Operations) : Prop := (ops.toList.map Prod.fst).Nodup

mutual

/-- A tree with every operation of a node once, and every attestation of a node once. -/
def Proper : Timestamp → Prop
  | .node _ attestations ops => attestations.Nodup ∧ UniqueKeys ops ∧ ProperOps ops

def ProperOps : Operations → Prop
  | .nil => True
  | .cons _ child rest => Proper child ∧ ProperOps rest

end

theorem uniqueKeys_cons {op : TimestampOp} {child : Timestamp} {rest : Operations} :
    UniqueKeys (.cons op child rest) ↔ op ∉ rest.toList.map Prod.fst ∧ UniqueKeys rest :=
  List.nodup_cons

theorem opNodes_head {ops : Operations} {op : TimestampOp} {q : Path}
    (member : op :: q ∈ opNodes ops) : op ∈ ops.toList.map Prod.fst := by
  obtain ⟨pair, known, q', _, same⟩ := (mem_opNodes ops _).1 member
  cases same
  exact List.mem_map_of_mem known

theorem opMarks_head {ops : Operations} {op : TimestampOp} {q : Path} {a : Attestation}
    (member : (op :: q, a) ∈ opMarks ops) : op ∈ ops.toList.map Prod.fst := by
  obtain ⟨pair, known, m, _, same⟩ := (mem_opMarks ops _).1 member
  obtain ⟨first, _⟩ := Prod.mk.inj same
  cases first
  exact List.mem_map_of_mem known

mutual

theorem subtree_of_mem : ∀ (t : Timestamp) (path : Path), Proper t → path ∈ treeNodes t →
    ∃ s, subtree t path = some s
  | .node msg attestations ops, [], _, _ => ⟨_, rfl⟩
  | .node msg attestations ops, op :: rest, proper, member => by
    rcases List.mem_cons.1 member with same | below
    · cases same
    · exact opSubtree_of_mem ops op rest proper.2.1 proper.2.2 below

theorem opSubtree_of_mem : ∀ (ops : Operations) (op : TimestampOp) (path : Path),
    UniqueKeys ops → ProperOps ops → op :: path ∈ opNodes ops →
      ∃ s, opSubtree ops op path = some s
  | .nil, _, _, _, _, member => absurd member List.not_mem_nil
  | .cons key child rest, op, path, unique, proper, member => by
    obtain ⟨fresh, uniqueRest⟩ := uniqueKeys_cons.1 unique
    rw [opSubtree]
    by_cases same : key = op
    · subst same
      rw [if_pos rfl]
      refine subtree_of_mem child path proper.1 ?_
      rcases List.mem_append.1 member with inChild | later
      · obtain ⟨q, known, equal⟩ := List.mem_map.1 inChild
        cases equal
        exact known
      · exact absurd (opNodes_head later) fresh
    · rw [if_neg same]
      refine opSubtree_of_mem rest op path uniqueRest proper.2 ?_
      rcases List.mem_append.1 member with inChild | later
      · obtain ⟨q, _, equal⟩ := List.mem_map.1 inChild
        cases equal
        exact absurd rfl same
      · exact later

end

/-- The contents of a tree with more of them below a node. -/
structure Grown (path : Path) (nodes : List Path) (marks : List (Path × Attestation))
    (t t' : Timestamp) : Prop where
  msg : t'.msg = t.msg
  nodes : ∀ q, q ∈ treeNodes t' ↔ q ∈ treeNodes t ∨ ∃ n ∈ nodes, q = path ++ n
  marks : ∀ m, m ∈ treeMarks t' ↔ m ∈ treeMarks t ∨ ∃ n ∈ marks, m = (path ++ n.1, n.2)

mutual

/-- A tree grows by what a replacement adds to the tree under the node. -/
theorem replaceAt_grown : ∀ (t : Timestamp) (path : Path) (s s' : Timestamp)
    (nodes : List Path) (marks : List (Path × Attestation)), subtree t path = some s →
      Grown [] nodes marks s s' → Grown path nodes marks t (replaceAt s' t path)
  | .node msg attestations ops, [], s, s', nodes, marks, found, grown => by
    cases found
    exact grown
  | .node msg attestations ops, op :: rest, s, s', nodes, marks, found, grown => by
    obtain ⟨opsNodes, opsMarks⟩ := opReplaceAt_grown ops op rest s s' nodes marks found grown
    refine ⟨rfl, ?_, ?_⟩
    · intro q
      rw [replaceAt, treeNodes, treeNodes, List.mem_cons, List.mem_cons, opsNodes, or_assoc]
    · intro m
      rw [replaceAt, treeMarks, treeMarks, List.mem_append, List.mem_append, opsMarks, or_assoc]

theorem opReplaceAt_grown : ∀ (ops : Operations) (op : TimestampOp) (path : Path)
    (s s' : Timestamp) (nodes : List Path) (marks : List (Path × Attestation)),
      opSubtree ops op path = some s → Grown [] nodes marks s s' →
        (∀ q, q ∈ opNodes (opReplaceAt s' ops op path) ↔
          q ∈ opNodes ops ∨ ∃ n ∈ nodes, q = op :: path ++ n) ∧
        ∀ m, m ∈ opMarks (opReplaceAt s' ops op path) ↔
          m ∈ opMarks ops ∨ ∃ n ∈ marks, m = (op :: path ++ n.1, n.2)
  | .nil, _, _, _, _, _, _, found, _ => by cases found
  | .cons key child rest, op, path, s, s', nodes, marks, found, grown => by
    rw [opSubtree] at found
    rw [opReplaceAt]
    by_cases same : key = op
    · subst same
      rw [if_pos rfl] at found ⊢
      have below := replaceAt_grown child path s s' nodes marks found grown
      constructor
      · intro q
        rw [opNodes, opNodes, List.mem_append, List.mem_append, List.mem_map, List.mem_map]
        constructor
        · rintro (⟨n, known, rfl⟩ | later)
          · rcases (below.nodes n).1 known with old | ⟨added, member, rfl⟩
            · exact Or.inl (Or.inl ⟨n, old, rfl⟩)
            · exact Or.inr ⟨added, member, rfl⟩
          · exact Or.inl (Or.inr later)
        · rintro ((⟨n, known, rfl⟩ | later) | ⟨added, member, rfl⟩)
          · exact Or.inl ⟨n, (below.nodes n).2 (Or.inl known), rfl⟩
          · exact Or.inr later
          · exact Or.inl ⟨path ++ added, (below.nodes _).2 (Or.inr ⟨added, member, rfl⟩), rfl⟩
      · intro m
        rw [opMarks, opMarks, List.mem_append, List.mem_append, List.mem_map, List.mem_map]
        constructor
        · rintro (⟨n, known, rfl⟩ | later)
          · rcases (below.marks n).1 known with old | ⟨added, member, rfl⟩
            · exact Or.inl (Or.inl ⟨n, old, rfl⟩)
            · exact Or.inr ⟨added, member, rfl⟩
          · exact Or.inl (Or.inr later)
        · rintro ((⟨n, known, rfl⟩ | later) | ⟨added, member, rfl⟩)
          · exact Or.inl ⟨n, (below.marks n).2 (Or.inl known), rfl⟩
          · exact Or.inr later
          · exact Or.inl ⟨_, (below.marks _).2 (Or.inr ⟨added, member, rfl⟩), rfl⟩
    · rw [if_neg same] at found ⊢
      obtain ⟨opsNodes, opsMarks⟩ := opReplaceAt_grown rest op path s s' nodes marks found grown
      constructor
      · intro q
        rw [opNodes, opNodes, List.mem_append, List.mem_append, opsNodes, or_assoc]
      · intro m
        rw [opMarks, opMarks, List.mem_append, List.mem_append, opsMarks, or_assoc]

end

/-! ## Every node and every mark once -/

mutual

theorem treeNodes_nodup : ∀ t : Timestamp, Proper t → (treeNodes t).Nodup
  | .node _ _ ops, proper => by
    refine List.nodup_cons.2 ⟨?_, opNodes_nodup ops proper.2.1 proper.2.2⟩
    intro member
    obtain ⟨_, _, _, _, same⟩ := (mem_opNodes ops _).1 member
    cases same

theorem opNodes_nodup : ∀ ops : Operations, UniqueKeys ops → ProperOps ops → (opNodes ops).Nodup
  | .nil, _, _ => List.nodup_nil
  | .cons op child rest, unique, proper => by
    obtain ⟨fresh, uniqueRest⟩ := uniqueKeys_cons.1 unique
    refine List.nodup_append.2 ⟨?_, opNodes_nodup rest uniqueRest proper.2, ?_⟩
    · exact (treeNodes_nodup child proper.1).map (List.cons_injective)
    · intro a inChild b later same
      obtain ⟨q, _, rfl⟩ := List.mem_map.1 inChild
      rw [← same] at later
      exact fresh (opNodes_head later)

end

mutual

theorem treeMarks_nodup : ∀ t : Timestamp, Proper t → (treeMarks t).Nodup
  | .node _ attestations ops, proper => by
    refine List.nodup_append.2 ⟨?_, opMarks_nodup ops proper.2.1 proper.2.2, ?_⟩
    · exact proper.1.map fun a b same => (Prod.mk.inj same).2
    · intro a here b below same
      obtain ⟨attestation, _, rfl⟩ := List.mem_map.1 here
      rw [← same] at below
      obtain ⟨_, _, _, _, equal⟩ := (mem_opMarks ops _).1 below
      cases (Prod.mk.inj equal).1

theorem opMarks_nodup : ∀ ops : Operations, UniqueKeys ops → ProperOps ops → (opMarks ops).Nodup
  | .nil, _, _ => List.nodup_nil
  | .cons op child rest, unique, proper => by
    obtain ⟨fresh, uniqueRest⟩ := uniqueKeys_cons.1 unique
    refine List.nodup_append.2 ⟨?_, opMarks_nodup rest uniqueRest proper.2, ?_⟩
    · refine (treeMarks_nodup child proper.1).map ?_
      intro a b same
      obtain ⟨paths, attestations⟩ := Prod.mk.inj same
      exact Prod.ext (List.cons_injective paths) attestations
    · intro a inChild b later same
      obtain ⟨m, _, rfl⟩ := List.mem_map.1 inChild
      rw [← same] at later
      exact fresh (opMarks_head later)

end

/-! ## Validation -/

def supportedAttestation : Attestation → Bool
  | .other _ => false
  | _ => true

def isPending : Attestation → Bool
  | .pending _ => true
  | _ => false

/-- An operation of a kind that is taken, with an argument of a permitted size. -/
def permittedOp : TimestampOp → Bool
  | .append argument => argumentValid argument
  | .prepend argument => argumentValid argument
  | .sha256 => true
  | .other _ => false

variable (sha256 : Bytes → Sha256)

mutual

/-- Every message follows from the operation before it, where that is of a kind that is taken. -/
def Consistent : Timestamp → Prop
  | .node msg _ ops => ConsistentOps msg ops

def ConsistentOps (msg : Bytes) : Operations → Prop
  | .nil => True
  | .cons op child rest => (op.supported = true → child.msg = op.apply sha256 msg) ∧
      Consistent child ∧ ConsistentOps msg rest

end

mutual

/-- What validation asks of every node. -/
def ValidTree : Timestamp → Prop
  | .node msg attestations ops =>
    (∀ a ∈ attestations, supportedAttestation a = true) ∧ ValidOps msg ops

def ValidOps (msg : Bytes) : Operations → Prop
  | .nil => True
  | .cons op child rest => permittedOp op = true ∧ child.msg = op.apply sha256 msg ∧
      ValidTree child ∧ ValidOps msg rest

end

variable {sha256}

def Counts.Within (counts : Counts) : Prop :=
  counts.operations ≤ maxOperations ∧ counts.attestations ≤ maxAttestations ∧
    counts.pendingAttestations ≤ maxPendingAttestations

def Counts.plus (counts : Counts) (operations attestations pending : Nat) : Counts :=
  ⟨counts.operations + operations, counts.attestations + attestations,
    counts.pendingAttestations + pending⟩

theorem checkAttestations_iff {attestations : List Attestation} {counts counts' : Counts}
    (within : Counts.Within counts) : checkAttestations attestations counts = .ok counts' ↔
      (∀ a ∈ attestations, supportedAttestation a = true) ∧
        counts' = Counts.plus counts 0 attestations.length (attestations.countP isPending) ∧
        Counts.Within counts' := by
  induction attestations generalizing counts with
  | nil =>
    constructor
    · intro same
      cases same
      exact ⟨fun a member => absurd member List.not_mem_nil, rfl, within⟩
    · rintro ⟨_, rfl, _⟩
      rfl
  | cons a rest ih =>
    obtain ⟨operations, fewer, pending⟩ := within
    rw [List.forall_mem_cons, List.length_cons]
    cases a with
    | bitcoin height =>
      have step : checkAttestations (.bitcoin height :: rest) counts =
          if maxAttestations < counts.attestations + 1 then
            .error ⟨"proof_attestation_limit_exceeded"⟩
          else checkAttestations rest (Counts.plus counts 0 1 0) := rfl
      have count : (Attestation.bitcoin height :: rest).countP isPending =
          rest.countP isPending := List.countP_cons_of_neg Bool.false_ne_true
      rw [step, count]
      by_cases many : maxAttestations < counts.attestations + 1
      · rw [if_pos many]
        constructor
        · intro same
          cases same
        · rintro ⟨_, rfl, _, bound, _⟩
          simp only [Counts.plus] at bound
          omega
      · rw [if_neg many]
        have next := @ih (Counts.plus counts 0 1 0) ⟨operations, not_lt.1 many, pending⟩
        refine Iff.trans next ?_
        refine and_congr ⟨fun all => ⟨rfl, all⟩, fun all => all.2⟩ (and_congr ?_ Iff.rfl)
        simp only [Counts.plus, Nat.add_zero, Nat.add_assoc, Nat.add_comm 1]
    | pending uri =>
      have step : checkAttestations (.pending uri :: rest) counts =
          if maxAttestations < counts.attestations + 1 then
            .error ⟨"proof_attestation_limit_exceeded"⟩
          else if maxPendingAttestations < counts.pendingAttestations + 1 then
            .error ⟨"proof_pending_attestation_limit_exceeded"⟩
          else checkAttestations rest (Counts.plus counts 0 1 1) := rfl
      have count : (Attestation.pending uri :: rest).countP isPending =
          rest.countP isPending + 1 := List.countP_cons_of_pos rfl
      rw [step, count]
      by_cases many : maxAttestations < counts.attestations + 1
      · rw [if_pos many]
        constructor
        · intro same
          cases same
        · rintro ⟨_, rfl, _, bound, _⟩
          simp only [Counts.plus] at bound
          omega
      · rw [if_neg many]
        by_cases waiting : maxPendingAttestations < counts.pendingAttestations + 1
        · rw [if_pos waiting]
          constructor
          · intro same
            cases same
          · rintro ⟨_, rfl, _, _, bound⟩
            simp only [Counts.plus] at bound
            omega
        · rw [if_neg waiting]
          have next := @ih (Counts.plus counts 0 1 1)
            ⟨operations, not_lt.1 many, not_lt.1 waiting⟩
          refine Iff.trans next ?_
          refine and_congr ⟨fun all => ⟨rfl, all⟩, fun all => all.2⟩ (and_congr ?_ Iff.rfl)
          simp only [Counts.plus, Nat.add_zero, Nat.add_assoc, Nat.add_comm 1]
    | other tag =>
      have step : checkAttestations (.other tag :: rest) counts =
          if maxAttestations < counts.attestations + 1 then
            .error ⟨"proof_attestation_limit_exceeded"⟩
          else .error ⟨"proof_attestation_type_unsupported"⟩ := rfl
      rw [step]
      constructor
      · intro same
        split at same
        · cases same
        · cases same
      · rintro ⟨⟨supported, _⟩, _⟩
        cases supported

/-! ## The limits -/

def nodeCount (t : Timestamp) : Nat := (treeNodes t).length
def markCount (t : Timestamp) : Nat := (treeMarks t).length
def pendingCount (t : Timestamp) : Nat := (treeMarks t).countP fun mark => isPending mark.2

/-- The limits of a proof in its contents. -/
def WithinLimits (t : Timestamp) : Prop :=
  nodeCount t ≤ maxTimestampNodes ∧ markCount t ≤ maxAttestations ∧
    pendingCount t ≤ maxPendingAttestations

/-! ## Validity and messages in terms of the contents -/

theorem supported_of_permitted {op : TimestampOp} (permitted : permittedOp op = true) :
    op.supported = true := by
  cases op with
  | other tag => cases permitted
  | _ => rfl

/-- The kinds of everything in a tree are taken. -/
def PermittedContents (t : Timestamp) : Prop :=
  (∀ mark ∈ treeMarks t, supportedAttestation mark.2 = true) ∧
    ∀ path ∈ treeNodes t, ∀ op ∈ path, permittedOp op = true

def PermittedOps (ops : Operations) : Prop :=
  (∀ mark ∈ opMarks ops, supportedAttestation mark.2 = true) ∧
    ∀ path ∈ opNodes ops, ∀ op ∈ path, permittedOp op = true

theorem permittedOps_cons {op : TimestampOp} {child : Timestamp} {rest : Operations} :
    PermittedOps (.cons op child rest) ↔
      permittedOp op = true ∧ PermittedContents child ∧ PermittedOps rest := by
  unfold PermittedOps PermittedContents
  simp only [opMarks, opNodes, List.forall_mem_append, List.forall_mem_map, List.forall_mem_cons]
  constructor
  · rintro ⟨⟨marks, restMarks⟩, paths, restPaths⟩
    exact ⟨(paths [] (root_mem child)).1, ⟨marks, fun path known => (paths path known).2⟩,
      restMarks, restPaths⟩
  · rintro ⟨permitted, ⟨marks, paths⟩, restMarks, restPaths⟩
    exact ⟨⟨marks, restMarks⟩, fun path known => ⟨permitted, paths path known⟩, restPaths⟩

mutual

theorem validTree_iff : ∀ t : Timestamp, Consistent sha256 t →
    (ValidTree sha256 t ↔ PermittedContents t)
  | .node msg attestations ops, consistent => by
    have inside := validOps_contents msg ops consistent
    unfold ValidTree PermittedContents
    rw [inside]
    unfold PermittedOps
    simp only [treeMarks, treeNodes, List.forall_mem_append, List.forall_mem_map,
      List.forall_mem_cons, List.not_mem_nil, false_imp_iff, implies_true, true_and]
    exact and_assoc.symm

theorem validOps_contents (msg : Bytes) : ∀ ops : Operations, ConsistentOps sha256 msg ops →
    (ValidOps sha256 msg ops ↔ PermittedOps ops)
  | .nil, _ => by
    constructor
    · intro _
      exact ⟨fun mark member => absurd member List.not_mem_nil,
        fun path member => absurd member List.not_mem_nil⟩
    · intro _
      trivial
  | .cons op child rest, consistent => by
    obtain ⟨result, childConsistent, restConsistent⟩ := consistent
    rw [ValidOps, permittedOps_cons, validTree_iff child childConsistent,
      validOps_contents msg rest restConsistent]
    constructor
    · rintro ⟨permitted, _, inside, others⟩
      exact ⟨permitted, inside, others⟩
    · rintro ⟨permitted, inside, others⟩
      exact ⟨permitted, result (supported_of_permitted permitted), inside, others⟩

end

variable (sha256) in
/-- The message at a node. -/
def pathMessage (msg : Bytes) (path : Path) : Bytes :=
  path.foldl (fun m op => op.apply sha256 m) msg

mutual

theorem mem_allAttestations : ∀ t : Timestamp, ValidTree sha256 t → ∀ m a,
    (m, a) ∈ t.allAttestations ↔ ∃ path, (path, a) ∈ treeMarks t ∧ m = pathMessage sha256 t.msg path
  | .node msg attestations ops, valid, m, a => by
    rw [Timestamp.allAttestations, List.mem_append, List.mem_map,
      mem_allOpAttestations msg ops valid.2 m a, treeMarks]
    constructor
    · rintro (⟨b, known, same⟩ | ⟨path, known, rfl⟩)
      · cases same
        exact ⟨[], List.mem_append_left _ (List.mem_map.2 ⟨a, known, rfl⟩), rfl⟩
      · exact ⟨path, List.mem_append_right _ known, rfl⟩
    · rintro ⟨path, known, rfl⟩
      rcases List.mem_append.1 known with here | below
      · obtain ⟨b, member, same⟩ := List.mem_map.1 here
        cases same
        exact Or.inl ⟨a, member, rfl⟩
      · exact Or.inr ⟨path, below, rfl⟩

theorem mem_allOpAttestations (msg : Bytes) : ∀ ops : Operations, ValidOps sha256 msg ops →
    ∀ m a, (m, a) ∈ ops.allAttestations ↔
      ∃ path, (path, a) ∈ opMarks ops ∧ m = pathMessage sha256 msg path
  | .nil, _, m, a => by
    constructor
    · intro member
      exact absurd member List.not_mem_nil
    · rintro ⟨path, member, _⟩
      exact absurd member List.not_mem_nil
  | .cons op child rest, valid, m, a => by
    obtain ⟨_, result, childValid, restValid⟩ := valid
    rw [Operations.allAttestations, List.mem_append, mem_allAttestations child childValid m a,
      mem_allOpAttestations msg rest restValid m a, opMarks, result]
    constructor
    · rintro (⟨path, known, rfl⟩ | ⟨path, known, rfl⟩)
      · exact ⟨op :: path, List.mem_append_left _ (List.mem_map.2 ⟨_, known, rfl⟩), rfl⟩
      · exact ⟨path, List.mem_append_right _ known, rfl⟩
    · rintro ⟨path, known, rfl⟩
      rcases List.mem_append.1 known with inChild | later
      · obtain ⟨mark, member, same⟩ := List.mem_map.1 inChild
        cases same
        exact Or.inl ⟨mark.1, member, rfl⟩
      · exact Or.inr ⟨path, later, rfl⟩

end

mutual

theorem subtree_message : ∀ (t : Timestamp) (path : Path) (s : Timestamp), ValidTree sha256 t →
    subtree t path = some s → s.msg = pathMessage sha256 t.msg path
  | .node msg attestations ops, [], s, _, found => by
    cases found
    rfl
  | .node msg attestations ops, op :: rest, s, valid, found =>
    opSubtree_message msg ops op rest s valid.2 found

theorem opSubtree_message (msg : Bytes) : ∀ (ops : Operations) (op : TimestampOp) (path : Path)
    (s : Timestamp), ValidOps sha256 msg ops → opSubtree ops op path = some s →
      s.msg = pathMessage sha256 msg (op :: path)
  | .nil, _, _, _, _, found => by cases found
  | .cons key child rest, op, path, s, valid, found => by
    obtain ⟨_, result, childValid, restValid⟩ := valid
    rw [opSubtree] at found
    by_cases same : key = op
    · subst same
      rw [if_pos rfl] at found
      rw [subtree_message child path s childValid found, result]
      rfl
    · rw [if_neg same] at found
      exact opSubtree_message msg rest op path s restValid found

end

end TimestampContents
