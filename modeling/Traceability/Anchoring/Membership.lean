import Traceability.Anchoring.Registry
import Traceability.Merkle.SortedPair

/-! What a verified proof proves. The root that the contract's tests compute over leaves is
that of a perfect tree, and the contract accepts whatever that tree presents: it takes neither
the list nor its depth, and leaves and nodes are hashed alike. -/
namespace Traceability.Anchoring
open Machine Bytes Merkle

theorem encodePacked_injective (a b c d : Bytes32) (h : encodePacked a b = encodePacked c d) :
    a = c ∧ b = d := by
  have hword : ∀ n : Bytes32, n.val < 256 ^ 32 := fun n => n.isLt.trans_eq (by norm_num)
  obtain ⟨hl, hr⟩ := List.append_inj h (by simp)
  exact ⟨Fin.ext (bigEndian_injective (hword a) (hword c) hl),
    Fin.ext (bigEndian_injective (hword b) (hword d) hr)⟩

/-- The contract and its test hash the smaller of two words first. -/
theorem sortedHash_eq (keccak256 : Bytes → Bytes32) :
    (fun a b : Bytes32 => if a < b then keccak256 (encodePacked a b)
      else keccak256 (encodePacked b a)) = Merkle.hashPair keccak256 encodePacked := by
  funext a b
  rw [Merkle.hashPair, sortedJoin, apply_ite keccak256]

section Verifier
variable {keccak256 : Bytes → Bytes32} {st : SupplyChainAnchoring} {r leaf : Bytes32}
  {proof : List Bytes32}

/-- The verifier climbs the proof. -/
theorem verifyMerkleProof_eq (h : st.isAnchored r = true) :
    verifyMerkleProof st keccak256 r proof leaf =
      .ok (decide (climb keccak256 encodePacked leaf proof = r)) := by
  unfold verifyMerkleProof
  rw [if_pos h, sortedHash_eq]
  rfl

theorem verifyMerkleProof_eq_true_iff (h : st.isAnchored r = true) :
    verifyMerkleProof st keccak256 r proof leaf = .ok true ↔
      climb keccak256 encodePacked leaf proof = r := by
  rw [verifyMerkleProof_eq h, Except.ok.injEq, decide_eq_true_iff]

end Verifier

namespace PartitionRecovery
variable (keccak256 : Bytes → Bytes32)

def hashPair (a b : Bytes32) : Bytes32 :=
  if a < b then keccak256 (encodePacked a b) else keccak256 (encodePacked b a)

/-- The root over the leaves, level by level; there is none over no leaves. -/
def root (leaves : List Bytes32) : Option Bytes32 :=
  (levelLoop (halveLevel (hashPair keccak256)) (length_halveLevel_lt _) leaves)[0]?

theorem hashPair_eq : hashPair keccak256 = Merkle.hashPair keccak256 encodePacked :=
  sortedHash_eq keccak256

variable {keccak256} {leaves : List Bytes32} {k : ℕ}

theorem climb_eq (leaf : Bytes32) (below : List Bytes32) :
    climb keccak256 encodePacked leaf below = below.foldl (hashPair keccak256) leaf := by
  unfold climb
  rw [hashPair_eq]

/-- Over a power of two leaves the root is that of their tree. -/
theorem root_eq (hk : leaves.length = 2 ^ k) (h : leaves ≠ []) :
    root keccak256 leaves = some ((treeOf leaves h).sortedRoot keccak256 encodePacked) := by
  unfold root
  rw [levelLoop_halveLevel _ hk, levelLoop_eq_singleton _ h, hashPair_eq,
    Tree.sortedRoot, eval_treeOf]
  simp

/-- The texts hashed for the root. -/
def rootTexts (keccak256 : Bytes → Bytes32) (leaves : List Bytes32) : List Bytes :=
  if h : leaves = [] then [] else (treeOf leaves h).sortedTexts keccak256 encodePacked

/-- What the tree of the leaves presents beside its leaves: an inner node with exactly its
siblings, or what the first elements of the proof hash up to a leaf whose siblings are the rest. -/
def Poses (keccak256 : Bytes → Bytes32) (leaves : List Bytes32) (leaf : Bytes32)
    (proof : List Bytes32) : Prop :=
  ∃ h : leaves ≠ [], (leaf, proof) ∈ (treeOf leaves h).innerPaths keccak256 encodePacked ∨
    ∃ p ∈ (treeOf leaves h).leafPaths keccak256 encodePacked, ∃ below ≠ [],
      proof = below ++ p.2 ∧ climb keccak256 encodePacked leaf below = p.1

theorem ne_nil_of_length (hk : leaves.length = 2 ^ k) : leaves ≠ [] := by
  rintro rfl
  exact absurd hk.symm (pow_pos two_pos k).ne'

theorem mem_of_mem_leafPaths (hk : leaves.length = 2 ^ k) {h : leaves ≠ []}
    {p : Bytes32 × List Bytes32}
    (hp : p ∈ (treeOf leaves h).leafPaths keccak256 encodePacked) : p.1 ∈ leaves := by
  have hmem := List.mem_map_of_mem (f := Prod.fst) hp
  rwa [Tree.map_fst_leafPaths, (treeOf_of_length hk h).2] at hmem

/-- Of what is no leaf, the tree presents what poses. -/
theorem presents_iff_poses (hk : leaves.length = 2 ^ k) (h : leaves ≠ []) {leaf : Bytes32}
    {proof : List Bytes32} (hout : leaf ∉ leaves) :
    (treeOf leaves h).Presents keccak256 encodePacked leaf proof ↔
      Poses keccak256 leaves leaf proof := by
  constructor
  · rintro (hinner | ⟨p, hp, below, hproof, hclimb⟩)
    · exact ⟨h, .inl hinner⟩
    · refine ⟨h, .inr ⟨p, hp, below, ?_, hproof, hclimb⟩⟩
      rintro rfl
      have hleaf : leaf = p.1 := hclimb
      exact hout (hleaf ▸ mem_of_mem_leafPaths hk hp)
  · rintro ⟨_, hinner | ⟨p, hp, below, -, hproof, hclimb⟩⟩
    · exact .inl hinner
    · exact .inr ⟨p, hp, below, hproof, hclimb⟩

/-- An impostor's proof is too short or too long. -/
theorem Poses.length_ne (hk : leaves.length = 2 ^ k) {leaf : Bytes32} {proof : List Bytes32}
    (hposes : Poses keccak256 leaves leaf proof) : proof.length ≠ k := by
  obtain ⟨h, hinner | ⟨p, hp, below, hne, rfl, -⟩⟩ := hposes
  · exact (Tree.length_of_mem_innerPaths (treeOf_of_length hk h).1 hinner).ne
  · have hlength := Tree.length_of_mem_leafPaths (treeOf_of_length hk h).1 hp
    have hpos := List.length_pos_iff.mpr hne
    rw [List.length_append]
    omega

/-- With one element of the proof for each level, on-chain verification shows membership. With
more or fewer it also accepts what poses, and nothing else that is no leaf. -/
theorem membership_sound_iff_not_poses (keccak256 : Bytes → Bytes32) (deployer : Address)
    (txs : List Transaction) {k : ℕ} {leaves : List Bytes32} (hk : leaves.length = 2 ^ k)
    {r : Bytes32} (hroot : root keccak256 leaves = some r)
    (hanchored : (stateAfter deployer txs).isAnchored r = true) (proof : List Bytes32)
    (leaf : Bytes32)
    (hfree : CollisionFree keccak256
      (rootTexts keccak256 leaves ++ climbTexts keccak256 encodePacked leaf proof)) :
    (proof.length = k →
        verifyMerkleProof (stateAfter deployer txs) keccak256 r proof leaf = .ok true →
        leaf ∈ leaves) ∧
      (leaf ∉ leaves →
        (verifyMerkleProof (stateAfter deployer txs) keccak256 r proof leaf = .ok true ↔
          Poses keccak256 leaves leaf proof)) := by
  have h := ne_nil_of_length hk
  unfold rootTexts at hfree
  rw [dif_neg h] at hfree
  have htree : (treeOf leaves h).sortedRoot keccak256 encodePacked = r :=
    Option.some_inj.mp ((root_eq hk h).symm.trans hroot)
  have hpresents : verifyMerkleProof (stateAfter deployer txs) keccak256 r proof leaf = .ok true ↔
      (treeOf leaves h).Presents keccak256 encodePacked leaf proof := by
    rw [verifyMerkleProof_eq_true_iff hanchored, ← htree]
    exact Tree.climb_eq_sortedRoot_iff encodePacked_injective hfree
  have houtside : leaf ∉ leaves →
      (verifyMerkleProof (stateAfter deployer txs) keccak256 r proof leaf = .ok true ↔
        Poses keccak256 leaves leaf proof) :=
    fun hout => hpresents.trans (presents_iff_poses hk h hout)
  refine ⟨fun hlength hverify => ?_, houtside⟩
  by_contra hout
  exact Poses.length_ne hk ((houtside hout).mp hverify) hlength

/-- Leaf hashes of the contract's test, `keccak256(abi.encode("event", i))`. -/
def eventZero : Bytes32 := 0x4a6999dd11c2cf3b0cf5b8f32841ef0ac3e5b7f3da610aa51850464828a07b46

def eventOne : Bytes32 := 0x616d293431faeac31ee9418e9d177f688f4985d1fc0ccf7eb5b2b0f34c118d47

def eventsRoot : Bytes32 := 0x5ae9ae736e916d3373960b455dbd80e5628a23a8b4cf9ca8ce52bfc2cc4f62ae

def eventLeaves : List Bytes32 := [eventZero, eventOne]

/-- Keccak-256 on the pair of the two leaves. -/
def eventKeccak256 : Bytes → Bytes32 := tableHash [(encodePacked eventZero eventOne, eventsRoot)] 0

theorem root_eventLeaves : root eventKeccak256 eventLeaves = some eventsRoot := by
  have hpair : hashPair eventKeccak256 eventZero eventOne = eventsRoot := by decide +kernel
  simp [root, eventLeaves, levelLoop, halveLevel, hpair]

theorem isAnchored_eventsRoot :
    (stateAfter 1 [anchorWindow eventsRoot]).isAnchored eventsRoot = true :=
  isAnchored_anchorWindow (by decide)

theorem sortedJoin_events :
    sortedJoin encodePacked eventZero eventOne = encodePacked eventZero eventOne :=
  sortedJoin_of_le (by decide)

theorem rootTexts_eventLeaves :
    rootTexts eventKeccak256 eventLeaves = [encodePacked eventZero eventOne] := by
  simp [rootTexts, eventLeaves, treeOf, merkleRoot, levelLoop, nextLevel, Tree.sortedTexts,
    Tree.sortedRoot, Tree.eval, sortedJoin_events]

theorem collisionFree_eventsRoot :
    CollisionFree eventKeccak256 (rootTexts eventKeccak256 eventLeaves ++
      climbTexts eventKeccak256 encodePacked eventsRoot []) := by
  rw [rootTexts_eventLeaves]
  simp [CollisionFree, climbTexts]

theorem verifies_eventsRoot :
    verifyMerkleProof (stateAfter 1 [anchorWindow eventsRoot]) eventKeccak256 eventsRoot []
      eventsRoot = .ok true := by
  rw [verifyMerkleProof_eq_true_iff isAnchored_eventsRoot]
  rfl

theorem verifies_eventZero :
    verifyMerkleProof (stateAfter 1 [anchorWindow eventsRoot]) eventKeccak256 eventsRoot
      [eventOne] eventZero = .ok true := by
  rw [verifyMerkleProof_eq_true_iff isAnchored_eventsRoot]
  decide +kernel

/-- With an empty proof the root itself is accepted as a leaf of its own tree. -/
theorem root_poses_as_leaf :
    root eventKeccak256 eventLeaves = some eventsRoot ∧
    (stateAfter 1 [anchorWindow eventsRoot]).isAnchored eventsRoot = true ∧
    CollisionFree eventKeccak256 (rootTexts eventKeccak256 eventLeaves ++
      climbTexts eventKeccak256 encodePacked eventsRoot []) ∧
    verifyMerkleProof (stateAfter 1 [anchorWindow eventsRoot]) eventKeccak256 eventsRoot []
      eventsRoot = .ok true ∧
    eventsRoot ∉ eventLeaves :=
  ⟨root_eventLeaves, isAnchored_eventsRoot, collisionFree_eventsRoot, verifies_eventsRoot,
    by decide⟩

/-- The first of two leaves with its one sibling, and their root, which poses. -/
theorem membership_sound_iff_not_poses_events :
    (verifyMerkleProof (stateAfter 1 [anchorWindow eventsRoot]) eventKeccak256 eventsRoot
        [eventOne] eventZero = .ok true ∧ eventZero ∈ eventLeaves) ∧
      Poses eventKeccak256 eventLeaves eventsRoot [] := by
  have hfree : CollisionFree eventKeccak256 (rootTexts eventKeccak256 eventLeaves ++
      climbTexts eventKeccak256 encodePacked eventZero [eventOne]) := by
    rw [rootTexts_eventLeaves]
    simp [CollisionFree, climbTexts, sortedJoin_events]
  have hk : eventLeaves.length = 2 ^ 1 := rfl
  obtain ⟨hmember, -⟩ := membership_sound_iff_not_poses eventKeccak256 1 [anchorWindow eventsRoot]
    hk root_eventLeaves isAnchored_eventsRoot [eventOne] eventZero hfree
  obtain ⟨-, hposes⟩ := membership_sound_iff_not_poses eventKeccak256 1 [anchorWindow eventsRoot]
    hk root_eventLeaves isAnchored_eventsRoot [] eventsRoot collisionFree_eventsRoot
  exact ⟨⟨verifies_eventZero, hmember rfl verifies_eventZero⟩,
    (hposes (by decide)).mp verifies_eventsRoot⟩

end PartitionRecovery

end Traceability.Anchoring
