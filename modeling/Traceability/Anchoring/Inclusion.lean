import Traceability.Anchoring.Membership
import Traceability.Merkle.Position

/-! Inclusion proofs on the contract. The proofs that the contract's tests compute are the
siblings on the path of a leaf; they verify for that leaf, and for no other. -/
namespace Traceability.Anchoring.PartitionRecovery
open Machine Bytes Merkle

/-- The loop that counts the halvings down to one. -/
def depthLoop (n depth : ℕ) : ℕ := if 1 < n then depthLoop (n / 2) (depth + 1) else depth
termination_by n

theorem depthLoop_two_pow (k depth : ℕ) : depthLoop (2 ^ k) depth = depth + k := by
  induction k generalizing depth with
  | zero =>
    unfold depthLoop
    rfl
  | succ k ih =>
    have hlt : 1 < 2 ^ (k + 1) := Nat.one_lt_two_pow k.succ_ne_zero
    have hhalf : 2 ^ (k + 1) / 2 = 2 ^ k := by
      rw [pow_succ]
      omega
    rw [depthLoop, if_pos hlt, hhalf, ih]
    omega

section Proofs
variable (keccak256 : Bytes → Bytes32)

/-- The loop that fills the proof, where an index out of bounds is a panic. -/
def proofLoop (level : List Bytes32) (pos d : ℕ) (proof : List Bytes32) :
    Except Revert (List Bytes32) :=
  if 1 < level.length then
    match level[pos ^^^ 1]? with
    | none => .error (.panic 0x32)
    | some sibling =>
      if d < proof.length then
        proofLoop (halveLevel (hashPair keccak256) level) (pos / 2) (d + 1) (proof.set d sibling)
      else .error (.panic 0x32)
  else .ok proof
termination_by level.length
decreasing_by exact length_halveLevel_lt _ level ‹_›

def proof (leaves : List Bytes32) (idx : ℕ) : Except Revert (List Bytes32) :=
  proofLoop keccak256 leaves idx 0 (List.replicate (depthLoop leaves.length 0) 0)

/-- Over a power of two nodes the loop stays within bounds and fills in the siblings. -/
theorem proofLoop_eq {level : List Bytes32} {k pos : ℕ} (hk : level.length = 2 ^ k)
    (h : pos < level.length) (done : List Bytes32) :
    proofLoop keccak256 level pos done.length (done ++ List.replicate k 0) =
      .ok (done ++ siblings (hashPair keccak256) level pos h) := by
  induction k generalizing level pos done with
  | zero =>
    have hle : ¬ 1 < level.length := by omega
    rw [proofLoop, if_neg hle, siblings, if_neg hle]
    rfl
  | succ k ih =>
    obtain ⟨hlt, heven, hlength⟩ := nextLevel_two_pow (hashPair keccak256) hk
    have hsibling : level[pos ^^^ 1]? = some (siblingAt level pos h) := by
      have hpadded := getElem?_padLevel_xor h
      rwa [padLevel, if_pos heven] at hpadded
    have hroom : done.length < (done ++ List.replicate (k + 1) (0 : Bytes32)).length := by
      rw [List.length_append, List.length_replicate]
      omega
    have hset : (done ++ List.replicate (k + 1) 0).set done.length (siblingAt level pos h) =
        done ++ [siblingAt level pos h] ++ List.replicate k 0 := by
      rw [List.set_append_right _ _ le_rfl, Nat.sub_self, List.replicate_succ, List.set_cons_zero]
      simp
    have hrest := ih hlength (div_two_lt_length (hashPair keccak256) h)
      (done ++ [siblingAt level pos h])
    rw [List.length_append, List.length_singleton] at hrest
    rw [proofLoop, if_pos hlt, hsibling]
    dsimp only
    rw [if_pos hroom, hset, halveLevel_eq_nextLevel _ heven, hrest, siblings.eq_def _ level,
      if_pos hlt]
    simp

/-- Over a power of two leaves the test computes the siblings of the leaf. -/
theorem proof_eq {leaves : List Bytes32} {k idx : ℕ} (hk : leaves.length = 2 ^ k)
    (h : idx < leaves.length) :
    proof keccak256 leaves idx = .ok (siblings (hashPair keccak256) leaves idx h) := by
  have hdepth : depthLoop leaves.length 0 = k := by
    rw [hk, depthLoop_two_pow, zero_add]
  unfold proof
  rw [hdepth]
  exact proofLoop_eq keccak256 hk h []

theorem root_eq_merkleRoot {leaves : List Bytes32} {k : ℕ} (hk : leaves.length = 2 ^ k)
    (hne : leaves ≠ []) :
    root keccak256 leaves = some (merkleRoot (hashPair keccak256) leaves hne) := by
  unfold root
  rw [levelLoop_halveLevel _ hk, levelLoop_eq_singleton _ hne]
  rfl

/-- The verifier, which forgets the sides, follows the siblings of a leaf to the root. -/
theorem climb_siblings {leaves : List Bytes32} {idx : ℕ} (h : idx < leaves.length)
    (hne : leaves ≠ []) :
    climb keccak256 encodePacked leaves[idx] (siblings (hashPair keccak256) leaves idx h) =
      merkleRoot (hashPair keccak256) leaves hne := by
  have hcomm : ∀ a b : Bytes32, hashPair keccak256 a b = hashPair keccak256 b a := by
    intro a b
    rw [hashPair_eq]
    exact congrArg keccak256 (sortedJoin_comm a b)
  rw [climb_eq, ← climbAt_eq_foldl hcomm _ idx, climbAt_siblings]

end Proofs

/-- On-chain verification is complete: over a power of two leaves the test computes a proof
of one sibling for each level, and the contract accepts it wherever the root is anchored. -/
theorem inclusion_complete (keccak256 : Bytes → Bytes32) {k : ℕ} {leaves : List Bytes32}
    (hk : leaves.length = 2 ^ k) {idx : ℕ} (h : idx < leaves.length) :
    ∃ path r, proof keccak256 leaves idx = .ok path ∧ path.length = k ∧
      root keccak256 leaves = some r ∧
      ∀ deployer txs, (stateAfter deployer txs).isAnchored r = true →
        verifyMerkleProof (stateAfter deployer txs) keccak256 r path leaves[idx] = .ok true := by
  have hne := ne_nil_of_length hk
  refine ⟨_, _, proof_eq keccak256 hk h, length_siblings _ hk h,
    root_eq_merkleRoot keccak256 hk hne, ?_⟩
  intro deployer txs hanchored
  rw [verifyMerkleProof_eq_true_iff hanchored]
  exact climb_siblings keccak256 h hne

/-- The second of two leaves. -/
theorem inclusion_complete_events :
    ∃ path, proof eventKeccak256 eventLeaves 1 = .ok path ∧ path.length = 1 ∧
      verifyMerkleProof (stateAfter 1 [anchorWindow eventsRoot]) eventKeccak256 eventsRoot path
        eventOne = .ok true := by
  have hk : eventLeaves.length = 2 ^ 1 := rfl
  have hidx : 1 < eventLeaves.length := Nat.one_lt_two
  obtain ⟨path, r, hpath, hlength, hroot, hverify⟩ :=
    inclusion_complete eventKeccak256 hk hidx
  obtain rfl := Option.some_inj.mp (root_eventLeaves.symm.trans hroot)
  exact ⟨path, hpath, hlength, hverify 1 [anchorWindow eventsRoot] isAnchored_eventsRoot⟩

/-- Tampered leaves are rejected: whatever the proof, the contract accepts it for at most one
leaf, and an honest proof for no other leaf than the one it was computed for. -/
theorem accepted_leaf_unique (keccak256 : Bytes → Bytes32) (deployer : Address)
    (txs : List Transaction) {r : Bytes32}
    (hanchored : (stateAfter deployer txs).isAnchored r = true) (path : List Bytes32)
    (leaf leaf' : Bytes32)
    (hfree : CollisionFree keccak256 (climbTexts keccak256 encodePacked leaf path ++
      climbTexts keccak256 encodePacked leaf' path)) :
    (verifyMerkleProof (stateAfter deployer txs) keccak256 r path leaf = .ok true →
      verifyMerkleProof (stateAfter deployer txs) keccak256 r path leaf' = .ok true →
      leaf' = leaf) ∧
    ∀ k leaves idx, leaves.length = 2 ^ k → leaves[idx]? = some leaf →
      root keccak256 leaves = some r → proof keccak256 leaves idx = .ok path → leaf' ≠ leaf →
      verifyMerkleProof (stateAfter deployer txs) keccak256 r path leaf' = .ok false := by
  constructor
  · intro hleaf hleaf'
    rw [verifyMerkleProof_eq_true_iff hanchored] at hleaf hleaf'
    exact (climb_injective encodePacked_injective hfree (hleaf.trans hleaf'.symm)).symm
  · intro k leaves idx hk hidx hroot hproof hother
    obtain ⟨h, rfl⟩ := List.getElem?_eq_some_iff.mp hidx
    have hne := ne_nil_of_length hk
    obtain rfl := Except.ok.inj ((proof_eq keccak256 hk h).symm.trans hproof)
    obtain rfl := Option.some_inj.mp ((root_eq_merkleRoot keccak256 hk hne).symm.trans hroot)
    rw [verifyMerkleProof_eq hanchored, decide_eq_false]
    intro hclimb
    apply hother
    exact (climb_injective encodePacked_injective hfree
      ((climb_siblings keccak256 h hne).trans hclimb.symm)).symm

/-- Keccak-256 on the pair of the two leaves and on that of the second one with itself. -/
def siblingKeccak256 : Bytes → Bytes32 :=
  tableHash [(encodePacked eventZero eventOne, eventsRoot), (encodePacked eventOne eventOne,
    0x89234b9522afaa8af10d8460ca622d2cec9a29bd963489d282c63d7bbb575280)] 0

/-- The sibling of the first leaf is not accepted as a leaf with itself as the proof. -/
theorem accepted_leaf_unique_events :
    proof siblingKeccak256 eventLeaves 0 = .ok [eventOne] ∧
    verifyMerkleProof (stateAfter 1 [anchorWindow eventsRoot]) siblingKeccak256 eventsRoot
      [eventOne] eventOne = .ok false := by
  have hpair : hashPair siblingKeccak256 eventZero eventOne = eventsRoot := by decide +kernel
  have hk : eventLeaves.length = 2 ^ 1 := rfl
  have hproof : proof siblingKeccak256 eventLeaves 0 = .ok [eventOne] := by
    rw [proof_eq siblingKeccak256 hk Nat.zero_lt_two]
    simp [siblings, eventLeaves, siblingAt, pairAt, nextLevel]
  have hroot : root siblingKeccak256 eventLeaves = some eventsRoot := by
    simp [root, eventLeaves, levelLoop, halveLevel, hpair]
  have hself : sortedJoin encodePacked eventOne eventOne = encodePacked eventOne eventOne :=
    sortedJoin_of_le le_rfl
  have hfree : CollisionFree siblingKeccak256
      (climbTexts siblingKeccak256 encodePacked eventZero [eventOne] ++
        climbTexts siblingKeccak256 encodePacked eventOne [eventOne]) := by
    apply tableHash_collisionFree
    · decide
    · simp [climbTexts, sortedJoin_events, hself]
  have hreject := (accepted_leaf_unique siblingKeccak256 1 [anchorWindow eventsRoot]
    isAnchored_eventsRoot [eventOne] eventZero eventOne hfree).2 1 eventLeaves 0 hk rfl hroot hproof
    (by decide)
  exact ⟨hproof, hreject⟩

end Traceability.Anchoring.PartitionRecovery
