import Traceability.Anchoring.Membership
import Traceability.Generator.Commitment
import Traceability.Merkle.Path

/-! Roots of the workload generator on the contract. The generator hashes a left and a right
node, the verifier a smaller and a larger one; both are given the same hash of two words here. -/
namespace Traceability.Anchoring
open Machine Bytes Merkle Generator

/-- The generator's hashing over words. -/
def wordHashing (keccak256 : Bytes → Bytes32) (hashEvent : Dict → Bytes32) (empty : Bytes32) :
    Hashing Bytes32 where
  hashEvent := hashEvent
  combine left right := keccak256 (encodePacked left right)
  empty := empty

section Proofs
variable (hashing : Hashing Bytes32) (events : List Dict) {i : ℕ} (hi : i < events.length)

/-- The sibling digests on the path of event `i`. -/
def generatedProof : List Bytes32 :=
  siblings hashing.combine (events.map hashing.hashEvent) i (by simpa using hi)

/-- The left and right nodes on that path. -/
def generatedPairs : List (Bytes32 × Bytes32) :=
  pathPairs hashing.combine (events.map hashing.hashEvent) i (by simpa using hi)

/-- What both sides hash for event `i`. -/
def generatedTexts (keccak256 : Bytes → Bytes32) : List Bytes :=
  (generatedPairs hashing events hi).map (fun p => encodePacked p.1 p.2) ++
    climbTexts keccak256 encodePacked (hashing.hashEvent events[i])
      (generatedProof hashing events hi)

end Proofs

/-- A generated root verifies on the contract for event `i` exactly when, on every level of its
path, the left digest is not larger than the right one. -/
theorem generated_proof_verifies_iff (keccak256 : Bytes → Bytes32) (hashEvent : Dict → Bytes32)
    (empty : Bytes32) (deployer : Address) (txs : List Transaction) (events : List Dict) {i : ℕ}
    (hi : i < events.length)
    (hanchored : (stateAfter deployer txs).isAnchored
      (buildMerkleTree (wordHashing keccak256 hashEvent empty) events) = true)
    (hfree : CollisionFree keccak256
      (generatedTexts (wordHashing keccak256 hashEvent empty) events hi keccak256)) :
    verifyMerkleProof (stateAfter deployer txs) keccak256
        (buildMerkleTree (wordHashing keccak256 hashEvent empty) events)
        (generatedProof (wordHashing keccak256 hashEvent empty) events hi)
        (hashEvent events[i]) = .ok true ↔
      ∀ p ∈ generatedPairs (wordHashing keccak256 hashEvent empty) events hi, p.1 ≤ p.2 := by
  have hne : events ≠ [] := List.ne_nil_of_length_pos (by omega)
  rw [verifyMerkleProof_eq_true_iff hanchored, buildMerkleTree, dif_neg hne]
  have hindex : i < (events.map hashEvent).length := by simpa using hi
  have hleaf : hashEvent events[i] = (events.map hashEvent)[i] := by simp
  have hclimb := climb_siblings_iff encodePacked_injective hindex (by simpa using hne)
    (hashEvent events[i]) hfree
  rw [and_iff_right hleaf] at hclimb
  exact hclimb

section TwoEvents
variable (hashing : Hashing Bytes32) (a b : Dict)

theorem buildMerkleTree_pair : buildMerkleTree hashing [a, b] =
    hashing.combine (hashing.hashEvent a) (hashing.hashEvent b) := by
  simp [buildMerkleTree, merkleRoot, levelLoop, nextLevel]

theorem generatedProof_pair (h : 0 < [a, b].length) :
    generatedProof hashing [a, b] h = [hashing.hashEvent b] := by
  simp [generatedProof, siblings, siblingAt, pairAt, nextLevel]

theorem generatedPairs_pair (h : 0 < [a, b].length) :
    generatedPairs hashing [a, b] h = [(hashing.hashEvent a, hashing.hashEvent b)] := by
  simp [generatedPairs, pathPairs, pairAt, nextLevel]

theorem generatedTexts_pair (keccak256 : Bytes → Bytes32) (h : 0 < [a, b].length) :
    generatedTexts hashing [a, b] h keccak256 =
      [encodePacked (hashing.hashEvent a) (hashing.hashEvent b),
        sortedJoin encodePacked (hashing.hashEvent a) (hashing.hashEvent b)] := by
  unfold generatedTexts
  rw [generatedPairs_pair, generatedProof_pair]
  rfl

end TwoEvents

/-- Two readings, whose digests come in descending order. -/
def tempEvent : Dict := sampleEvent "farm-temp-001"

def humidEvent : Dict := sampleEvent "farm-humid-001"

def tempWord : Bytes32 := 0x2c45ba78d3832888f7d02d7d4577c710d71d575073aa342987c4356a8052192a

def humidWord : Bytes32 := 0x01aa95489028665347d714af818ba084fd8ff7a7f50b2526cddf1d0847164ec9

def readingsRoot : Bytes32 := 0x63f6f6e7883111220b68709dfe0d3f442708e50eb80e81e7c5e2bd68fbe377c1

def reversedRoot : Bytes32 := 0xe95968d4e012694e33309c8f8b49177970fe7013f75e2b1a748954c4b0cee100

/-- BLAKE2b-256 on the two readings. -/
def readingDigest (event : Dict) : Bytes32 :=
  tableHash [(encode (canonicalText tempEvent), tempWord),
    (encode (canonicalText humidEvent), humidWord)] 0 (encode (canonicalText event))

/-- Keccak-256 on the two orders of their digests. -/
def readingKeccak256 : Bytes → Bytes32 :=
  tableHash [(encodePacked tempWord humidWord, readingsRoot),
    (encodePacked humidWord tempWord, reversedRoot)] 0

def readingHashing : Hashing Bytes32 := wordHashing readingKeccak256 readingDigest 0

theorem hashEvent_tempEvent : readingHashing.hashEvent tempEvent = tempWord := by decide +kernel

theorem hashEvent_humidEvent : readingHashing.hashEvent humidEvent = humidWord := by decide +kernel

theorem combine_readings : readingHashing.combine tempWord humidWord = readingsRoot := by
  decide +kernel

theorem combine_reversed : readingHashing.combine humidWord tempWord = reversedRoot := by
  decide +kernel

theorem sortedJoin_readings :
    sortedJoin encodePacked tempWord humidWord = encodePacked humidWord tempWord :=
  sortedJoin_of_ge (by decide)

theorem readingKeccak256_collisionFree : CollisionFree readingKeccak256
    [encodePacked tempWord humidWord, encodePacked humidWord tempWord] :=
  tableHash_collisionFree _ (by decide) fun text h => by simpa using h

/-- The generator's own root and proof are refused for the first of the two readings. -/
theorem descending_readings_refused :
    (stateAfter 1 [anchorWindow readingsRoot]).isAnchored
      (buildMerkleTree readingHashing [tempEvent, humidEvent]) = true ∧
    CollisionFree readingKeccak256
      (generatedTexts readingHashing [tempEvent, humidEvent] Nat.two_pos readingKeccak256) ∧
    verifyMerkleProof (stateAfter 1 [anchorWindow readingsRoot]) readingKeccak256
      (buildMerkleTree readingHashing [tempEvent, humidEvent])
      (generatedProof readingHashing [tempEvent, humidEvent] Nat.two_pos)
      (readingHashing.hashEvent tempEvent) = .ok false := by
  have hanchored := isAnchored_anchorWindow (by decide : readingsRoot ≠ 0)
  rw [buildMerkleTree_pair, generatedTexts_pair, generatedProof_pair, hashEvent_tempEvent,
    hashEvent_humidEvent, combine_readings, sortedJoin_readings]
  refine ⟨hanchored, readingKeccak256_collisionFree, ?_⟩
  rw [verifyMerkleProof_eq hanchored]
  have hclimb : climb readingKeccak256 encodePacked tempWord [humidWord] = reversedRoot := by
    unfold climb
    rw [List.foldl_cons, List.foldl_nil, Merkle.hashPair, sortedJoin_readings]
    exact combine_reversed
  rw [hclimb]
  decide

/-- In ascending order they are accepted. -/
theorem generated_proof_verifies_iff_readings :
    verifyMerkleProof (stateAfter 1 [anchorWindow reversedRoot]) readingKeccak256
      (buildMerkleTree readingHashing [humidEvent, tempEvent])
      (generatedProof readingHashing [humidEvent, tempEvent] Nat.two_pos)
      (readingDigest humidEvent) = .ok true := by
  have hanchored : (stateAfter 1 [anchorWindow reversedRoot]).isAnchored
      (buildMerkleTree readingHashing [humidEvent, tempEvent]) = true := by
    rw [buildMerkleTree_pair, hashEvent_tempEvent, hashEvent_humidEvent, combine_reversed]
    exact isAnchored_anchorWindow (by decide)
  have hfree : CollisionFree readingKeccak256
      (generatedTexts readingHashing [humidEvent, tempEvent] Nat.two_pos readingKeccak256) := by
    rw [generatedTexts_pair, hashEvent_tempEvent, hashEvent_humidEvent, sortedJoin_comm,
      sortedJoin_readings]
    exact readingKeccak256_collisionFree.mono (by simp)
  refine (generated_proof_verifies_iff readingKeccak256 readingDigest 0 1
    [anchorWindow reversedRoot] [humidEvent, tempEvent] Nat.two_pos hanchored hfree).mpr ?_
  intro p hp
  have hpairs : p ∈ generatedPairs readingHashing [humidEvent, tempEvent] Nat.two_pos := hp
  rw [generatedPairs_pair, hashEvent_tempEvent, hashEvent_humidEvent, List.mem_singleton] at hpairs
  rw [hpairs]
  decide

end Traceability.Anchoring
