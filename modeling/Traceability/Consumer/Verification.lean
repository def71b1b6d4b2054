import Traceability.Consumer.Tree
import Traceability.Generator.MerkleTree

/-! What a consumer's proof shows: the proof of every index verifies, a proof that verifies shows
the leaf at its index, and the tree is the one that the workload generator builds. -/
namespace Traceability.Consumer
open Bytes Merkle

/-- The parent of two nodes. -/
def hashConcat (h : Bytes → Bytes) (a b : Bytes) : Bytes := h (a ++ b)

section Sample

/-- Digests of the first three events of the measurement. -/
def firstDigest : Bytes :=
  bigEndian 32 0xe6dd1412db32fdc2e5403c08b31519847d860284c8244c67b5bf0b454cf87e63

def secondDigest : Bytes :=
  bigEndian 32 0xc6844a54722597639200e9aab1e78d3a54c22e650fbba230d745a5cc08b1e8f0

def thirdDigest : Bytes :=
  bigEndian 32 0x240c074e810a2a2a8dd3e9b1b0930f1cda731ca5ca998e35fc80372255553522

def leftDigest : Bytes :=
  bigEndian 32 0x2afd7d4908c27874c526d59ed6861ead5be1f0ec7d3aeb82a40592c8fbb72c81

def rightDigest : Bytes :=
  bigEndian 32 0xe039c117d10fdcf58a1301a61b99f2cb96821cf440a744db61cfb170ff045b94

def topDigest : Bytes :=
  bigEndian 32 0x48d703d5f6e655d9866a2c160cbdd9292c95f214e577d40f41829bdd45392b45

def sampleTable : List (Bytes × Bytes) :=
  [(firstDigest ++ secondDigest, leftDigest), (thirdDigest ++ thirdDigest, rightDigest),
    (leftDigest ++ rightDigest, topDigest)]

/-- BLAKE2b-256 on the texts of their tree. -/
def sampleHash : Bytes → Bytes := tableHash sampleTable (List.replicate 32 0)

def sampleLeaves : List Bytes := [firstDigest, secondDigest, thirdDigest]

theorem hashConcat_sample :
    hashConcat sampleHash firstDigest secondDigest = leftDigest ∧
    hashConcat sampleHash thirdDigest thirdDigest = rightDigest ∧
    hashConcat sampleHash leftDigest rightDigest = topDigest := by
  decide +kernel

theorem build_sampleLeaves : build (hashConcat sampleHash) sampleLeaves =
    some [sampleLeaves, [leftDigest, rightDigest], [topDigest]] := by
  obtain ⟨hleft, hright, htop⟩ := hashConcat_sample
  rw [build_eq]
  simp [levels, sampleLeaves, nextLevel, hleft, hright, htop]

theorem length_sampleHash (text : Bytes) : (sampleHash text).length = 32 := by
  refine tableHash_induction (P := fun digest : Bytes => digest.length = 32) rfl ?_ text
  simp [sampleTable, leftDigest, rightDigest, topDigest]

theorem length_sampleLeaves : ∀ l ∈ sampleLeaves, l.length = 32 := by
  simp [sampleLeaves, firstDigest, secondDigest, thirdDigest]

theorem sampleHash_collisionFree :
    CollisionFree sampleHash [thirdDigest ++ thirdDigest, leftDigest ++ rightDigest] :=
  tableHash_collisionFree _ (by decide +kernel) (by simp [sampleTable])

end Sample

/-- Every leaf of every tree has a proof, which never indexes out of range and verifies. -/
theorem proof_verifies (h : Bytes → Bytes) (leaves : List Bytes) {idx : ℕ}
    (hidx : idx < leaves.length) :
    ∃ levels pr root, build (hashConcat h) leaves = some levels ∧ proof levels idx = some pr ∧
      rootOf levels = some root ∧ verify (hashConcat h) leaves[idx] idx pr root = true := by
  have hne : leaves ≠ [] := List.ne_nil_of_length_pos (by omega)
  refine ⟨_, _, _, build_eq _ leaves, proof_levels _ hidx, rootOf_levels _ hne, ?_⟩
  unfold verify
  rw [decide_eq_true_iff, verifyLoop_eq]
  exact climbAt_siblings (hashConcat h) hidx hne

/-- The third of three leaves, which is paired with itself. -/
theorem proof_verifies_sample :
    ∃ levels pr root, build (hashConcat sampleHash) sampleLeaves = some levels ∧
      proof levels 2 = some pr ∧ rootOf levels = some root ∧
      verify (hashConcat sampleHash) thirdDigest 2 pr root = true :=
  proof_verifies sampleHash sampleLeaves (show 2 < sampleLeaves.length by decide)

section Sound
variable (h : Bytes → Bytes)

/-- The texts that `build` hashes on the path of an index. -/
def pathTexts (leaves : List Bytes) {idx : ℕ} (hidx : idx < leaves.length) : List Bytes :=
  (pathPairs (hashConcat h) leaves idx hidx).map fun p => p.1 ++ p.2

/-- The texts that `verify` hashes. -/
def verifyTexts (leaf : Bytes) (idx : ℕ) (pr : List Bytes) : List Bytes :=
  climbAtTexts h (fun a b => a ++ b) leaf idx pr

end Sound

/-- A concatenation with a digest on one side shows the digest. -/
theorem showsHalves_append :
    ShowsHalves (fun a : Bytes => a.length = 32) (fun a b : Bytes => a ++ b) where
  left ha hc heq := List.append_inj_left heq (ha.trans hc.symm)
  right hb hd heq := List.append_inj_right' heq (hb.trans hd.symm)

/-- With a collision-free hash a list of siblings as long as the honest one, however it was
chosen, verifies for no leaf but the one at the index. -/
theorem verified_leaf_eq {h : Bytes → Bytes} (hdigest : ∀ b, (h b).length = 32)
    {leaves : List Bytes} (hleaves : ∀ l ∈ leaves, l.length = 32) {idx : ℕ}
    (hidx : idx < leaves.length) {levels : List (List Bytes)} {honest : List Bytes} {root : Bytes}
    (hbuild : build (hashConcat h) leaves = some levels) (hproof : proof levels idx = some honest)
    (hroot : rootOf levels = some root) {leaf : Bytes} (hleaf : leaf.length = 32)
    {pr : List Bytes} (hlength : pr.length = honest.length)
    (hfree : CollisionFree h (pathTexts h leaves hidx ++ verifyTexts h leaf idx pr))
    (hverify : verify (hashConcat h) leaf idx pr root = true) : leaf = leaves[idx] := by
  have hne : leaves ≠ [] := List.ne_nil_of_length_pos (by omega)
  obtain rfl := Option.some_inj.mp ((build_eq _ leaves).symm.trans hbuild)
  obtain rfl := Option.some_inj.mp ((proof_levels _ hidx).symm.trans hproof)
  obtain rfl := Option.some_inj.mp ((rootOf_levels _ hne).symm.trans hroot)
  unfold verify at hverify
  rw [decide_eq_true_iff, verifyLoop_eq] at hverify
  exact eq_of_climbAt_eq_merkleRoot showsHalves_append hdigest hleaves hidx hne hleaf hlength hfree
    hverify

theorem pathTexts_sampleLeaves (hindex : 2 < sampleLeaves.length) :
    pathTexts sampleHash sampleLeaves hindex =
      [thirdDigest ++ thirdDigest, leftDigest ++ rightDigest] := by
  obtain ⟨hleft, hright, -⟩ := hashConcat_sample
  simp [pathTexts, pathPairs, pairAt, nextLevel, sampleLeaves, hleft, hright]

theorem verifyTexts_sample : verifyTexts sampleHash thirdDigest 2 [thirdDigest, leftDigest] =
    [thirdDigest ++ thirdDigest, leftDigest ++ rightDigest] := by
  have hright : sampleHash (thirdDigest ++ thirdDigest) = rightDigest := hashConcat_sample.2.1
  simp [verifyTexts, climbAtTexts, sideJoin, hright]

/-- The proof of the third leaf verifies for a leaf that is the third one. -/
theorem verified_leaf_eq_sample :
    verify (hashConcat sampleHash) thirdDigest 2 [thirdDigest, leftDigest] topDigest = true ∧
      sampleLeaves[2]? = some thirdDigest := by
  have hindex : 2 < sampleLeaves.length := by decide
  have hverify : verify (hashConcat sampleHash) thirdDigest 2 [thirdDigest, leftDigest]
      topDigest = true := by decide +kernel
  have hfree : CollisionFree sampleHash (pathTexts sampleHash sampleLeaves hindex ++
      verifyTexts sampleHash thirdDigest 2 [thirdDigest, leftDigest]) := by
    rw [pathTexts_sampleLeaves, verifyTexts_sample]
    exact sampleHash_collisionFree.mono (by simp)
  have hleaf := verified_leaf_eq length_sampleHash length_sampleLeaves hindex build_sampleLeaves
    rfl rfl (length_sampleLeaves thirdDigest (by simp [sampleLeaves])) rfl hfree hverify
  exact ⟨hverify, congrArg some hleaf.symm⟩

/-- The loop of the generator and the loop of the measurement end in the same single root, over
any digests and however two nodes are combined. -/
theorem builders_agree {ν : Type} (combine : ν → ν → ν) {digests : List ν} (h : digests ≠ []) :
    ∃ levels root, build combine digests = some levels ∧ levels.getLast? = some [root] ∧
      levelLoop (nextLevel combine) (length_nextLevel_lt combine) digests = [root] ∧
      ∀ (hashing : Generator.Hashing ν) (events : List Generator.Dict),
        hashing.combine = combine → events.map hashing.hashEvent = digests →
        Generator.buildMerkleTree hashing events = root := by
  refine ⟨_, _, build_eq combine digests, getLast?_build combine h,
    levelLoop_eq_singleton combine h, ?_⟩
  rintro hashing events rfl rfl
  have hne : events ≠ [] := by simpa using h
  rw [Generator.buildMerkleTree, dif_neg hne]

/-- Both loops over the three leaves. -/
theorem builders_agree_sample :
    ∃ levels root, build (hashConcat sampleHash) sampleLeaves = some levels ∧
      levels.getLast? = some [root] :=
  let ⟨levels, root, hbuild, hlast, _⟩ :=
    builders_agree (hashConcat sampleHash) (List.cons_ne_nil _ _ : sampleLeaves ≠ [])
  ⟨levels, root, hbuild, hlast⟩

end Traceability.Consumer
