import Traceability.Generator.MerkleTree
import Traceability.Pallet.Mock

/-! What the generator's root commits to: the sequence of events at the leaves of its tree,
where the repetitions of an odd level count as events. -/
namespace Traceability.Generator
open Bytes Merkle

theorem text_ne_pairText {events : List Dict} {h : events ≠ []} {text : Bytes}
    (ht : text ∈ (textTree events h).leaves) (a b : Digest) : text ≠ pairText a b := by
  rw [leaves_textTree] at ht
  obtain ⟨event, -, rfl⟩ := List.mem_map.mp ht
  exact canonicalText_ne_pairText event a b

theorem encode_empty_ne_pairText (a b : Digest) : encode "empty" ≠ pairText a b := by
  intro h
  have hlen := congrArg List.length h
  rw [length_pairText] at hlen
  exact absurd hlen (by decide)

/-- The padded sequence is one of a perfect tree, so its length is a power of two. -/
theorem exists_length_padded {events : List Dict} (h : events ≠ []) :
    ∃ d, (padded events h).length = 2 ^ d := by
  obtain ⟨d, hd⟩ := exists_perfect_treeOf h
  exact ⟨d, hd.length_leaves⟩

section Roots
variable {blake2b : Bytes → Digest} {xs ys : List Dict}

theorem map_canonicalText_eq_iff {es es' : List Dict} :
    es.map (fun event => encode (canonicalText event)) =
      es'.map (fun event => encode (canonicalText event)) ↔
      es.map canonicalText = es'.map canonicalText := by
  have hcomp : ∀ es : List Dict, es.map (fun event => encode (canonicalText event)) =
      (es.map canonicalText).map encode := by simp
  rw [hcomp, hcomp]
  exact (List.map_injective_iff.mpr encode_injective).eq_iff

/-- The tree over the texts is determined by the padded events. -/
theorem textTree_eq_iff (hx : xs ≠ []) (hy : ys ≠ []) :
    textTree xs hx = textTree ys hy ↔
      (padded xs hx).map canonicalText = (padded ys hy).map canonicalText := by
  rw [← map_canonicalText_eq_iff, ← leaves_textTree, ← leaves_textTree]
  constructor
  · exact congrArg Merkle.Tree.leaves
  · intro h
    have hxtexts : xs.map (fun event => encode (canonicalText event)) ≠ [] := by simpa using hx
    have hytexts : ys.map (fun event => encode (canonicalText event)) ≠ [] := by simpa using hy
    obtain ⟨d, hd⟩ := exists_perfect_treeOf hxtexts
    obtain ⟨e, he⟩ := exists_perfect_treeOf hytexts
    exact hd.eq_of_leaves he h

/-- The root determines the tree over the texts. -/
theorem textTree_eq_of_root_eq (hx : xs ≠ []) (hy : ys ≠ [])
    (hfree : CollisionFree blake2b (hashedTexts blake2b xs ++ hashedTexts blake2b ys))
    (h : buildMerkleTree (blake2bHashing blake2b) xs =
      buildMerkleTree (blake2bHashing blake2b) ys) : textTree xs hx = textTree ys hy := by
  rw [buildMerkleTree_eq blake2b hx, buildMerkleTree_eq blake2b hy] at h
  rw [hashedTexts, dif_neg hx, hashedTexts, dif_neg hy] at hfree
  exact Merkle.Tree.digest_injective pairText_injective (fun _ ht => text_ne_pairText ht)
    (fun _ ht => text_ne_pairText ht) hfree (hexdigest_injective h)

theorem root_eq_iff_padded_eq (hx : xs ≠ []) (hy : ys ≠ [])
    (hfree : CollisionFree blake2b (hashedTexts blake2b xs ++ hashedTexts blake2b ys)) :
    buildMerkleTree (blake2bHashing blake2b) xs = buildMerkleTree (blake2bHashing blake2b) ys ↔
      (padded xs hx).map canonicalText = (padded ys hy).map canonicalText := by
  rw [← textTree_eq_iff]
  refine ⟨textTree_eq_of_root_eq hx hy hfree, fun h => ?_⟩
  rw [buildMerkleTree_eq blake2b hx, buildMerkleTree_eq blake2b hy, h]

/-- A list of events is where its padded sequence starts. -/
theorem prefix_map_padded (hx : xs ≠ []) :
    xs.map canonicalText <+: (padded xs hx).map canonicalText :=
  (prefix_leaves_treeOf hx).map canonicalText

/-- Lists of one length that start the same padded sequence are equal. -/
theorem eq_of_prefix_padded (hy : ys ≠ [])
    (h : xs.map canonicalText <+: (padded ys hy).map canonicalText)
    (hlen : xs.length = ys.length) : xs.map canonicalText = ys.map canonicalText := by
  have hlength : (xs.map canonicalText).length = (ys.map canonicalText).length := by simp [hlen]
  exact (List.prefix_of_prefix_length_le h (prefix_map_padded hy) hlength.le).eq_of_length hlength

theorem mem_map_padded (hx : xs ≠ []) {text : String} :
    text ∈ (padded xs hx).map canonicalText ↔ text ∈ xs.map canonicalText := by
  simp only [List.mem_map, padded, mem_leaves_treeOf]

theorem root_nil_ne (hx : xs ≠ [])
    (hfree : CollisionFree blake2b (encode "empty" :: hashedTexts blake2b xs)) :
    buildMerkleTree (blake2bHashing blake2b) [] ≠ buildMerkleTree (blake2bHashing blake2b) xs := by
  rw [hashedTexts, dif_neg hx] at hfree
  have hleaf : encode "empty" ∉ (textTree xs hx).leaves := by
    rw [leaves_textTree]
    intro hmem
    obtain ⟨event, -, heq⟩ := List.mem_map.mp hmem
    exact canonicalText_ne_empty event heq
  rw [buildMerkleTree_eq blake2b hx]
  intro h
  exact Merkle.Tree.digest_ne_of_notMem_leaves hleaf encode_empty_ne_pairText hfree
    (hexdigest_injective h).symm

/-- An inner node of the tree is no event's digest. -/
theorem inner_ne_hashEvent (hx : xs ≠ []) (event : Dict)
    (hfree : CollisionFree blake2b (encode (canonicalText event) :: hashedTexts blake2b xs))
    {t : Merkle.Tree Bytes} (ht : t ∈ (textTree xs hx).inner) :
    hexdigest (t.digest blake2b pairText) ≠ hashEvent blake2b event := by
  rw [hashedTexts, dif_neg hx] at hfree
  intro h
  exact Merkle.Tree.digest_ne_of_mem_inner ht (canonicalText_ne_pairText event) hfree
    (hexdigest_injective h)

/-- The exact collision class of the root. Two lists share a root exactly when they are padded
to the same sequence, so the root and the number of events together determine the list. -/
theorem root_collision_class (hx : xs ≠ []) (hy : ys ≠ []) (event : Dict)
    (hfree : CollisionFree blake2b (encode "empty" :: encode (canonicalText event) ::
      (hashedTexts blake2b xs ++ hashedTexts blake2b ys))) :
    (buildMerkleTree (blake2bHashing blake2b) xs = buildMerkleTree (blake2bHashing blake2b) ys ↔
      (padded xs hx).map canonicalText = (padded ys hy).map canonicalText) ∧
    buildMerkleTree (blake2bHashing blake2b) [] ≠ buildMerkleTree (blake2bHashing blake2b) xs ∧
    (buildMerkleTree (blake2bHashing blake2b) xs = buildMerkleTree (blake2bHashing blake2b) ys →
      xs.length = ys.length → xs.map canonicalText = ys.map canonicalText) ∧
    ∀ t ∈ (textTree xs hx).inner,
      hexdigest (t.digest blake2b pairText) ≠ hashEvent blake2b event := by
  have hroots : CollisionFree blake2b (hashedTexts blake2b xs ++ hashedTexts blake2b ys) :=
    hfree.mono fun u hu => by simp [hu]
  have hiff := root_eq_iff_padded_eq hx hy hroots
  refine ⟨hiff, root_nil_ne hx (hfree.mono ?_), fun hroot hlen => ?_, fun t ht => ?_⟩
  · intro u hu
    rcases List.mem_cons.mp hu with rfl | hu <;> simp [*]
  · have hstart := prefix_map_padded hx
    rw [hiff.mp hroot] at hstart
    exact eq_of_prefix_padded hy hstart hlen
  · refine inner_ne_hashEvent hx event (hfree.mono ?_) ht
    intro u hu
    rcases List.mem_cons.mp hu with rfl | hu <;> simp [*]

/-- Equal roots leave open how often the last events are repeated, and nothing else: each list
is where the sequence starts to which the other is padded. -/
theorem events_of_root_eq (hx : xs ≠ []) (hy : ys ≠ [])
    (hfree : CollisionFree blake2b (hashedTexts blake2b xs ++ hashedTexts blake2b ys))
    (hroot : buildMerkleTree (blake2bHashing blake2b) xs =
      buildMerkleTree (blake2bHashing blake2b) ys) :
    (xs.map canonicalText <+: (padded ys hy).map canonicalText ∧
      ys.map canonicalText <+: (padded xs hx).map canonicalText) ∧
    (xs.map canonicalText <+: ys.map canonicalText ∨
      ys.map canonicalText <+: xs.map canonicalText) ∧
    (xs.length = ys.length → xs.map canonicalText = ys.map canonicalText) ∧
    ∀ text, text ∈ xs.map canonicalText ↔ text ∈ ys.map canonicalText := by
  have hpadded := (root_eq_iff_padded_eq hx hy hfree).mp hroot
  have hstart : xs.map canonicalText <+: (padded ys hy).map canonicalText :=
    hpadded ▸ prefix_map_padded hx
  have hstart' : ys.map canonicalText <+: (padded xs hx).map canonicalText :=
    hpadded ▸ prefix_map_padded hy
  refine ⟨⟨hstart, hstart'⟩,
    List.prefix_or_prefix_of_prefix hstart (prefix_map_padded hy), fun hlen => ?_,
    fun text => ?_⟩
  · exact eq_of_prefix_padded hy hstart hlen
  · rw [← mem_map_padded hx, hpadded, mem_map_padded hy]

end Roots

/-- A dictionary of two fields. -/
def sampleEvent (deviceId : String) : Dict :=
  [("timestamp", .literal "1700000000"), ("device_id", .string deviceId)]

def threeEvents : List Dict :=
  [sampleEvent "farm-temp-001", sampleEvent "farm-humid-001", sampleEvent "transport-temp-001"]

/-- The same events with the last one repeated. -/
def fourEvents : List Dict := threeEvents ++ [sampleEvent "transport-temp-001"]

def tempDigest : Digest := Pallet.Mock.fixed 32
  0x2c45ba78d3832888f7d02d7d4577c710d71d575073aa342987c4356a8052192a

def humidDigest : Digest := Pallet.Mock.fixed 32
  0x01aa95489028665347d714af818ba084fd8ff7a7f50b2526cddf1d0847164ec9

def transportDigest : Digest := Pallet.Mock.fixed 32
  0x91623c99d3716bb1cc0111f1490df9bc4234bc9474293b0c5b3c65069107e43b

def leftDigest : Digest := Pallet.Mock.fixed 32
  0x37e0e29ea7c845552e51872537d0f36a004b512770c31c43e254733084489666

def rightDigest : Digest := Pallet.Mock.fixed 32
  0x5f5d4035401ffa1dfb0e93a9c375d5f413c4b9819fd3d2fa4d914efd5568f206

def sampleTable : List (Bytes × Digest) :=
  [(encode "empty", Pallet.Mock.fixed 32
      0xe55cb05aafa6f3d5b5f8f87bd7d989ddfd9d94cd62a343bec8c92e7b5ab4c7b4),
    (encode (canonicalText (sampleEvent "farm-temp-001")), tempDigest),
    (encode (canonicalText (sampleEvent "farm-humid-001")), humidDigest),
    (encode (canonicalText (sampleEvent "transport-temp-001")), transportDigest),
    (pairText tempDigest humidDigest, leftDigest),
    (pairText transportDigest transportDigest, rightDigest),
    (pairText leftDigest rightDigest, Pallet.Mock.fixed 32
      0xf172e101eb4c81fc4058c5bd5254f651bf07070937869a4585d888c9bcff758f)]

/-- BLAKE2b-256 on the texts of these lists. -/
def sampleBlake2b : Bytes → Digest := tableHash sampleTable (Vector.replicate 32 0)

/-- The tree that both lists build. -/
def sampleTree : Merkle.Tree Bytes :=
  .node (.node (.leaf (encode (canonicalText (sampleEvent "farm-temp-001"))))
      (.leaf (encode (canonicalText (sampleEvent "farm-humid-001")))))
    (.node (.leaf (encode (canonicalText (sampleEvent "transport-temp-001"))))
      (.leaf (encode (canonicalText (sampleEvent "transport-temp-001")))))

theorem textTree_threeEvents (h : threeEvents ≠ []) : textTree threeEvents h = sampleTree := by
  simp [textTree, threeEvents, treeOf, merkleRoot, levelLoop, nextLevel, sampleTree]

theorem textTree_fourEvents (h : fourEvents ≠ []) : textTree fourEvents h = sampleTree := by
  simp [textTree, fourEvents, threeEvents, treeOf, merkleRoot, levelLoop, nextLevel, sampleTree]

theorem sampleBlake2b_collisionFree :
    CollisionFree sampleBlake2b (encode "empty" :: sampleTree.hashed sampleBlake2b pairText) := by
  have hpair : pairText = _ := funext₂ pairText_eq
  apply tableHash_collisionFree _ (by decide +kernel)
  unfold sampleBlake2b
  rw [sampleTable, hpair]
  decide +kernel

theorem threeEvents_ne_nil : threeEvents ≠ [] := List.cons_ne_nil _ _

theorem fourEvents_ne_nil : fourEvents ≠ [] := List.cons_ne_nil _ _

theorem hashedTexts_threeEvents :
    hashedTexts sampleBlake2b threeEvents = sampleTree.hashed sampleBlake2b pairText := by
  unfold hashedTexts
  rw [dif_neg threeEvents_ne_nil, textTree_threeEvents]

theorem hashedTexts_fourEvents :
    hashedTexts sampleBlake2b fourEvents = sampleTree.hashed sampleBlake2b pairText := by
  unfold hashedTexts
  rw [dif_neg fourEvents_ne_nil, textTree_fourEvents]

theorem hashedTexts_sample_collisionFree : CollisionFree sampleBlake2b
    (hashedTexts sampleBlake2b threeEvents ++ hashedTexts sampleBlake2b fourEvents) := by
  rw [hashedTexts_threeEvents, hashedTexts_fourEvents]
  exact sampleBlake2b_collisionFree.mono fun u hu => by simpa using Or.inr hu

theorem root_threeEvents : buildMerkleTree (blake2bHashing sampleBlake2b) threeEvents =
    buildMerkleTree (blake2bHashing sampleBlake2b) fourEvents := by
  rw [buildMerkleTree_eq _ threeEvents_ne_nil, buildMerkleTree_eq _ fourEvents_ne_nil,
    textTree_threeEvents, textTree_fourEvents]

/-- The last of three events is paired with itself, as if it had been recorded twice. -/
theorem repeated_event_keeps_root :
    threeEvents ≠ [] ∧ fourEvents ≠ [] ∧
    CollisionFree sampleBlake2b
      (hashedTexts sampleBlake2b threeEvents ++ hashedTexts sampleBlake2b fourEvents) ∧
    buildMerkleTree (blake2bHashing sampleBlake2b) threeEvents =
      buildMerkleTree (blake2bHashing sampleBlake2b) fourEvents ∧
    threeEvents.map canonicalText ≠ fourEvents.map canonicalText := by
  refine ⟨threeEvents_ne_nil, fourEvents_ne_nil, hashedTexts_sample_collisionFree,
    root_threeEvents, fun h => ?_⟩
  exact absurd (congrArg List.length h) (by decide)

/-- On these lists only the repetition stays open. -/
theorem events_of_root_eq_sample :
    threeEvents.map canonicalText <+: fourEvents.map canonicalText ∨
      fourEvents.map canonicalText <+: threeEvents.map canonicalText :=
  (events_of_root_eq threeEvents_ne_nil fourEvents_ne_nil hashedTexts_sample_collisionFree
    root_threeEvents).2.1

/-- Three events and the same ones with the last repeated are padded alike. -/
theorem root_collision_class_sample :
    buildMerkleTree (blake2bHashing sampleBlake2b) threeEvents =
        buildMerkleTree (blake2bHashing sampleBlake2b) fourEvents ∧
      buildMerkleTree (blake2bHashing sampleBlake2b) [] ≠
        buildMerkleTree (blake2bHashing sampleBlake2b) threeEvents := by
  have hfree : CollisionFree sampleBlake2b (encode "empty" ::
      encode (canonicalText (sampleEvent "farm-temp-001")) ::
        (hashedTexts sampleBlake2b threeEvents ++ hashedTexts sampleBlake2b fourEvents)) := by
    rw [hashedTexts_threeEvents, hashedTexts_fourEvents]
    apply sampleBlake2b_collisionFree.mono
    intro u hu
    simp only [List.mem_cons, List.mem_append, or_self] at hu
    rcases hu with rfl | rfl | hu
    · exact List.mem_cons_self
    · simp [sampleTree, Merkle.Tree.hashed]
    · exact List.mem_cons_of_mem _ hu
  have hclass := root_collision_class threeEvents_ne_nil fourEvents_ne_nil
    (sampleEvent "farm-temp-001") hfree
  refine ⟨hclass.1.mpr ?_, hclass.2.1⟩
  rw [← textTree_eq_iff, textTree_threeEvents, textTree_fourEvents]

end Traceability.Generator
