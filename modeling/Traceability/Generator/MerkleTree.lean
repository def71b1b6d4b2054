import Traceability.Generator.Json
import Traceability.Merkle.Commitment

/-! The workload generator's Merkle tree. Its nodes are hexadecimal texts, a parent hashes
the text of its two children, and a node without a neighbour is paired with itself. -/
namespace Traceability.Generator
open Bytes Merkle

abbrev Digest := Vector UInt8 32

def hexdigest (d : Digest) : String := hex d.toList

theorem hexdigest_injective : Function.Injective hexdigest := fun _ _ => hex_toList_injective

/-- What a tree is built from: the digest of an event, of two nodes, and of no event. -/
structure Hashing (ν : Type) where
  hashEvent : Dict → ν
  combine : ν → ν → ν
  empty : ν

/-- Build the tree level by level and return its root (Algorithm 4, line 8). -/
def buildMerkleTree {ν : Type} (hashing : Hashing ν) (events : List Dict) : ν :=
  if h : events = [] then hashing.empty
  else merkleRoot hashing.combine (events.map hashing.hashEvent) (by simpa using h)

/-- Hash one event. -/
def hashEvent (blake2b : Bytes → Digest) (event : Dict) : String :=
  hexdigest (blake2b (encode (canonicalText event)))

/-- The generator's own hashing. -/
def blake2bHashing (blake2b : Bytes → Digest) : Hashing String where
  hashEvent := hashEvent blake2b
  combine left right := hexdigest (blake2b (encode (left ++ right)))
  empty := hexdigest (blake2b (encode "empty"))

/-- The text a parent hashes. -/
def pairText (a b : Digest) : Bytes := encode (hexdigest a ++ hexdigest b)

theorem pairText_injective (a b c d : Digest) (h : pairText a b = pairText c d) :
    a = c ∧ b = d := by
  unfold pairText at h
  rw [encode_append, encode_append] at h
  obtain ⟨hl, hr⟩ := List.append_inj h (by simp [hexdigest])
  exact ⟨hexdigest_injective (encode_injective hl), hexdigest_injective (encode_injective hr)⟩

theorem pairText_eq (a b : Digest) :
    pairText a b = (a.toList ++ b.toList).flatMap
      fun byte => [hexByte (byte.toNat / 16), hexByte (byte.toNat % 16)] := by
  unfold pairText
  rw [encode_append, hexdigest, hexdigest, encode_hex, encode_hex, List.flatMap_append]

theorem length_pairText (a b : Digest) : (pairText a b).length = 128 := by
  simp [pairText, hexdigest]

/-- An event's text starts with a brace, which is no hexadecimal digit. -/
theorem canonicalText_ne_pairText (event : Dict) (a b : Digest) :
    encode (canonicalText event) ≠ pairText a b := by
  intro h
  obtain ⟨rest, hrest⟩ := exists_encode_canonicalText event
  have hhead : (encode (hexdigest a)).head? = some 0x7b := by
    have hlen : (encode (hexdigest a)).length = 64 := by simp [hexdigest]
    rw [hrest, pairText, encode_append] at h
    match ha : encode (hexdigest a) with
    | [] => simp [ha] at hlen
    | c :: cs =>
      rw [ha] at h
      rw [List.head?_cons, (List.cons.inj h).1]
  obtain ⟨n, hn, hbyte⟩ := head?_encode_hex hhead
  have hall : ∀ n : Fin 16, 0x7b ≠ hexByte n := by decide
  exact hall ⟨n, hn⟩ hbyte

theorem canonicalText_ne_empty (event : Dict) :
    encode (canonicalText event) ≠ encode "empty" := by
  obtain ⟨rest, hrest⟩ := exists_encode_canonicalText event
  rw [hrest]
  intro h
  exact absurd (List.cons.inj h).1 (by decide)

/-- The tree over the events' texts. -/
def textTree (events : List Dict) (h : events ≠ []) : Merkle.Tree Bytes :=
  treeOf (events.map fun event => encode (canonicalText event)) (by simpa using h)

/-- The texts hashed while the tree of the events is built. -/
def hashedTexts (blake2b : Bytes → Digest) (events : List Dict) : List Bytes :=
  if h : events = [] then [encode "empty"] else (textTree events h).hashed blake2b pairText

/-- The root is the digest of the tree over the texts. -/
theorem buildMerkleTree_eq (blake2b : Bytes → Digest) {events : List Dict} (h : events ≠ []) :
    buildMerkleTree (blake2bHashing blake2b) events =
      hexdigest ((textTree events h).digest blake2b pairText) := by
  unfold buildMerkleTree
  rw [dif_neg h, Merkle.Tree.digest, textTree, eval_treeOf,
    map_merkleRoot (fun a b => blake2b (pairText a b)) (blake2bHashing blake2b).combine hexdigest
      fun _ _ => rfl]
  simp only [List.map_map]
  rfl

/-- The events at the leaves of the tree, its repeated nodes expanded. -/
def padded (events : List Dict) (h : events ≠ []) : List Dict := (treeOf events h).leaves

theorem leaves_textTree {events : List Dict} (h : events ≠ []) :
    (textTree events h).leaves =
      (padded events h).map fun event => encode (canonicalText event) := by
  unfold textTree
  rw [treeOf_map _ h, Merkle.Tree.leaves_eval_leaf]
  rfl

end Traceability.Generator
