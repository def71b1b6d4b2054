import Traceability.Merkle.Commitment
import Mathlib.Order.Defs.LinearOrder

/-! Merkle proofs without sides. A verifier that hashes each pair with the smaller node first
accepts a node of the tree presented with its siblings, or what hashes up to a leaf. -/
namespace Traceability.Merkle

variable {α τ : Type*}

/-- A node's path with one more sibling above. -/
def extendPath (sibling : α) (p : α × List α) : α × List α := (p.1, p.2 ++ [sibling])

theorem mem_map_extendPath {paths : List (α × List α)} {leaf sibling above : α} {proof : List α} :
    (leaf, proof ++ [sibling]) ∈ paths.map (extendPath above) ↔
      sibling = above ∧ (leaf, proof) ∈ paths := by
  rw [List.mem_map]
  constructor
  · rintro ⟨p, hp, heq⟩
    obtain ⟨rfl, hproof⟩ := Prod.mk.inj heq
    obtain ⟨rfl, habove⟩ := List.append_inj' hproof rfl
    exact ⟨(List.cons.inj habove).1.symm, hp⟩
  · rintro ⟨rfl, hp⟩
    exact ⟨_, hp, rfl⟩

theorem exists_extendPath {paths : List (α × List α)} {sibling above : α} {proof : List α}
    {P : α → List α → Prop} :
    (∃ p ∈ paths.map (extendPath above), ∃ below, proof ++ [sibling] = below ++ p.2 ∧ P p.1 below) ↔
      sibling = above ∧ ∃ p ∈ paths, ∃ below, proof = below ++ p.2 ∧ P p.1 below := by
  constructor
  · rintro ⟨_, hmem, below, hproof, hP⟩
    obtain ⟨p, hp, rfl⟩ := List.mem_map.mp hmem
    unfold extendPath at hproof
    rw [← List.append_assoc] at hproof
    obtain ⟨hbelow, habove⟩ := List.append_inj' hproof rfl
    exact ⟨(List.cons.inj habove).1, p, hp, below, hbelow, hP⟩
  · rintro ⟨rfl, p, hp, below, rfl, hP⟩
    exact ⟨_, List.mem_map_of_mem hp, below, List.append_assoc _ _ _, hP⟩

variable [LinearOrder α]

/-- The text of a pair, the smaller node first. -/
def sortedJoin (join : α → α → τ) (a b : α) : τ := if a < b then join a b else join b a

section Join
variable {join : α → α → τ}

theorem sortedJoin_of_le {a b : α} (h : a ≤ b) : sortedJoin join a b = join a b := by
  rcases h.lt_or_eq with h | rfl
  · exact if_pos h
  · exact ite_self _

theorem sortedJoin_of_ge {a b : α} (h : b ≤ a) : sortedJoin join a b = join b a :=
  if_neg h.not_gt

theorem sortedJoin_comm (a b : α) : sortedJoin join a b = sortedJoin join b a := by
  rcases le_total a b with h | h
  · rw [sortedJoin_of_le h, sortedJoin_of_ge h]
  · rw [sortedJoin_of_ge h, sortedJoin_of_le h]

/-- A sorted text determines its pair up to order. -/
theorem sortedJoin_eq_iff (hjoin : ∀ a b c d, join a b = join c d → a = c ∧ b = d) {a b c d : α} :
    sortedJoin join a b = sortedJoin join c d ↔ a = c ∧ b = d ∨ a = d ∧ b = c := by
  constructor
  · intro h
    rcases le_total a b with hab | hab <;> rcases le_total c d with hcd | hcd
    · rw [sortedJoin_of_le hab, sortedJoin_of_le hcd] at h
      exact .inl (hjoin _ _ _ _ h)
    · rw [sortedJoin_of_le hab, sortedJoin_of_ge hcd] at h
      exact .inr (hjoin _ _ _ _ h)
    · rw [sortedJoin_of_ge hab, sortedJoin_of_le hcd] at h
      exact .inr (hjoin _ _ _ _ h).symm
    · rw [sortedJoin_of_ge hab, sortedJoin_of_ge hcd] at h
      exact .inl (hjoin _ _ _ _ h).symm
  · rintro (⟨rfl, rfl⟩ | ⟨rfl, rfl⟩)
    · rfl
    · exact sortedJoin_comm a b

end Join

variable (hash : τ → α) (join : α → α → τ)

def hashPair (a b : α) : α := hash (sortedJoin join a b)

/-- The node that a leaf and the siblings above it hash to. -/
def climb (leaf : α) (proof : List α) : α := proof.foldl (hashPair hash join) leaf

/-- The texts hashed on the way. -/
def climbTexts : α → List α → List τ
  | _, [] => []
  | leaf, sibling :: proof =>
    sortedJoin join leaf sibling :: climbTexts (hashPair hash join leaf sibling) proof

variable {hash join} in
/-- With a collision-free hash the siblings lead no two nodes to one. -/
theorem climb_injective (hjoin : ∀ a b c d, join a b = join c d → a = c ∧ b = d)
    {leaf leaf' : α} {proof : List α}
    (hfree : CollisionFree hash
      (climbTexts hash join leaf proof ++ climbTexts hash join leaf' proof))
    (h : climb hash join leaf proof = climb hash join leaf' proof) : leaf = leaf' := by
  induction proof generalizing leaf leaf' with
  | nil => exact h
  | cons sibling proof ih =>
    rw [climbTexts, climbTexts] at hfree
    have hnode : hashPair hash join leaf sibling = hashPair hash join leaf' sibling := by
      refine ih (hfree.mono fun u hu => ?_) h
      rcases List.mem_append.mp hu with hu | hu <;> simp [hu]
    have htext := hfree _ (by simp) _ (by simp) hnode
    rcases (sortedJoin_eq_iff hjoin).mp htext with ⟨hleaf, -⟩ | ⟨hleaf, hsibling⟩
    · exact hleaf
    · exact hleaf.trans hsibling

theorem climb_concat (leaf sibling : α) (proof : List α) :
    climb hash join leaf (proof ++ [sibling]) =
      hashPair hash join (climb hash join leaf proof) sibling := by
  simp [climb]

theorem climbTexts_concat (leaf sibling : α) (proof : List α) :
    climbTexts hash join leaf (proof ++ [sibling]) = climbTexts hash join leaf proof ++
      [sortedJoin join (climb hash join leaf proof) sibling] := by
  induction proof generalizing leaf with
  | nil => rfl
  | cons p proof ih =>
    rw [List.cons_append, climbTexts, ih]
    rfl

namespace Tree

/-- The root of a tree over digests. -/
def sortedRoot : Tree α → α := eval id (hashPair hash join)

/-- The texts hashed to compute it. -/
def sortedTexts : Tree α → List τ
  | leaf _ => []
  | node l r => sortedJoin join (l.sortedRoot hash join) (r.sortedRoot hash join) ::
      (l.sortedTexts ++ r.sortedTexts)

/-- The nodes that are not leaves, each with its siblings from the bottom to the top. -/
def innerPaths : Tree α → List (α × List α)
  | leaf _ => []
  | node l r => ((node l r).sortedRoot hash join, []) ::
      (l.innerPaths.map (extendPath (r.sortedRoot hash join)) ++
        r.innerPaths.map (extendPath (l.sortedRoot hash join)))

/-- The leaves, each with its siblings from the bottom to the top. -/
def leafPaths : Tree α → List (α × List α)
  | leaf a => [(a, [])]
  | node l r => l.leafPaths.map (extendPath (r.sortedRoot hash join)) ++
      r.leafPaths.map (extendPath (l.sortedRoot hash join))

variable {hash join}

theorem map_fst_leafPaths (t : Tree α) : (t.leafPaths hash join).map Prod.fst = t.leaves := by
  induction t with
  | leaf a => rfl
  | node l r ihl ihr => simp [leafPaths, leaves, ← ihl, ← ihr, Function.comp_def, extendPath]

theorem length_of_mem_leafPaths {t : Tree α} {d : ℕ} (ht : t.Perfect d) {p : α × List α}
    (hp : p ∈ t.leafPaths hash join) : p.2.length = d := by
  induction t generalizing d p with
  | leaf a =>
    cases d with
    | zero => rw [List.mem_singleton.mp hp]; rfl
    | succ d => exact ht.elim
  | node l r ihl ihr =>
    cases d with
    | zero => exact ht.elim
    | succ d =>
      rcases List.mem_append.mp hp with hp | hp
      · obtain ⟨q, hq, rfl⟩ := List.mem_map.mp hp
        simp [extendPath, ihl ht.1 hq]
      · obtain ⟨q, hq, rfl⟩ := List.mem_map.mp hp
        simp [extendPath, ihr ht.2 hq]

theorem length_of_mem_innerPaths {t : Tree α} {d : ℕ} (ht : t.Perfect d) {p : α × List α}
    (hp : p ∈ t.innerPaths hash join) : p.2.length < d := by
  induction t generalizing d p with
  | leaf a => exact absurd hp List.not_mem_nil
  | node l r ihl ihr =>
    cases d with
    | zero => exact ht.elim
    | succ d =>
      rcases List.mem_cons.mp hp with rfl | hp
      · exact Nat.succ_pos d
      · rcases List.mem_append.mp hp with hp | hp
        · obtain ⟨q, hq, rfl⟩ := List.mem_map.mp hp
          simpa [extendPath] using ihl ht.1 hq
        · obtain ⟨q, hq, rfl⟩ := List.mem_map.mp hp
          simpa [extendPath] using ihr ht.2 hq

/-- A leaf and proof that present an inner node, or that hash up to a leaf and go on with its
siblings. -/
def Presents (hash : τ → α) (join : α → α → τ) (t : Tree α) (leaf : α) (proof : List α) : Prop :=
  (leaf, proof) ∈ t.innerPaths hash join ∨
    ∃ p ∈ t.leafPaths hash join, ∃ below, proof = below ++ p.2 ∧ climb hash join leaf below = p.1

theorem presents_nil {l r : Tree α} {leaf : α} :
    (node l r).Presents hash join leaf [] ↔ leaf = (node l r).sortedRoot hash join := by
  simp [Presents, innerPaths, leafPaths, extendPath]

/-- The last sibling of a proof tells the side. -/
theorem presents_concat {l r : Tree α} {leaf sibling : α} {proof : List α} :
    (node l r).Presents hash join leaf (proof ++ [sibling]) ↔
      sibling = r.sortedRoot hash join ∧ l.Presents hash join leaf proof ∨
        sibling = l.sortedRoot hash join ∧ r.Presents hash join leaf proof := by
  have hinner : (leaf, proof ++ [sibling]) ∈ (node l r).innerPaths hash join ↔
      sibling = r.sortedRoot hash join ∧ (leaf, proof) ∈ l.innerPaths hash join ∨
        sibling = l.sortedRoot hash join ∧ (leaf, proof) ∈ r.innerPaths hash join := by
    rw [innerPaths, List.mem_cons, List.mem_append, mem_map_extendPath, mem_map_extendPath]
    exact or_iff_right fun heq => by simp at heq
  rw [Presents, hinner, leafPaths]
  simp only [List.mem_append, or_and_right, exists_or]
  rw [exists_extendPath (P := fun a below => climb hash join leaf below = a),
    exists_extendPath (P := fun a below => climb hash join leaf below = a), Presents, Presents,
    and_or_left, and_or_left, or_or_or_comm]

/-- With a collision-free hash, what climbs to the root is presented by the tree. -/
theorem climb_eq_sortedRoot_iff (hjoin : ∀ a b c d, join a b = join c d → a = c ∧ b = d)
    {t : Tree α} {leaf : α} {proof : List α}
    (hfree : CollisionFree hash (t.sortedTexts hash join ++ climbTexts hash join leaf proof)) :
    climb hash join leaf proof = t.sortedRoot hash join ↔ t.Presents hash join leaf proof := by
  induction t generalizing proof with
  | leaf a =>
    simp [Presents, innerPaths, leafPaths, sortedRoot, eval]
  | node l r ihl ihr =>
    rcases List.eq_nil_or_concat' proof with rfl | ⟨proof, sibling, rfl⟩
    · rw [presents_nil]
      rfl
    · rw [climbTexts_concat] at hfree
      have hl : climb hash join leaf proof = l.sortedRoot hash join ↔
          l.Presents hash join leaf proof := ihl (hfree.mono fun u hu => by
        rcases List.mem_append.mp hu with hu | hu <;> simp [sortedTexts, hu])
      have hr : climb hash join leaf proof = r.sortedRoot hash join ↔
          r.Presents hash join leaf proof := ihr (hfree.mono fun u hu => by
        rcases List.mem_append.mp hu with hu | hu <;> simp [sortedTexts, hu])
      have hpair : climb hash join leaf (proof ++ [sibling]) = (node l r).sortedRoot hash join ↔
          sortedJoin join (climb hash join leaf proof) sibling =
            sortedJoin join (l.sortedRoot hash join) (r.sortedRoot hash join) := by
        rw [climb_concat]
        constructor
        · exact hfree (sortedJoin join (climb hash join leaf proof) sibling) (by simp)
            (sortedJoin join (l.sortedRoot hash join) (r.sortedRoot hash join))
            (by simp [sortedTexts])
        · exact congrArg hash
      rw [hpair, sortedJoin_eq_iff hjoin, hl, hr, presents_concat]
      tauto

end Tree

end Traceability.Merkle
