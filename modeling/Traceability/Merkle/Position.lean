import Traceability.Merkle.Path
import Mathlib.Data.Nat.Bitwise

/-! Merkle proofs by position. The parity of the index tells on which side the sibling stands; the
siblings of a node lead that node to the root, and no other node of its kind. -/
namespace Traceability.Merkle

variable {α β τ : Type*}

section Padding

/-- A level of even length: a copy of the last node completes an odd one. -/
def padLevel (level : List α) : List α :=
  if level.length % 2 = 0 then level else level ++ level.getLast?.toList

theorem getElem?_padLevel {level : List α} {j : ℕ} (h : j < level.length) :
    (padLevel level)[j]? = level[j]? := by
  unfold padLevel
  split_ifs
  · rfl
  · exact List.getElem?_append_left h

/-- An odd level has a last node. -/
theorem exists_getLast?_of_odd {level : List α} (h : ¬ level.length % 2 = 0) :
    ∃ last, level.getLast? = some last := by
  have hne : level ≠ [] := by
    intro hnil
    rw [hnil] at h
    exact h rfl
  exact ⟨_, List.getLast?_eq_some_getLast hne⟩

theorem length_padLevel (level : List α) :
    (padLevel level).length = 2 * ((level.length + 1) / 2) := by
  unfold padLevel
  split_ifs with heven
  · omega
  · obtain ⟨last, hlast⟩ := exists_getLast?_of_odd heven
    rw [hlast, Option.toList_some, List.length_append, List.length_singleton]
    omega

/-- The sibling is the node of the padded level whose index differs in the last bit. -/
theorem getElem?_padLevel_xor {level : List α} {i : ℕ} (h : i < level.length) :
    (padLevel level)[i ^^^ 1]? = some (siblingAt level i h) := by
  unfold siblingAt pairAt
  split_ifs with hi
  · have hxor : i ^^^ 1 = i + 1 := Nat.xor_one_of_even (Nat.even_iff.mpr hi)
    have hleft : 2 * (i / 2) = i := by omega
    simp only [hxor, hleft]
    by_cases hnext : i + 1 < level.length
    · rw [getElem?_padLevel hnext, List.getElem?_eq_getElem hnext, Option.getD_some]
    · have hlast : i + 1 = level.length := by omega
      have hodd : ¬ level.length % 2 = 0 := by omega
      have hcopy : level.getLast? = some level[i] := by
        rw [List.getLast?_eq_getElem?, ← hlast, Nat.add_sub_cancel, List.getElem?_eq_getElem h]
      unfold padLevel
      rw [if_neg hodd, hcopy, List.getElem?_append_right hlast.ge, hlast,
        Nat.sub_self, List.getElem?_eq_none le_rfl]
      rfl
  · have hxor : i ^^^ 1 = 2 * (i / 2) := by
      rw [Nat.xor_one_of_odd (Nat.odd_iff.mpr (by omega))]
      omega
    have hleft : 2 * (i / 2) < level.length := by omega
    rw [hxor, getElem?_padLevel hleft, List.getElem?_eq_getElem hleft]

end Padding

section Levels
variable (combine : α → α → α)

/-- All levels, from the given one up to the root alone. -/
def levels (level : List α) : List (List α) :=
  if 1 < level.length then level :: levels (nextLevel combine level) else [level]
termination_by level.length
decreasing_by exact length_nextLevel_lt combine level ‹_›

theorem levels_ne_nil (level : List α) : levels combine level ≠ [] := by
  unfold levels
  split_ifs <;> exact List.cons_ne_nil _ _

theorem getLast?_levels (level : List α) : (levels combine level).getLast? =
    some (levelLoop (nextLevel combine) (length_nextLevel_lt combine) level) := by
  fun_induction levels combine level with
  | case1 level hlt ih =>
    rw [List.getLast?_cons_of_ne_nil (levels_ne_nil combine _), ih, levelLoop.eq_def _ _ level,
      if_pos hlt]
  | case2 level hle => rw [levelLoop, if_neg hle, List.getLast?_singleton]

/-- The levels below the top one. -/
theorem dropLast_levels {level : List α} (h : 1 < level.length) :
    (levels combine level).dropLast =
      level :: (levels combine (nextLevel combine level)).dropLast := by
  rw [levels, if_pos h, List.dropLast_cons_of_ne_nil (levels_ne_nil combine _)]

end Levels

/-- A node joined with its sibling, on the side that the index tells. -/
def sideJoin (join : α → α → β) (i : ℕ) (node sibling : α) : β :=
  if i % 2 = 0 then join node sibling else join sibling node

/-- The node that a node at index `i` and the siblings above it lead to. -/
def climbAt (combine : α → α → α) : α → ℕ → List α → α
  | node, _, [] => node
  | node, i, sibling :: proof =>
    climbAt combine (sideJoin combine i node sibling) (i / 2) proof

/-- The side does not matter to a symmetric combination. -/
theorem climbAt_eq_foldl {combine : α → α → α} (hcomm : ∀ a b, combine a b = combine b a)
    (node : α) (i : ℕ) (proof : List α) :
    climbAt combine node i proof = proof.foldl combine node := by
  induction proof generalizing node i with
  | nil => rfl
  | cons sibling proof ih =>
    have hside : sideJoin combine i node sibling = combine node sibling := by
      unfold sideJoin
      rw [hcomm sibling node, ite_self]
    rw [climbAt, hside, ih, List.foldl_cons]

/-- A node and its sibling are joined as their pair. -/
theorem sideJoin_siblingAt (join : α → α → β) {level : List α} {i : ℕ} (h : i < level.length) :
    sideJoin join i level[i] (siblingAt level i h) =
      join (pairAt level i h).1 (pairAt level i h).2 := by
  rw [getElem_eq_pairAt h]
  unfold sideJoin siblingAt
  split_ifs <;> rfl

/-- The siblings of a node lead it to the root. -/
theorem climbAt_siblings (combine : α → α → α) {level : List α} {i : ℕ} (h : i < level.length)
    (hne : level ≠ []) :
    climbAt combine level[i] i (siblings combine level i h) = merkleRoot combine level hne := by
  fun_induction siblings combine level i h with
  | case1 level i h hlt ih =>
    rw [climbAt, sideJoin_siblingAt, ← getElem_nextLevel combine h (div_two_lt_length combine h),
      ih (nextLevel_ne_nil combine level hne), merkleRoot_nextLevel combine hlt]
  | case2 level i h hle =>
    obtain ⟨a, rfl⟩ : ∃ a, level = [a] := List.length_eq_one_iff.mp (by omega)
    obtain rfl : i = 0 := by simpa using h
    rw [merkleRoot_singleton]
    rfl

/-- There is one sibling for each level below the root. -/
theorem length_siblings (combine : α → α → α) {level : List α} {k i : ℕ}
    (hk : level.length = 2 ^ k) (h : i < level.length) :
    (siblings combine level i h).length = k := by
  induction k generalizing level i with
  | zero => rw [siblings, if_neg (by omega), List.length_nil]
  | succ k ih =>
    obtain ⟨hlt, -, hlength⟩ := nextLevel_two_pow combine hk
    rw [siblings, if_pos hlt, List.length_cons, ih hlength]

/-- The texts hashed on the way. -/
def climbAtTexts (hash : τ → α) (join : α → α → τ) : α → ℕ → List α → List τ
  | _, _, [] => []
  | node, i, sibling :: proof =>
    sideJoin join i node sibling ::
      climbAtTexts hash join (hash (sideJoin join i node sibling)) (i / 2) proof

theorem sideJoin_hash (hash : τ → α) (join : α → α → τ) (i : ℕ) (node sibling : α) :
    sideJoin (fun a b => hash (join a b)) i node sibling = hash (sideJoin join i node sibling) := by
  unfold sideJoin
  rw [apply_ite hash]

/-- A text shows each half that is a node of the right kind, whatever the other half is. -/
structure ShowsHalves (Node : α → Prop) (join : α → α → τ) : Prop where
  left : ∀ {a b c d}, Node a → Node c → join a b = join c d → a = c
  right : ∀ {a b c d}, Node b → Node d → join a b = join c d → b = d

section Sound
variable {hash : τ → α} {join : α → α → τ} {Node : α → Prop}

/-- Above the leaves every node is a digest. -/
theorem forall_mem_nextLevel (hhash : ∀ text, Node (hash text)) (level : List α) :
    ∀ a ∈ nextLevel (fun a b => hash (join a b)) level, Node a := by
  fun_induction nextLevel (fun a b => hash (join a b)) level with
  | case1 => exact List.forall_mem_nil _
  | case2 a => exact List.forall_mem_singleton.mpr (hhash _)
  | case3 a b level ih => exact List.forall_mem_cons.mpr ⟨hhash _, ih⟩

/-- If a node is joined with anything to the text of a pair, it is the pair's node. -/
theorem eq_getElem_of_sideJoin (hshows : ShowsHalves Node join) {level : List α}
    (hlevel : ∀ a ∈ level, Node a) {i : ℕ} (h : i < level.length) {v sibling : α} (hv : Node v)
    (heq : sideJoin join i v sibling = join (pairAt level i h).1 (pairAt level i h).2) :
    v = level[i] := by
  have hnode : Node level[i] := hlevel _ (List.getElem_mem h)
  rw [getElem_eq_pairAt h] at hnode ⊢
  unfold sideJoin at heq
  split_ifs at heq hnode ⊢ with hi
  · exact hshows.left hv hnode heq
  · exact hshows.right hv hnode heq

/-- With a collision-free hash, siblings of the right number that lead a node at index `i` to the
root show that it is the node there, however they were chosen. -/
theorem eq_of_climbAt_eq_merkleRoot (hshows : ShowsHalves Node join)
    (hhash : ∀ text, Node (hash text)) {level : List α} (hlevel : ∀ a ∈ level, Node a) {i : ℕ}
    (h : i < level.length) (hne : level ≠ []) {v : α} (hv : Node v) {proof : List α}
    (hlength : proof.length = (siblings (fun a b => hash (join a b)) level i h).length)
    (hfree : CollisionFree hash
      ((pathPairs (fun a b => hash (join a b)) level i h).map (fun p => join p.1 p.2) ++
        climbAtTexts hash join v i proof))
    (hroot : climbAt (fun a b => hash (join a b)) v i proof =
      merkleRoot (fun a b => hash (join a b)) level hne) : v = level[i] := by
  fun_induction siblings (fun a b => hash (join a b)) level i h generalizing v proof with
  | case1 level i h hlt ih =>
    obtain ⟨sibling, proof, rfl⟩ := List.exists_cons_of_length_eq_add_one hlength
    rw [pathPairs, if_pos hlt, climbAtTexts] at hfree
    rw [climbAt, sideJoin_hash, ← merkleRoot_nextLevel _ hlt hne] at hroot
    have habove := ih (forall_mem_nextLevel hhash level) (nextLevel_ne_nil _ level hne) (hhash _)
      (Nat.succ.inj hlength) (hfree.mono ?_) hroot
    · rw [getElem_nextLevel _ h] at habove
      have htexts := hfree _ (by simp) _ (by simp) habove
      exact eq_getElem_of_sideJoin hshows hlevel h hv htexts
    · intro u hu
      rcases List.mem_append.mp hu with hu | hu <;> simp [hu]
  | case2 level i h hle =>
    obtain rfl := List.length_eq_zero_iff.mp hlength
    obtain ⟨a, rfl⟩ : ∃ a, level = [a] := List.length_eq_one_iff.mp (by omega)
    obtain rfl : i = 0 := by simpa using h
    rw [merkleRoot_singleton] at hroot
    exact hroot

end Sound

end Traceability.Merkle
