import Traceability.Merkle.Tree
import Mathlib.Tactic.Linarith

/-! Merkle roots level by level. A level is replaced by the level above it until one node is
left. Combining trees instead of digests builds the tree whose evaluation is the root. -/
namespace Traceability.Merkle

variable {α β : Type*}

/-- Replace a level by the next one for as long as it has more than one node. -/
def levelLoop (next : List α → List α)
    (hnext : ∀ level, 1 < level.length → (next level).length < level.length)
    (level : List α) : List α :=
  if 1 < level.length then levelLoop next hnext (next level) else level
termination_by level.length
decreasing_by exact hnext level ‹_›

section Loop
variable {next : List α → List α}
  {hnext : ∀ level, 1 < level.length → (next level).length < level.length}

/-- What holds of the first level and survives one more holds of the last. -/
theorem levelLoop_induction {P : List α → Prop} {level : List α} (start : P level)
    (step : ∀ level, 1 < level.length → P level → P (next level)) :
    P (levelLoop next hnext level) := by
  fun_induction levelLoop next hnext level with
  | case1 level h ih => exact ih (step level h start)
  | case2 level h => exact start

theorem length_levelLoop_le (next : List α → List α)
    (hnext : ∀ level, 1 < level.length → (next level).length < level.length) (level : List α) :
    (levelLoop next hnext level).length ≤ 1 := by
  fun_induction levelLoop next hnext level with
  | case1 level h ih => exact ih
  | case2 level h => exact Nat.le_of_not_lt h

/-- Loops over two kinds of nodes run in step when a map between them respects one level. -/
theorem map_levelLoop (next : List α → List α)
    (hnext : ∀ level, 1 < level.length → (next level).length < level.length)
    (next' : List β → List β)
    (hnext' : ∀ level, 1 < level.length → (next' level).length < level.length) (f : α → β)
    (h : ∀ level, (next level).map f = next' (level.map f)) (level : List α) :
    (levelLoop next hnext level).map f = levelLoop next' hnext' (level.map f) := by
  fun_induction levelLoop next hnext level with
  | case1 level hlt ih =>
    rw [ih, h, levelLoop.eq_def next' hnext' (level.map f), if_pos (by simpa using hlt)]
  | case2 level hle =>
    rw [levelLoop.eq_def next' hnext' (level.map f), if_neg (by simpa using hle)]

theorem levelLoop_ne_nil (hne : ∀ level, level ≠ [] → next level ≠ []) {level : List α}
    (h : level ≠ []) : levelLoop next hnext level ≠ [] :=
  levelLoop_induction (P := fun level => level ≠ []) h fun level _ => hne level

end Loop

/-- The level above: neighbours are combined, and a last node without one with itself. -/
def nextLevel (combine : α → α → α) : List α → List α
  | [] => []
  | [a] => [combine a a]
  | a :: b :: level => combine a b :: nextLevel combine level

theorem length_nextLevel (combine : α → α → α) (level : List α) :
    (nextLevel combine level).length = (level.length + 1) / 2 := by
  fun_induction nextLevel combine level with
  | case1 => simp
  | case2 a => simp
  | case3 a b level ih =>
    rw [List.length_cons, ih, List.length_cons, List.length_cons]
    omega

theorem length_nextLevel_lt (combine : α → α → α) (level : List α) (h : 1 < level.length) :
    (nextLevel combine level).length < level.length := by
  rw [length_nextLevel]
  omega

theorem nextLevel_ne_nil (combine : α → α → α) (level : List α) (h : level ≠ []) :
    nextLevel combine level ≠ [] := by
  have hpos := List.length_pos_iff.mpr h
  rw [← List.length_pos_iff, length_nextLevel]
  omega

theorem map_nextLevel {combine : α → α → α} {combine' : β → β → β} (f : α → β)
    (h : ∀ a b, f (combine a b) = combine' (f a) (f b)) (level : List α) :
    (nextLevel combine level).map f = nextLevel combine' (level.map f) := by
  fun_induction nextLevel combine level with
  | case1 => rfl
  | case2 a => simp [nextLevel, h]
  | case3 a b level ih => simp [nextLevel, h, ih]

/-- The root over a list of digests. -/
def merkleRoot (combine : α → α → α) (digests : List α) (h : digests ≠ []) : α :=
  (levelLoop (nextLevel combine) (length_nextLevel_lt combine) digests).head
    (levelLoop_ne_nil (nextLevel_ne_nil combine) h)

/-- The loop ends in the root alone. -/
theorem levelLoop_eq_singleton (combine : α → α → α) {digests : List α} (h : digests ≠ []) :
    levelLoop (nextLevel combine) (length_nextLevel_lt combine) digests =
      [merkleRoot combine digests h] := by
  have hne : levelLoop (nextLevel combine) (length_nextLevel_lt combine) digests ≠ [] :=
    levelLoop_ne_nil (nextLevel_ne_nil combine) h
  have hle := length_levelLoop_le (nextLevel combine) (length_nextLevel_lt combine) digests
  have htail : (levelLoop (nextLevel combine) (length_nextLevel_lt combine) digests).tail = [] := by
    rw [← List.length_eq_zero_iff, List.length_tail]
    omega
  rw [← List.cons_head_tail hne, htail]
  rfl

theorem map_merkleRoot (combine : α → α → α) (combine' : β → β → β) (f : α → β)
    (h : ∀ a b, f (combine a b) = combine' (f a) (f b)) {digests : List α} (hne : digests ≠ []) :
    f (merkleRoot combine digests hne) =
      merkleRoot combine' (digests.map f) (by simpa using hne) := by
  have hloop := map_levelLoop _ (length_nextLevel_lt combine) _ (length_nextLevel_lt combine') f
    (map_nextLevel f h) digests
  apply Option.some_injective
  unfold merkleRoot
  rw [← List.head?_eq_some_head, ← hloop, List.head?_map,
    List.head?_eq_some_head (levelLoop_ne_nil (nextLevel_ne_nil combine) hne), Option.map_some]

/-- The tree of a list: the root over its elements as leaves. -/
def treeOf (xs : List α) (h : xs ≠ []) : Tree α :=
  merkleRoot .node (xs.map .leaf) (by simpa using h)

/-- Evaluating the tree gives the root over the digests. -/
theorem eval_treeOf (hash : α → β) (combine : β → β → β) {xs : List α} (h : xs ≠ []) :
    (treeOf xs h).eval hash combine = merkleRoot combine (xs.map hash) (by simpa using h) := by
  unfold treeOf
  rw [map_merkleRoot .node combine (Tree.eval hash combine) fun _ _ => rfl]
  simp only [List.map_map]
  rfl

/-- Every tree of a level has the same depth. -/
def Level (d : ℕ) (level : List (Tree α)) : Prop := ∀ t ∈ level, t.Perfect d

theorem level_map_leaf (xs : List α) : Level 0 (xs.map .leaf) := by
  intro t ht
  obtain ⟨a, -, rfl⟩ := List.mem_map.mp ht
  exact trivial

theorem Level.next {d : ℕ} {level : List (Tree α)} (h : Level d level) :
    Level (d + 1) (nextLevel .node level) := by
  fun_induction nextLevel Tree.node level with
  | case1 => exact List.forall_mem_nil _
  | case2 a =>
    have ha := h a List.mem_cons_self
    exact List.forall_mem_singleton.mpr ⟨ha, ha⟩
  | case3 a b level ih =>
    have hrest : Level d level := fun t ht => h t (by simp [ht])
    intro t ht
    rcases List.mem_cons.mp ht with rfl | ht
    · exact ⟨h a (by simp), h b (by simp)⟩
    · exact ih hrest t ht

/-- The tree of a list is perfect. -/
theorem exists_perfect_treeOf {xs : List α} (h : xs ≠ []) : ∃ d, (treeOf xs h).Perfect d := by
  obtain ⟨d, hd⟩ : ∃ d, Level d (levelLoop (nextLevel Tree.node) (length_nextLevel_lt Tree.node)
      (xs.map .leaf)) := by
    refine levelLoop_induction (P := fun level => ∃ d, Level d level) ⟨0, level_map_leaf xs⟩ ?_
    intro level _ hlevel
    obtain ⟨d, hd⟩ := hlevel
    exact ⟨d + 1, hd.next⟩
  exact ⟨d, hd _ (List.head_mem _)⟩

theorem treeOf_map (f : α → β) {xs : List α} (h : xs ≠ []) :
    treeOf (xs.map f) (by simpa using h) = (treeOf xs h).eval (fun a => .leaf (f a)) .node := by
  rw [eval_treeOf, treeOf]
  simp only [List.map_map]
  rfl

theorem flatMap_leaves_map_leaf (xs : List α) : (xs.map Tree.leaf).flatMap Tree.leaves = xs := by
  simp [List.flatMap_map, Tree.leaves]

/-- Combining keeps the leaves and repeats those of a last tree without a neighbour. -/
theorem flatMap_leaves_nextLevel (level : List (Tree α)) :
    level.flatMap Tree.leaves <+: (nextLevel .node level).flatMap Tree.leaves := by
  fun_induction nextLevel Tree.node level with
  | case1 => exact List.prefix_refl _
  | case2 a => simp [Tree.leaves]
  | case3 a b level ih => simpa [Tree.leaves] using ih

theorem mem_flatMap_leaves_nextLevel (level : List (Tree α)) {a : α} :
    a ∈ (nextLevel .node level).flatMap Tree.leaves ↔ a ∈ level.flatMap Tree.leaves := by
  fun_induction nextLevel Tree.node level with
  | case1 => rfl
  | case2 t => simp [Tree.leaves]
  | case3 s t level ih =>
    simp only [List.flatMap_cons, List.mem_append, Tree.leaves] at ih ⊢
    rw [ih, or_assoc]

/-- Expanding repeated nodes adds no new leaf. -/
theorem mem_leaves_treeOf {xs : List α} (h : xs ≠ []) {a : α} :
    a ∈ (treeOf xs h).leaves ↔ a ∈ xs := by
  have hmem : a ∈ (levelLoop (nextLevel Tree.node) (length_nextLevel_lt Tree.node)
      (xs.map .leaf)).flatMap Tree.leaves ↔ a ∈ xs := by
    refine levelLoop_induction (P := fun level => a ∈ level.flatMap Tree.leaves ↔ a ∈ xs) ?_ ?_
    · rw [flatMap_leaves_map_leaf]
    · exact fun level _ hlevel => (mem_flatMap_leaves_nextLevel level).trans hlevel
  have hne : xs.map Tree.leaf ≠ [] := by simpa using h
  rw [levelLoop_eq_singleton Tree.node hne] at hmem
  simpa [treeOf] using hmem

/-- The leaves of the tree of a list start with the list. -/
theorem prefix_leaves_treeOf {xs : List α} (h : xs ≠ []) : xs <+: (treeOf xs h).leaves := by
  have hprefix : xs <+: (levelLoop (nextLevel Tree.node) (length_nextLevel_lt Tree.node)
      (xs.map .leaf)).flatMap Tree.leaves := by
    refine levelLoop_induction (P := fun level => xs <+: level.flatMap Tree.leaves) ?_ ?_
    · simpa only [flatMap_leaves_map_leaf] using List.prefix_refl xs
    · exact fun level _ hlevel => hlevel.trans (flatMap_leaves_nextLevel level)
  have hne : xs.map Tree.leaf ≠ [] := by simpa using h
  rw [levelLoop_eq_singleton Tree.node hne] at hprefix
  simpa [treeOf] using hprefix

section PowerOfTwo

/-- The level above when a last node without a neighbour is dropped. -/
def halveLevel (combine : α → α → α) : List α → List α
  | a :: b :: level => combine a b :: halveLevel combine level
  | _ => []

theorem length_halveLevel (combine : α → α → α) (level : List α) :
    (halveLevel combine level).length = level.length / 2 := by
  fun_induction halveLevel combine level with
  | case1 a b level ih =>
    rw [List.length_cons, ih, List.length_cons, List.length_cons]
    omega
  | case2 level hshort =>
    match level, hshort with
    | [], _ => simp
    | [a], _ => simp
    | a :: b :: level, hshort => exact absurd rfl (hshort a b level)

theorem length_halveLevel_lt (combine : α → α → α) (level : List α) (h : 1 < level.length) :
    (halveLevel combine level).length < level.length := by
  rw [length_halveLevel]
  omega

/-- Both rules agree on levels of even length. -/
theorem halveLevel_eq_nextLevel (combine : α → α → α) {level : List α}
    (h : level.length % 2 = 0) : halveLevel combine level = nextLevel combine level := by
  fun_induction nextLevel combine level with
  | case1 => rfl
  | case2 a => simp at h
  | case3 a b level ih =>
    rw [List.length_cons, List.length_cons] at h
    rw [halveLevel, ih (by omega)]

/-- A level of `2 ^ (k + 1)` nodes has an even number of them and halves to `2 ^ k`. -/
theorem nextLevel_two_pow (combine : α → α → α) {level : List α} {k : ℕ}
    (h : level.length = 2 ^ (k + 1)) :
    1 < level.length ∧ level.length % 2 = 0 ∧ (nextLevel combine level).length = 2 ^ k := by
  have hpos : 0 < 2 ^ k := Nat.two_pow_pos k
  rw [pow_succ] at h
  rw [length_nextLevel]
  omega

theorem levelLoop_halveLevel (combine : α → α → α) {level : List α} {k : ℕ}
    (h : level.length = 2 ^ k) :
    levelLoop (halveLevel combine) (length_halveLevel_lt combine) level =
      levelLoop (nextLevel combine) (length_nextLevel_lt combine) level := by
  induction k generalizing level with
  | zero =>
    have hle : ¬ 1 < level.length := by omega
    rw [levelLoop, if_neg hle, levelLoop, if_neg hle]
  | succ k ih =>
    obtain ⟨hlt, heven, hlength⟩ := nextLevel_two_pow combine h
    rw [levelLoop, if_pos hlt, halveLevel_eq_nextLevel combine heven, ih hlength,
      levelLoop.eq_def _ _ level, if_pos hlt]

theorem flatMap_leaves_nextLevel_of_even {level : List (Tree α)} (h : level.length % 2 = 0) :
    (nextLevel .node level).flatMap Tree.leaves = level.flatMap Tree.leaves := by
  fun_induction nextLevel Tree.node level with
  | case1 => rfl
  | case2 a => simp at h
  | case3 a b level ih =>
    rw [List.length_cons, List.length_cons] at h
    simp [Tree.leaves, ih (by omega)]

/-- Over a power of two elements the tree has exactly them as leaves. -/
theorem treeOf_of_length {xs : List α} {k : ℕ} (hk : xs.length = 2 ^ k) (h : xs ≠ []) :
    (treeOf xs h).Perfect k ∧ (treeOf xs h).leaves = xs := by
  have hloop : ∃ j d, j + d = k ∧
      (levelLoop (nextLevel Tree.node) (length_nextLevel_lt Tree.node)
        (xs.map .leaf)).length = 2 ^ j ∧
      Level d (levelLoop (nextLevel Tree.node) (length_nextLevel_lt Tree.node) (xs.map .leaf)) ∧
      (levelLoop (nextLevel Tree.node) (length_nextLevel_lt Tree.node)
        (xs.map .leaf)).flatMap Tree.leaves = xs := by
    refine levelLoop_induction (P := fun level => ∃ j d, j + d = k ∧ level.length = 2 ^ j ∧
      Level d level ∧ level.flatMap Tree.leaves = xs)
      ⟨k, 0, rfl, by simpa using hk, level_map_leaf xs, flatMap_leaves_map_leaf xs⟩ ?_
    intro level hlt hlevel
    obtain ⟨j, d, hsum, hlength, hperfect, hleaves⟩ := hlevel
    cases j with
    | zero => omega
    | succ i =>
      obtain ⟨-, heven, hnext⟩ := nextLevel_two_pow Tree.node hlength
      have hleaves' : (nextLevel .node level).flatMap Tree.leaves = xs := by
        rw [flatMap_leaves_nextLevel_of_even heven, hleaves]
      exact ⟨i, d + 1, by omega, hnext, hperfect.next, hleaves'⟩
  have hne : xs.map Tree.leaf ≠ [] := by simpa using h
  rw [levelLoop_eq_singleton Tree.node hne] at hloop
  obtain ⟨j, d, rfl, hlength, hlevel, hleaves⟩ := hloop
  have hj : j = 0 := by
    rw [List.length_singleton] at hlength
    exact (Nat.pow_eq_one.mp hlength.symm).resolve_left (by decide)
  subst hj
  rw [Nat.zero_add]
  exact ⟨hlevel _ List.mem_cons_self, by simpa [treeOf] using hleaves⟩

end PowerOfTwo

end Traceability.Merkle
