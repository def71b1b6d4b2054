import Traceability.Merkle.SortedPair

/-! The path of a node by its index in a level, up through the levels above it. -/
namespace Traceability.Merkle

variable {α τ : Type*}

/-- The pair node `i` of a level belongs to; a missing right node is the left one again. -/
def pairAt (level : List α) (i : ℕ) (h : i < level.length) : α × α :=
  (level[2 * (i / 2)], level[2 * (i / 2) + 1]?.getD level[2 * (i / 2)])

/-- The other node of the pair. -/
def siblingAt (level : List α) (i : ℕ) (h : i < level.length) : α :=
  if i % 2 = 0 then (pairAt level i h).2 else (pairAt level i h).1

theorem div_two_lt_length (combine : α → α → α) {level : List α} {i : ℕ}
    (h : i < level.length) : i / 2 < (nextLevel combine level).length := by
  rw [length_nextLevel]
  omega

/-- The siblings met from node `i` of a level up to the root. -/
def siblings (combine : α → α → α) (level : List α) (i : ℕ) (h : i < level.length) : List α :=
  if 1 < level.length then
    siblingAt level i h ::
      siblings combine (nextLevel combine level) (i / 2) (div_two_lt_length combine h)
  else []
termination_by level.length
decreasing_by exact length_nextLevel_lt combine level ‹_›

/-- The pairs met there. -/
def pathPairs (combine : α → α → α) (level : List α) (i : ℕ) (h : i < level.length) :
    List (α × α) :=
  if 1 < level.length then
    pairAt level i h ::
      pathPairs combine (nextLevel combine level) (i / 2) (div_two_lt_length combine h)
  else []
termination_by level.length
decreasing_by exact length_nextLevel_lt combine level ‹_›

theorem getElem?_nextLevel (combine : α → α → α) (level : List α) (j : ℕ) :
    (nextLevel combine level)[j]? =
      level[2 * j]?.map fun left => combine left (level[2 * j + 1]?.getD left) := by
  fun_induction nextLevel combine level generalizing j with
  | case1 => simp
  | case2 a =>
    cases j with
    | zero => simp
    | succ j => simp
  | case3 a b level ih =>
    cases j with
    | zero => simp
    | succ j => simpa [Nat.mul_succ] using ih j

theorem getElem_nextLevel (combine : α → α → α) {level : List α} {i : ℕ} (h : i < level.length)
    (hnext : i / 2 < (nextLevel combine level).length) :
    (nextLevel combine level)[i / 2] = combine (pairAt level i h).1 (pairAt level i h).2 := by
  have hleft : 2 * (i / 2) < level.length := by omega
  rw [← Option.some_inj, ← List.getElem?_eq_getElem, getElem?_nextLevel,
    List.getElem?_eq_getElem hleft]
  rfl

/-- A node and its sibling are the two nodes of its pair. -/
theorem getElem_eq_pairAt {level : List α} {i : ℕ} (h : i < level.length) :
    level[i] = if i % 2 = 0 then (pairAt level i h).1 else (pairAt level i h).2 := by
  split_ifs with hi
  · have heq : 2 * (i / 2) = i := by omega
    simp only [pairAt, heq]
  · have heq : 2 * (i / 2) + 1 = i := by omega
    simp only [pairAt, heq, List.getElem?_eq_getElem h, Option.getD_some]

/-- The root of a level is the root of the level above. -/
theorem merkleRoot_nextLevel (combine : α → α → α) {level : List α} (h : 1 < level.length)
    (hne : level ≠ []) :
    merkleRoot combine (nextLevel combine level) (nextLevel_ne_nil combine level hne) =
      merkleRoot combine level hne := by
  have hloop : levelLoop (nextLevel combine) (length_nextLevel_lt combine) level =
      levelLoop (nextLevel combine) (length_nextLevel_lt combine) (nextLevel combine level) := by
    rw [levelLoop, if_pos h]
  simp only [merkleRoot, hloop]

theorem merkleRoot_singleton (combine : α → α → α) (a : α) (h : [a] ≠ []) :
    merkleRoot combine [a] h = a := by
  simp [merkleRoot, levelLoop]

section Climb
variable [LinearOrder α] {hash : τ → α} {join : α → α → τ}

/-- Sorted hashing of `v` with a sibling gives the parent of a pair exactly when the pair is in
order and `v` is its other node. -/
theorem sortedJoin_eq_join_iff (hjoin : ∀ a b c d, join a b = join c d → a = c ∧ b = d)
    {level : List α} {i : ℕ} (h : i < level.length) (v : α) :
    sortedJoin join v (siblingAt level i h) =
        join (pairAt level i h).1 (pairAt level i h).2 ↔
      v = level[i] ∧ (pairAt level i h).1 ≤ (pairAt level i h).2 := by
  unfold siblingAt
  rw [getElem_eq_pairAt h]
  generalize pairAt level i h = p
  obtain ⟨l, r⟩ := p
  dsimp only
  constructor
  · intro heq
    split_ifs at heq ⊢ with hi
    · rcases le_total v r with hv | hv
      · rw [sortedJoin_of_le hv] at heq
        obtain ⟨rfl, -⟩ := hjoin _ _ _ _ heq
        exact ⟨rfl, hv⟩
      · rw [sortedJoin_of_ge hv] at heq
        obtain ⟨rfl, rfl⟩ := hjoin _ _ _ _ heq
        exact ⟨rfl, hv⟩
    · rcases le_total v l with hv | hv
      · rw [sortedJoin_of_le hv] at heq
        obtain ⟨rfl, rfl⟩ := hjoin _ _ _ _ heq
        exact ⟨rfl, hv⟩
      · rw [sortedJoin_of_ge hv] at heq
        obtain ⟨-, rfl⟩ := hjoin _ _ _ _ heq
        exact ⟨rfl, hv⟩
  · rintro ⟨rfl, hle⟩
    split_ifs with hi
    · exact sortedJoin_of_le hle
    · exact sortedJoin_of_ge hle

/-- A sorting verifier against a root built without sorting: the siblings of node `i` lead `v`
to the root exactly when `v` is that node and every pair on its path is in order. -/
theorem climb_siblings_iff (hjoin : ∀ a b c d, join a b = join c d → a = c ∧ b = d)
    {level : List α} {i : ℕ} (h : i < level.length) (hne : level ≠ []) (v : α)
    (hfree : CollisionFree hash
      ((pathPairs (fun a b => hash (join a b)) level i h).map (fun p => join p.1 p.2) ++
        climbTexts hash join v (siblings (fun a b => hash (join a b)) level i h))) :
    climb hash join v (siblings (fun a b => hash (join a b)) level i h) =
        merkleRoot (fun a b => hash (join a b)) level hne ↔
      v = level[i] ∧ ∀ p ∈ pathPairs (fun a b => hash (join a b)) level i h, p.1 ≤ p.2 := by
  fun_induction siblings (fun a b => hash (join a b)) level i h generalizing v with
  | case1 level i h hlt ih =>
    rw [pathPairs, if_pos hlt] at hfree ⊢
    rw [climbTexts] at hfree
    have hclimb : climb hash join v (siblingAt level i h ::
        siblings (fun a b => hash (join a b)) (nextLevel (fun a b => hash (join a b)) level) (i / 2)
          (div_two_lt_length _ h)) =
        climb hash join (hashPair hash join v (siblingAt level i h))
          (siblings (fun a b => hash (join a b)) (nextLevel (fun a b => hash (join a b)) level)
            (i / 2) (div_two_lt_length _ h)) := rfl
    rw [hclimb, ← merkleRoot_nextLevel _ hlt hne]
    have hstep : hashPair hash join v (siblingAt level i h) =
        hash (join (pairAt level i h).1 (pairAt level i h).2) ↔
          v = level[i] ∧ (pairAt level i h).1 ≤ (pairAt level i h).2 := by
      rw [← sortedJoin_eq_join_iff hjoin h v]
      exact ⟨hfree _ (by simp) _ (by simp), congrArg hash⟩
    rw [ih (nextLevel_ne_nil _ level hne) _ (hfree.mono ?_), getElem_nextLevel _ h _, hstep,
      List.forall_mem_cons, and_assoc]
    intro u hu
    rcases List.mem_append.mp hu with hu | hu <;> simp [hu]
  | case2 level i h hle =>
    have hlevel : ∃ a, level = [a] := List.length_eq_one_iff.mp (by omega)
    obtain ⟨a, rfl⟩ := hlevel
    obtain rfl : i = 0 := by simpa using h
    rw [merkleRoot_singleton, pathPairs, if_neg hle]
    simp [climb]

end Climb

end Traceability.Merkle
