import Traceability.Merkle.Position
import Traceability.Bytes.LittleEndian

/-! The Merkle tree of the retrieval measurement, statement by statement. An index out of range
makes the result `none`; it never is, and the levels are those of the tree of the leaves. -/
namespace Traceability.Consumer
open Merkle

section Measurement
variable {α : Type} (combine : α → α → α)

/-- A row of even length, by `row + [row[-1]]` if need be. -/
def evenRow (row : List α) : Option (List α) :=
  if row.length % 2 = 0 then some row
  else do
    let last ← row.getLast?
    pure (row ++ [last])

/-- The row above, over `range(0, len(cur), 2)`. -/
def parents (cur : List α) : Option (List α) :=
  (List.range ((cur.length + 1) / 2)).mapM fun j => do
    let left ← cur[2 * j]?
    let right ← cur[2 * j + 1]?
    pure (combine left right)

theorem evenRow_eq (row : List α) : evenRow row = some (padLevel row) := by
  unfold evenRow padLevel
  split_ifs with heven
  · rfl
  · obtain ⟨last, hlast⟩ := exists_getLast?_of_odd heven
    rw [hlast]
    rfl

theorem mapM_range_eq_take {β : Type} {f : ℕ → Option β} {xs : List β} {n : ℕ}
    (hn : n ≤ xs.length) (h : ∀ j < n, f j = xs[j]?) :
    (List.range n).mapM f = some (xs.take n) := by
  induction n with
  | zero => rfl
  | succ n ih =>
    have hlast : f n = some xs[n] := by rw [h n (by omega), List.getElem?_eq_getElem (by omega)]
    rw [List.range_succ, List.mapM_append, ih (by omega) fun j hj => h j (by omega),
      List.take_add_one, List.getElem?_eq_getElem (by omega)]
    simp [hlast]

/-- No index is out of range in a row of even length. -/
theorem parents_padLevel (cur : List α) :
    parents combine (padLevel cur) = some (nextLevel combine cur) := by
  have hlength : ((padLevel cur).length + 1) / 2 = (nextLevel combine cur).length := by
    rw [length_padLevel, length_nextLevel]
    omega
  have hpair : ∀ j < (nextLevel combine cur).length, (do
      let left ← (padLevel cur)[2 * j]?
      let right ← (padLevel cur)[2 * j + 1]?
      pure (combine left right)) = (nextLevel combine cur)[j]? := by
    intro j hj
    rw [length_nextLevel] at hj
    have hleft : 2 * j < cur.length := by omega
    have hxor : 2 * j ^^^ 1 = 2 * j + 1 := Nat.xor_one_of_even (even_two_mul j)
    have hright := getElem?_padLevel_xor hleft
    rw [hxor] at hright
    have hhalf : 2 * j / 2 = j := by omega
    have hparity : 2 * j % 2 = 0 := by omega
    rw [getElem?_padLevel hleft, hright, getElem?_nextLevel, List.getElem?_eq_getElem hleft]
    simp [siblingAt, pairAt, hhalf, hparity]
  unfold parents
  rw [hlength, mapM_range_eq_take le_rfl hpair, List.take_length]

theorem bind_parents (cur : List α) :
    (evenRow cur).bind (parents combine) = some (nextLevel combine cur) := by
  rw [evenRow_eq, Option.bind_some, parents_padLevel]

/-- The loop of `build`, from the levels so far and the current one. -/
def buildLoop (levels : List (List α)) (cur : List α) : Option (List (List α)) :=
  if 1 < cur.length then
    match _ : (evenRow cur).bind (parents combine) with
    | none => none
    | some next => buildLoop (levels ++ [next]) next
  else some levels
termination_by cur.length
decreasing_by
  have hnext : (evenRow cur).bind (parents combine) = some next := ‹_›
  rw [bind_parents] at hnext
  obtain rfl := Option.some_inj.mp hnext
  exact length_nextLevel_lt combine cur ‹_›

def build (leaves : List α) : Option (List (List α)) := buildLoop combine [leaves] leaves

/-- `levels[-1][0]`. -/
def rootOf (levels : List (List α)) : Option α := do
  let top ← levels.getLast?
  top[0]?

def proofLoop : List (List α) → ℕ → List α → Option (List α)
  | [], _, pr => some pr
  | lvl :: levels, i, pr => do
    let row ← evenRow lvl
    let sib ← row[i ^^^ 1]?
    proofLoop levels (i / 2) (pr ++ [sib])

/-- The siblings met on the levels below the top one. -/
def proof (levels : List (List α)) (idx : ℕ) : Option (List α) := proofLoop levels.dropLast idx []

def verifyLoop : List α → α → ℕ → α
  | [], node, _ => node
  | sib :: pr, node, i =>
    verifyLoop pr (if i % 2 = 0 then combine node sib else combine sib node) (i / 2)

def verify [DecidableEq α] (leaf : α) (idx : ℕ) (pr : List α) (root : α) : Bool :=
  decide (verifyLoop combine pr leaf idx = root)

theorem buildLoop_eq (levels : List (List α)) (cur : List α) :
    buildLoop combine levels cur =
      if 1 < cur.length then
        buildLoop combine (levels ++ [nextLevel combine cur]) (nextLevel combine cur)
      else some levels := by
  rw [buildLoop]
  split_ifs with hlt
  · split
    · next hnone => rw [bind_parents] at hnone; cases hnone
    · next next hnext =>
      rw [bind_parents] at hnext
      obtain rfl := Option.some_inj.mp hnext
      rfl
  · rfl

/-- The loop adds the levels above the current one. -/
theorem buildLoop_concat (below : List (List α)) (cur : List α) :
    buildLoop combine (below ++ [cur]) cur = some (below ++ levels combine cur) := by
  fun_induction levels combine cur generalizing below with
  | case1 cur hlt ih =>
    rw [buildLoop_eq, if_pos hlt, ih]
    simp
  | case2 cur hle => rw [buildLoop_eq, if_neg hle]

theorem build_eq (leaves : List α) : build combine leaves = some (levels combine leaves) :=
  buildLoop_concat combine [] leaves

/-- The last level is the root alone. -/
theorem getLast?_build {leaves : List α} (h : leaves ≠ []) :
    (levels combine leaves).getLast? = some [merkleRoot combine leaves h] := by
  rw [getLast?_levels, levelLoop_eq_singleton combine h]

theorem rootOf_levels {leaves : List α} (h : leaves ≠ []) :
    rootOf (levels combine leaves) = some (merkleRoot combine leaves h) := by
  unfold rootOf
  rw [getLast?_build combine h]
  rfl

/-- The loop of `proof` collects the siblings on the path of its index. -/
theorem proofLoop_levels {level : List α} {i : ℕ} (h : i < level.length) (pr : List α) :
    proofLoop (levels combine level).dropLast i pr = some (pr ++ siblings combine level i h) := by
  fun_induction siblings combine level i h generalizing pr with
  | case1 level i h hlt ih =>
    rw [dropLast_levels combine hlt, proofLoop, evenRow_eq]
    have hsib := getElem?_padLevel_xor h
    simp only [Option.bind_eq_bind, Option.bind_some, hsib, ih, List.append_assoc,
      List.singleton_append]
  | case2 level i h hle =>
    rw [levels, if_neg hle]
    simp [proofLoop]

theorem proof_levels {leaves : List α} {idx : ℕ} (h : idx < leaves.length) :
    proof (levels combine leaves) idx = some (siblings combine leaves idx h) :=
  proofLoop_levels combine h []

theorem verifyLoop_eq (pr : List α) (node : α) (i : ℕ) :
    verifyLoop combine pr node i = climbAt combine node i pr := by
  induction pr generalizing node i with
  | nil => rfl
  | cons sib pr ih => exact ih _ _

end Measurement
end Traceability.Consumer
