import Traceability.Machine.Run
import Mathlib.Algebra.Order.Floor.Semiring
import Mathlib.Algebra.Order.Field.Basic
import Mathlib.Algebra.BigOperators.Group.List.Basic
import Mathlib.Tactic.Ring

/-! Runs in discrete time. The inputs come from a stream, one at each tick, and the time of a
tick is a point of a uniform grid. -/
namespace Traceability.Machine

section Stream
variable {σ ι ο : Type*} (step : ι → σ → ο × σ) (input : ℕ → ι) (s : σ)

/-- The state before tick `n`. -/
def stateAt : ℕ → σ
  | 0 => s
  | n + 1 => (step (input n) (stateAt n)).2

theorem run_map_range (n : ℕ) :
    run step s ((List.range n).map input) = stateAt step input s n := by
  induction n with
  | zero => rfl
  | succ n ih =>
    rw [List.range_succ, List.map_append, run_append, ih]
    rfl

theorem history_map_range (n : ℕ) : history step s ((List.range n).map input) =
    (List.range n).map fun i => execute step (stateAt step input s i) (input i) := by
  induction n with
  | zero => rfl
  | succ n ih =>
    rw [List.range_succ, List.map_append, history_append, ih, run_map_range, List.map_append]
    rfl

/-- The history splits at each of its ticks. -/
theorem history_split {i n : ℕ} (h : i < n) : ∃ post,
    history step s ((List.range n).map input) =
      history step s ((List.range i).map input) ++
        execute step (stateAt step input s i) (input i) :: post := by
  obtain ⟨d, rfl⟩ := Nat.exists_eq_add_of_lt h
  rw [add_assoc, List.range_add, List.range_succ_eq_map, List.map_append, history_append,
    run_map_range]
  exact ⟨_, rfl⟩

variable {step input s}

/-- The invariant rule for ticks. -/
theorem stateAt_invariant {P : ℕ → σ → Prop} (start : P 0 s)
    (next : ∀ n t, P n t → P (n + 1) (step (input n) t).2) (n : ℕ) :
    P n (stateAt step input s n) := by
  induction n with
  | zero => exact start
  | succ n ih => exact next n _ ih

/-- What a tick establishes and the later ones keep holds from then on. -/
theorem stateAt_stable {P : σ → Prop} {i : ℕ} (start : P (stateAt step input s (i + 1)))
    (next : ∀ n t, P t → P (step (input n) t).2) {n : ℕ} (h : i < n) :
    P (stateAt step input s n) := by
  induction n, h using Nat.le_induction with
  | base => exact start
  | succ n _ ih => exact next n _ ih

end Stream

section Balance
variable {σ ι ο A : Type*} [AddCommMonoid A] (step : ι → σ → ο × σ)

/-- Stock and flow: when every step balances what comes in against what goes out, so does the
run. -/
theorem run_balance (stock : σ → A) (inflow outflow : Entry σ ι ο → A)
    (balance : ∀ s i, stock s + inflow (execute step s i) =
      stock (step i s).2 + outflow (execute step s i)) (s : σ) (is : List ι) :
    stock s + ((history step s is).map inflow).sum =
      stock (run step s is) + ((history step s is).map outflow).sum := by
  induction is generalizing s with
  | nil => rfl
  | cons i is ih =>
    have hfirst := balance s i
    have hrest := ih (step i s).2
    simp only [history_cons, List.map_cons, List.sum_cons, run_cons]
    rw [← add_assoc, hfirst, add_right_comm, hrest, add_assoc, add_comm _ (outflow _)]

end Balance

section Grid
variable {K : Type*} [Field K] [LinearOrder K] [IsStrictOrderedRing K] {dt : K}

/-- Between neighbouring grid points there is no other. -/
theorem grid_succ_le (hdt : 0 < dt) {n j : ℕ} (h : (n : K) * dt < j * dt) :
    (n : K) * dt + dt ≤ j * dt := by
  have hlt : n < j := by
    have hcast := lt_of_mul_lt_mul_right h hdt.le
    exact_mod_cast hcast
  have hle : (n : K) + 1 ≤ j := by exact_mod_cast hlt
  calc (n : K) * dt + dt = (n + 1) * dt := by ring
    _ ≤ j * dt := mul_le_mul_of_nonneg_right hle hdt.le

/-- The first grid point at or after a time is less than one step after it. -/
theorem first_grid [FloorSemiring K] (hdt : 0 < dt) {x : K} (hx : 0 ≤ x) :
    x ≤ (⌈x / dt⌉₊ : K) * dt ∧ (⌈x / dt⌉₊ : K) * dt < x + dt ∧
      ∀ i < ⌈x / dt⌉₊, (i : K) * dt < x := by
  refine ⟨?_, ?_, ?_⟩
  · exact (div_le_iff₀ hdt).mp (Nat.le_ceil _)
  · have hceil := Nat.ceil_lt_add_one (div_nonneg hx hdt.le)
    have hmul := mul_lt_mul_of_pos_right hceil hdt
    rwa [add_mul, div_mul_cancel₀ x hdt.ne', one_mul] at hmul
  · intro i hi
    exact (lt_div_iff₀ hdt).mp (Nat.lt_ceil.mp hi)

end Grid

end Traceability.Machine
