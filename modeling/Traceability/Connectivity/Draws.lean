import Traceability.Connectivity.Trace
import Mathlib.Analysis.SpecialFunctions.Log.Basic
import Mathlib.Algebra.Order.Archimedean.Basic

/-! With the real logarithm every trace goes on for ever, so no reading waits in the loop
without end: a draw of length zero is followed by one of a fixed length at least. -/
namespace Traceability.Connectivity
open Finset

/-- Sums of terms of which every second one, or its neighbour, is bounded below. -/
theorem sum_ge_of_pairs {f : ℕ → ℝ} {ε : ℝ} (hf : ∀ n, 0 ≤ f n)
    (hpair : ∀ n, ε ≤ f n ∨ ε ≤ f (n + 1)) (k : ℕ) : k * ε ≤ ∑ n ∈ range (2 * k), f n := by
  induction k with
  | zero => simp
  | succ k ih =>
    have hsplit : ∑ n ∈ range (2 * (k + 1)), f n =
        ∑ n ∈ range (2 * k), f n + f (2 * k) + f (2 * k + 1) := by
      rw [show 2 * (k + 1) = 2 * k + 1 + 1 by omega, sum_range_succ, sum_range_succ]
    have h0 := hf (2 * k)
    have h1 := hf (2 * k + 1)
    rw [hsplit]
    push_cast
    rcases hpair (2 * k) with h | h <;> linarith

theorem mean_ge (meanOff : ℝ) (n : ℕ) :
    min (meanOn : ℝ) meanOff ≤ if Even n then (meanOn : ℝ) else meanOff := by
  split_ifs
  · exact min_le_left _ _
  · exact min_le_right _ _

/-- A draw is as long as its mean times what the number misses of one, or more, and no longer
than its mean times what the inverse of the number exceeds one by. -/
theorem exp_mem_Icc {w : UInt64} {mean a b : ℝ} (hmean : 0 ≤ mean) (ha : 0 < a)
    (hw : Rng.unit (Rng.nextU64 w) ∈ Set.Icc a b) :
    (Rng.exp Real.log w mean).1 ∈ Set.Icc (mean * (1 - b)) (mean * (a⁻¹ - 1)) := by
  have hpos := Rng.unit_pos ℝ (Rng.nextU64 w)
  have hle := Real.log_le_sub_one_of_pos hpos
  have hge := Real.one_sub_inv_le_log_of_pos hpos
  have hinv : (Rng.unit (Rng.nextU64 w) : ℝ)⁻¹ ≤ a⁻¹ := inv_anti₀ ha hw.1
  have hexp : (Rng.exp Real.log w mean).1 = mean * -Real.log (Rng.unit (Rng.nextU64 w)) := by
    unfold Rng.exp
    ring
  rw [hexp]
  constructor
  · apply mul_le_mul_of_nonneg_left _ hmean
    linarith [hw.2]
  · apply mul_le_mul_of_nonneg_left _ hmean
    linarith

section Exponential
variable {meanOff : ℝ} (hoff : 0 < meanOff)
include hoff

/-- Both means are positive; the smaller one is what a draw is measured by. -/
theorem minMean_pos : 0 < min (meanOn : ℝ) meanOff := lt_min (by norm_num [meanOn]) hoff

theorem exp_ge {w : UInt64} {mean u : ℝ} (hmean : min (meanOn : ℝ) meanOff ≤ mean)
    (hw : Rng.unit (Rng.nextU64 w) ≤ u) (hu : u ≤ 1) :
    min (meanOn : ℝ) meanOff * -Real.log u ≤ (Rng.exp Real.log w mean).1 := by
  have hpos := Rng.unit_pos ℝ (Rng.nextU64 w)
  have hlog : Real.log (Rng.unit (Rng.nextU64 w)) ≤ Real.log u := Real.log_le_log hpos hw
  have hu0 : Real.log u ≤ 0 := Real.log_nonpos (hpos.le.trans hw) hu
  have hmin := minMean_pos hoff
  show _ ≤ -mean * Real.log (Rng.unit (Rng.nextU64 w))
  nlinarith

theorem period_nonneg (seed : UInt64) (n : ℕ) : 0 ≤ period Real.log meanOff seed n := by
  have h := exp_ge hoff (mean_ge meanOff n)
    (Rng.unit_le_one ℝ (Rng.nextU64 (Rng.nextU64^[n] seed))) le_rfl
  simpa [period] using h

/-- Of two periods in a row one lasts a fixed time at least. -/
theorem period_ge (seed : UInt64) (n : ℕ) :
    min (meanOn : ℝ) meanOff * -Real.log (Rng.belowOne ℝ) ≤ period Real.log meanOff seed n ∨
    min (meanOn : ℝ) meanOff * -Real.log (Rng.belowOne ℝ) ≤
      period Real.log meanOff seed (n + 1) := by
  have hlt := (Rng.belowOne_lt_one ℝ).le
  rcases Rng.unit_le_belowOne ℝ (Rng.nextU64 (Rng.nextU64^[n] seed)) with h | h
  · exact .inl (exp_ge hoff (mean_ge meanOff n) h hlt)
  · rw [← Function.iterate_succ_apply' Rng.nextU64] at h
    exact .inr (exp_ge hoff (mean_ge meanOff (n + 1)) h hlt)

theorem unbounded (seed : UInt64) : Unbounded Real.log meanOff seed := by
  intro x
  have hlog : Real.log (Rng.belowOne ℝ) < 0 := by
    apply Real.log_neg _ (Rng.belowOne_lt_one ℝ)
    unfold Rng.belowOne
    positivity
  have hε : 0 < min (meanOn : ℝ) meanOff * -Real.log (Rng.belowOne ℝ) :=
    mul_pos (minMean_pos hoff) (by linarith)
  obtain ⟨k, hk⟩ := exists_lt_nsmul hε x
  rw [nsmul_eq_mul] at hk
  have hsum := sum_ge_of_pairs (period_nonneg hoff seed) (period_ge hoff seed) (k + 1)
  refine ⟨2 * k + 1, ?_⟩
  have hswitch : switchTime Real.log meanOff seed (2 * k + 1) =
      ∑ n ∈ range (2 * (k + 1)), period Real.log meanOff seed n := rfl
  rw [hswitch]
  push_cast at hsum
  linarith

end Exponential

end Traceability.Connectivity
