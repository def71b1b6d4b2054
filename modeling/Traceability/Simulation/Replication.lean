import Traceability.Counting.Binomial
import Mathlib.Algebra.Order.Ring.Pow
import Mathlib.Algebra.Order.Archimedean.Basic
import Mathlib.Algebra.Order.Field.Rat
import Mathlib.Tactic.Positivity

/-! Availability under replication, in exact arithmetic. A payload is retrievable when one of its
replicas is up, and a batch when all its payloads are; `exp_ipfs` looks for the smallest
replication factor that meets a target. -/
namespace Traceability.Simulation
open Counting

variable {K : Type*} [Field K]

/-- One payload with `r` replicas, each of them down with probability `q`. -/
def availability (q : K) (r : ℕ) : K := 1 - q ^ r

/-- All `k` payloads of a batch. -/
def batchAvailability (k : ℕ) (q : K) (r : ℕ) : K := availability q r ^ k

/-- `R[ok[0]]` over the factors `1` to `rMax`, if there is one; `rMax` is 8. -/
def minReplicas [LinearOrder K] (k : ℕ) (q target : K) (rMax : ℕ) : Option ℕ :=
  (List.range' 1 rMax).find? fun r => decide (target ≤ batchAvailability k q r)

/-- Availability is the weight of one or more replicas up. -/
theorem availability_eq_binomialTail (q : K) (r : ℕ) :
    availability q r = binomialTail (1 - q) q r 1 := by
  have hall := binomialTail_zero_right (1 - q) q r
  have hnone : binomialTerm (1 - q) q r 0 = q ^ r := by simp [binomialTerm]
  unfold binomialTail at hall
  rw [Finset.sum_eq_sum_Ico_succ_bot (Nat.succ_pos r), hnone] at hall
  have hone : (1 - q + q) ^ r = 1 := by rw [sub_add_cancel, one_pow]
  rw [hone] at hall
  unfold availability binomialTail
  exact (eq_sub_of_add_eq' hall).symm

section Ordered
variable [LinearOrder K] [IsStrictOrderedRing K] {q : K} (hq0 : 0 ≤ q) (hq1 : q ≤ 1)
include hq0 hq1

/-- Another replica does not make a batch less available. -/
theorem batchAvailability_mono (k : ℕ) : Monotone (batchAvailability k q) := by
  intro r s hrs
  have hle : q ^ s ≤ q ^ r := pow_le_pow_of_le_one hq0 hq1 hrs
  have hone : q ^ r ≤ 1 := pow_le_one₀ hq0 hq1
  unfold batchAvailability availability
  exact pow_le_pow_left₀ (by linarith) (by linarith) k

theorem minReplicas_eq_some {k rMax r : ℕ} {target : K}
    (h : minReplicas k q target rMax = some r) :
    1 ≤ r ∧ r ≤ rMax ∧ ∀ s, 1 ≤ s → (target ≤ batchAvailability k q s ↔ r ≤ s) := by
  obtain ⟨hr, before, after, hsplit, hbefore⟩ := List.find?_eq_some_iff_append.mp h
  have hmem : r ∈ List.range' 1 rMax := by simp [hsplit]
  obtain ⟨hone, hle⟩ := List.mem_range'_1.mp hmem
  refine ⟨hone, by omega, fun s hs => ⟨fun hmeets => ?_, fun hrs => ?_⟩⟩
  · by_contra hlt
    have hs' : s ∈ List.range' 1 rMax := List.mem_range'_1.mpr (by omega)
    have hsorted : (List.range' 1 rMax).Pairwise (· < ·) := List.pairwise_lt_range'
    rw [hsplit] at hs' hsorted
    have hin : s ∈ before := by
      rcases List.mem_append.mp hs' with hin | hin
      · exact hin
      · rcases List.mem_cons.mp hin with rfl | hin
        · exact absurd le_rfl hlt
        · have hafter := List.rel_of_pairwise_cons (List.pairwise_append.mp hsorted).2.1 hin
          omega
    have hfails := hbefore s hin
    simp [hmeets] at hfails
  · exact (of_decide_eq_true hr).trans (batchAvailability_mono hq0 hq1 k hrs)

/-- A target below one is met by some factor, by Bernoulli's inequality. -/
theorem exists_batchAvailability_ge [Archimedean K] (hq : q < 1) (k : ℕ) {target : K}
    (htarget : target < 1) : ∃ r, 1 ≤ r ∧ target ≤ batchAvailability k q r := by
  have hk : (0 : K) < k + 1 := by positivity
  have hε : 0 < (1 - target) / (k + 1) := div_pos (by linarith) hk
  obtain ⟨r, hr⟩ := exists_pow_lt_of_lt_one hε hq
  refine ⟨r + 1, by omega, ?_⟩
  have hpow : q ^ (r + 1) ≤ q ^ r := pow_le_pow_of_le_one hq0 hq1 (Nat.le_succ r)
  have hnonneg : 0 ≤ q ^ (r + 1) := pow_nonneg hq0 _
  have hone : q ^ (r + 1) ≤ 1 := pow_le_one₀ hq0 hq1
  have hbernoulli := one_add_mul_le_pow (a := -q ^ (r + 1)) (by linarith) k
  rw [← sub_eq_add_neg] at hbernoulli
  have hsmall : (k + 1) * q ^ (r + 1) ≤ 1 - target := by
    have hlt : q ^ (r + 1) < (1 - target) / (k + 1) := hpow.trans_lt hr
    rw [lt_div_iff₀ hk] at hlt
    linarith
  unfold batchAvailability availability
  linarith

end Ordered

/-- The factor that is reported is a threshold, also beyond the range that is searched: exactly
the factors from it on meet the target, where availability is the weight of one or more of the
replicas up. And for a target below one a large enough range has such a factor. -/
theorem minReplicas_threshold [LinearOrder K] [IsStrictOrderedRing K] [Archimedean K] {q : K}
    (hq0 : 0 ≤ q) (hq1 : q < 1) (k : ℕ) (target : K) :
    (∀ rMax r, minReplicas k q target rMax = some r → 1 ≤ r ∧ r ≤ rMax ∧
      ∀ s, 1 ≤ s → (target ≤ binomialTail (1 - q) q s 1 ^ k ↔ r ≤ s)) ∧
    (target < 1 → ∃ bound, ∀ rMax ≥ bound, ∃ r, minReplicas k q target rMax = some r) := by
  constructor
  · intro rMax r h
    obtain ⟨hone, hle, hthreshold⟩ := minReplicas_eq_some hq0 hq1.le h
    refine ⟨hone, hle, fun s hs => ?_⟩
    rw [← availability_eq_binomialTail]
    exact hthreshold s hs
  · intro htarget
    obtain ⟨bound, hbound, hmeets⟩ := exists_batchAvailability_ge hq0 hq1.le hq1 k htarget
    refine ⟨bound, fun rMax hrMax => ?_⟩
    apply Option.isSome_iff_exists.mp
    rw [minReplicas, List.find?_isSome]
    exact ⟨bound, List.mem_range'_1.mpr (by omega), decide_eq_true hmeets⟩

/-- A batch of 1152 events, replicas down one time in ten: six replicas make 99%. -/
theorem minReplicas_threshold_tenth :
    minReplicas 1152 (1 / 10 : ℚ) (99 / 100) 8 = some 6 ∧
      (99 / 100 : ℚ) ≤ binomialTail (1 - 1 / 10) (1 / 10) 7 1 ^ 1152 := by
  have hfound : minReplicas 1152 (1 / 10 : ℚ) (99 / 100) 8 = some 6 := by
    decide +kernel
  have hthreshold := (minReplicas_threshold (q := (1 / 10 : ℚ)) (by norm_num) (by norm_num) 1152
    (99 / 100)).1 8 6 hfound
  exact ⟨hfound, (hthreshold.2.2 7 (by norm_num)).mpr (by norm_num)⟩

end Traceability.Simulation
