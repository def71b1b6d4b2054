import Mathlib.Data.Nat.Choose.Sum
import Mathlib.Algebra.BigOperators.Intervals
import Mathlib.Algebra.Order.BigOperators.Group.Finset
import Mathlib.Algebra.Order.Field.Basic
import Mathlib.Tactic.Linarith

/-! Tails of the binomial distribution: the weight of `m` or more successes in `n` trials. The
first trial splits a tail into two of one trial less, which makes it monotone in the chance of
success although its terms are not. -/
namespace Traceability.Counting

section Recursion
variable {R : Type*} [CommRing R] (a b : R)

/-- The weight of `k` successes in `n` trials. -/
def binomialTerm (n k : ℕ) : R := n.choose k * a ^ k * b ^ (n - k)

def binomialTail (n m : ℕ) : R := ∑ k ∈ Finset.Ico m (n + 1), binomialTerm a b n k

theorem binomialTerm_of_lt {n k : ℕ} (h : n < k) : binomialTerm a b n k = 0 := by
  unfold binomialTerm
  rw [Nat.choose_eq_zero_of_lt h, Nat.cast_zero, zero_mul, zero_mul]

/-- The first trial succeeds or fails. -/
theorem binomialTerm_succ (n k : ℕ) : binomialTerm a b (n + 1) (k + 1) =
    a * binomialTerm a b n k + b * binomialTerm a b n (k + 1) := by
  rcases lt_or_ge k n with h | h
  · obtain ⟨d, rfl⟩ := Nat.exists_eq_add_of_lt h
    have hfail : k + d + 1 - (k + 1) = d := by omega
    have hpow : k + d + 1 + 1 - (k + 1) = d + 1 := by omega
    have hsucceed : k + d + 1 - k = d + 1 := by omega
    unfold binomialTerm
    rw [Nat.choose_succ_succ, hfail, hpow, hsucceed]
    push_cast
    ring
  · rw [binomialTerm_of_lt a b (Nat.lt_succ_of_le h), mul_zero, add_zero]
    rcases h.lt_or_eq with h | rfl
    · rw [binomialTerm_of_lt a b h, binomialTerm_of_lt a b (Nat.succ_lt_succ h), mul_zero]
    · simp [binomialTerm, pow_succ']

/-- The number of trials bounds the sum; past it there is nothing to add. -/
theorem sum_Ico_binomialTerm (n m : ℕ) :
    ∑ k ∈ Finset.Ico m (n + 2), binomialTerm a b n k = binomialTail a b n m := by
  unfold binomialTail
  rcases le_or_gt m (n + 1) with h | h
  · rw [Finset.sum_Ico_succ_top h, binomialTerm_of_lt a b n.lt_succ_self, add_zero]
  · rw [Finset.Ico_eq_empty (by omega), Finset.Ico_eq_empty (by omega)]

theorem binomialTail_zero_right (n : ℕ) : binomialTail a b n 0 = (a + b) ^ n := by
  unfold binomialTail
  rw [add_pow, Finset.range_eq_Ico]
  apply Finset.sum_congr rfl
  intro k _
  unfold binomialTerm
  ring

theorem binomialTail_zero_left (m : ℕ) : binomialTail a b 0 (m + 1) = 0 := by
  unfold binomialTail
  rw [Finset.Ico_eq_empty (by omega), Finset.sum_empty]

theorem binomialTail_succ (n m : ℕ) : binomialTail a b (n + 1) (m + 1) =
    a * binomialTail a b n m + b * binomialTail a b n (m + 1) := by
  have hshift : binomialTail a b (n + 1) (m + 1) =
      ∑ k ∈ Finset.Ico m (n + 1), binomialTerm a b (n + 1) (k + 1) :=
    (Finset.sum_Ico_add' (binomialTerm a b (n + 1)) m (n + 1) 1).symm
  have htop : ∑ k ∈ Finset.Ico m (n + 1), binomialTerm a b n (k + 1) =
      binomialTail a b n (m + 1) := by
    rw [Finset.sum_Ico_add' (binomialTerm a b n) m (n + 1) 1, sum_Ico_binomialTerm]
  rw [hshift, ← htop]
  simp only [binomialTerm_succ, Finset.sum_add_distrib, ← Finset.mul_sum]
  rfl

/-- A tail weighs the sets of successes that are large enough. -/
theorem binomialTail_eq_sum_powerset {α : Type*} (trials : Finset α) (m : ℕ) :
    binomialTail a b trials.card m = ∑ successes ∈ trials.powerset with m ≤ successes.card,
      a ^ successes.card * b ^ (trials.card - successes.card) := by
  rw [Finset.sum_filter,
    Finset.sum_powerset_apply_card fun k => if m ≤ k then a ^ k * b ^ (trials.card - k) else 0]
  have hterm : ∀ k, trials.card.choose k • (if m ≤ k then a ^ k * b ^ (trials.card - k) else 0) =
      if m ≤ k then binomialTerm a b trials.card k else 0 := by
    intro k
    unfold binomialTerm
    split_ifs
    · rw [nsmul_eq_mul, mul_assoc]
    · rw [nsmul_zero]
  simp only [hterm, ← Finset.sum_filter]
  unfold binomialTail
  congr 1
  ext k
  simp only [Finset.mem_Ico, Finset.mem_filter, Finset.mem_range]
  omega

end Recursion

section Order
variable {K : Type*} [Field K] [LinearOrder K] [IsStrictOrderedRing K] {a a' b : K}

theorem binomialTerm_nonneg (ha : 0 ≤ a) (hb : 0 ≤ b) (n k : ℕ) : 0 ≤ binomialTerm a b n k := by
  unfold binomialTerm
  positivity

theorem binomialTail_nonneg (ha : 0 ≤ a) (hb : 0 ≤ b) (n m : ℕ) : 0 ≤ binomialTail a b n m :=
  Finset.sum_nonneg fun k _ => binomialTerm_nonneg ha hb n k

/-- More successes are less likely. -/
theorem binomialTail_anti (ha : 0 ≤ a) (hb : 0 ≤ b) (n : ℕ) {m m' : ℕ} (h : m ≤ m') :
    binomialTail a b n m' ≤ binomialTail a b n m := by
  apply Finset.sum_le_sum_of_subset_of_nonneg (Finset.Ico_subset_Ico_left h)
  intro k _ _
  exact binomialTerm_nonneg ha hb n k

theorem binomialTail_le_one (ha : 0 ≤ a) (ha1 : a ≤ 1) (n m : ℕ) :
    binomialTail a (1 - a) n m ≤ 1 := by
  have hall : binomialTail a (1 - a) n 0 = 1 := by
    rw [binomialTail_zero_right, add_sub_cancel, one_pow]
  exact (binomialTail_anti ha (sub_nonneg.mpr ha1) n m.zero_le).trans_eq hall

/-- A better chance of success makes every tail heavier. -/
theorem binomialTail_mono (ha : 0 ≤ a) (haa : a ≤ a') (ha1 : a' ≤ 1) (n m : ℕ) :
    binomialTail a (1 - a) n m ≤ binomialTail a' (1 - a') n m := by
  induction n generalizing m with
  | zero =>
    cases m with
    | zero => simp [binomialTail_zero_right]
    | succ m => rw [binomialTail_zero_left, binomialTail_zero_left]
  | succ n ih =>
    cases m with
    | zero => simp [binomialTail_zero_right]
    | succ m =>
      have ha' : 0 ≤ a' := ha.trans haa
      have hfail : 0 ≤ 1 - a := sub_nonneg.mpr (haa.trans ha1)
      have hlighter := binomialTail_anti ha' (sub_nonneg.mpr ha1) n m.le_succ
      rw [binomialTail_succ, binomialTail_succ]
      calc a * binomialTail a (1 - a) n m + (1 - a) * binomialTail a (1 - a) n (m + 1)
          ≤ a * binomialTail a' (1 - a') n m + (1 - a) * binomialTail a' (1 - a') n (m + 1) :=
            add_le_add (mul_le_mul_of_nonneg_left (ih m) ha)
              (mul_le_mul_of_nonneg_left (ih (m + 1)) hfail)
        _ ≤ a' * binomialTail a' (1 - a') n m + (1 - a') * binomialTail a' (1 - a') n (m + 1) := by
            -- the weight that moves to success meets the heavier tail
            have hmove := mul_le_mul_of_nonneg_left hlighter (sub_nonneg.mpr haa)
            linarith

end Order

end Traceability.Counting
