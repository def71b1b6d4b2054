import Traceability.Counting.Binomial
import Mathlib.Data.Rat.Floor
import Mathlib.Algebra.Order.Floor.Semifield

/-! Finalization under validator churn, in exact arithmetic. `_finalize_prob` weighs the sets of
online validators that exceed two thirds; it falls as validators become less available. -/
namespace Traceability.Simulation
open Counting

/-- The smallest online supermajority. -/
def need (n : ℕ) : ℕ := ⌊(2 * n : ℚ) / 3⌋₊ + 1

/-- The probability that a supermajority of `n` validators is online when each one is offline,
independently, with probability `pOff`. -/
def finalizeProb {K : Type*} [Field K] (n : ℕ) (pOff : K) : K :=
  let a := 1 - pOff
  ∑ k ∈ Finset.Ico (need n) (n + 1), n.choose k * a ^ k * pOff ^ (n - k)

section Supermajority

theorem need_eq (n : ℕ) : need n = 2 * n / 3 + 1 := by
  have hfloor := Nat.floor_div_eq_div (K := ℚ) (2 * n) 3
  push_cast at hfloor
  unfold need
  rw [hfloor]

theorem need_le_iff {n k : ℕ} : need n ≤ k ↔ 2 * n < 3 * k := by
  rw [need_eq]
  omega

/-- No smaller integer exceeds two thirds. -/
theorem isLeast_need (n : ℕ) : IsLeast {k : ℤ | (2 * n : ℚ) / 3 < k} (need n) := by
  have hexceeds : ∀ k : ℤ, (2 * n : ℚ) / 3 < k ↔ (2 * n : ℤ) < 3 * k := by
    intro k
    rw [div_lt_iff₀ three_pos]
    constructor
    · intro h
      have hcast : ((2 * n : ℤ) : ℚ) < ((k * 3 : ℤ) : ℚ) := by
        push_cast
        exact h
      have hint := Int.cast_lt.mp hcast
      omega
    · intro h
      have hint : (2 * n : ℤ) < k * 3 := by omega
      exact_mod_cast hint
  constructor
  · apply (hexceeds _).mpr
    rw [need_eq]
    omega
  · intro k hk
    have hint := (hexceeds k).mp hk
    rw [need_eq]
    omega

theorem need_le {n : ℕ} (hn : 1 ≤ n) : need n ≤ n := by
  rw [need_le_iff]
  omega

/-- Two supermajorities have more than a third of the validators in common. -/
theorem third_lt_card_inter {α : Type*} [DecidableEq α] {validators P Q : Finset α}
    (hP : P ⊆ validators) (hQ : Q ⊆ validators) (hneedP : need validators.card ≤ P.card)
    (hneedQ : need validators.card ≤ Q.card) : (validators.card : ℚ) / 3 < (P ∩ Q).card := by
  have hunion : (P ∪ Q).card ≤ validators.card :=
    Finset.card_le_card (Finset.union_subset hP hQ)
  have hcard := Finset.card_union_add_card_inter P Q
  rw [need_le_iff] at hneedP hneedQ
  have hnat : validators.card < (P ∩ Q).card * 3 := by omega
  rw [div_lt_iff₀ three_pos]
  exact_mod_cast hnat

end Supermajority

section Probability
variable {K : Type*} [Field K]

theorem finalizeProb_eq (n : ℕ) (pOff : K) :
    finalizeProb n pOff = binomialTail (1 - pOff) pOff n (need n) := rfl

/-- It is the weight of the online sets that exceed two thirds of the validators. -/
theorem finalizeProb_eq_sum {α : Type*} (validators : Finset α) (pOff : K) :
    finalizeProb validators.card pOff =
      ∑ online ∈ validators.powerset with 2 * validators.card < 3 * online.card,
        (1 - pOff) ^ online.card * pOff ^ (validators.card - online.card) := by
  rw [finalizeProb_eq, binomialTail_eq_sum_powerset]
  simp only [need_le_iff]

theorem finalizeProb_one (n : ℕ) : finalizeProb n (1 : K) = 0 := by
  apply Finset.sum_eq_zero
  intro k hk
  have hpos : need n ≤ k := (Finset.mem_Ico.mp hk).1
  rw [need_eq] at hpos
  have hk : k ≠ 0 := by omega
  rw [sub_self, zero_pow hk, mul_zero, zero_mul]

theorem finalizeProb_zero {n : ℕ} (hn : 1 ≤ n) : finalizeProb n (0 : K) = 1 := by
  rw [finalizeProb_eq, binomialTail, Finset.sum_eq_single n]
  · simp [binomialTerm]
  · intro k hk hne
    have hlt : k < n + 1 := (Finset.mem_Ico.mp hk).2
    have hoff : n - k ≠ 0 := by omega
    unfold binomialTerm
    rw [zero_pow hoff, mul_zero]
  · intro hout
    have hneed := need_le hn
    exact absurd (Finset.mem_Ico.mpr ⟨hneed, n.lt_succ_self⟩) hout

variable [LinearOrder K] [IsStrictOrderedRing K]

theorem finalizeProb_anti (n : ℕ) {p q : K} (hp : 0 ≤ p) (hpq : p ≤ q) (hq : q ≤ 1) :
    finalizeProb n q ≤ finalizeProb n p := by
  have hmono := binomialTail_mono (sub_nonneg.mpr hq) (sub_le_sub_left hpq 1) (sub_le_self 1 hp)
    n (need n)
  rwa [sub_sub_cancel, sub_sub_cancel] at hmono

theorem finalizeProb_nonneg (n : ℕ) {q : K} (hq : 0 ≤ q) (hq1 : q ≤ 1) : 0 ≤ finalizeProb n q :=
  binomialTail_nonneg (sub_nonneg.mpr hq1) hq n (need n)

theorem finalizeProb_le_one (n : ℕ) {p : K} (hp : 0 ≤ p) (hp1 : p ≤ 1) : finalizeProb n p ≤ 1 := by
  have hle := binomialTail_le_one (sub_nonneg.mpr hp1) (sub_le_self 1 hp) n (need n)
  rwa [sub_sub_cancel] at hle

end Probability

/-- Finalization degrades monotonically: `need` is the least supermajority, any two of its size
share more than a third, and the probability falls from one to zero with availability. -/
theorem finalization_degrades {K : Type*} [Field K] [LinearOrder K] [IsStrictOrderedRing K]
    {n : ℕ} (hn : 1 ≤ n) {p q : K} (hp : 0 ≤ p) (hpq : p ≤ q) (hq : q ≤ 1) :
    IsLeast {k : ℤ | (2 * n : ℚ) / 3 < k} (need n) ∧ need n ≤ n ∧
    (∀ P Q : Finset (Fin n), P.card = need n → Q.card = need n → (n : ℚ) / 3 < (P ∩ Q).card) ∧
    0 ≤ finalizeProb n q ∧ finalizeProb n q ≤ finalizeProb n p ∧ finalizeProb n p ≤ 1 ∧
    finalizeProb n (0 : K) = 1 ∧ finalizeProb n (1 : K) = 0 := by
  refine ⟨isLeast_need n, need_le hn, ?_, finalizeProb_nonneg n (hp.trans hpq) hq,
    finalizeProb_anti n hp hpq hq, finalizeProb_le_one n hp (hpq.trans hq), finalizeProb_zero hn,
    finalizeProb_one n⟩
  intro P Q hP hQ
  have hcard : (Finset.univ : Finset (Fin n)).card = n := Finset.card_fin n
  have hshare := third_lt_card_inter (Finset.subset_univ P) (Finset.subset_univ Q)
    (by rw [hcard, hP]) (by rw [hcard, hQ])
  rwa [hcard] at hshare

/-- Ten validators, each offline one time in ten and then one time in three. -/
theorem finalization_degrades_ten :
    IsLeast {k : ℤ | (2 * (10 : ℕ) : ℚ) / 3 < k} (need 10) ∧
      finalizeProb 10 (1 / 3 : ℚ) ≤ finalizeProb 10 (1 / 10 : ℚ) := by
  obtain ⟨hleast, -, -, -, hle, -⟩ := finalization_degrades (K := ℚ) (Nat.le_add_left 1 9)
    (p := 1 / 10) (q := 1 / 3) (by norm_num) (by norm_num) (by norm_num)
  exact ⟨hleast, hle⟩

end Traceability.Simulation
