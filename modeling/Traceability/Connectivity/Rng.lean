import Traceability.Bytes.Xorshift
import Mathlib.Data.UInt
import Mathlib.Algebra.Order.Field.Basic
import Mathlib.Tactic.Positivity
import Mathlib.Tactic.NormNum

/-! The xorshift64 generator of the connectivity measurement. Its state is the word it
returned last. The draws are exact; a word becomes a number in `(0, 1]`, and a one, whose
logarithm vanishes, never comes twice in a row. -/
namespace Traceability.Connectivity.Rng

def nextU64 (x : UInt64) : UInt64 :=
  let x := x ^^^ (x <<< 13)
  let x := x ^^^ (x >>> 7)
  x ^^^ (x <<< 17)

instance finiteUInt64 : Finite UInt64 :=
  Finite.of_injective UInt64.toFin fun _ _ => UInt64.toFin_inj.mp

/-- The state is mixed with a shift of itself three times, and each mixing is injective. -/
theorem nextU64_injective : Function.Injective nextU64 := by
  intro x y h
  have hbits : (nextU64 x).toBitVec = (nextU64 y).toBitVec := congrArg UInt64.toBitVec h
  unfold nextU64 at hbits
  simp only [UInt64.toBitVec_xor, UInt64.toBitVec_shiftLeft, UInt64.toBitVec_shiftRight] at hbits
  apply UInt64.toBitVec_inj.mp
  apply Bytes.mix_shiftLeft_injective (a := 13) (by omega)
  apply Bytes.mix_ushiftRight_injective (a := 7) (by omega)
  exact Bytes.mix_shiftLeft_injective (a := 17) (by omega) hbits

section Field
variable {K : Type*} [Field K]

/-- `unit`, for the word that was drawn. -/
def unit (w : UInt64) : K := ((w >>> 11).toNat + 1 : ℕ) / (2 ^ 53 : ℕ)

/-- `exp`: the draw, and the word that is the next state. -/
def exp (ln : K → K) (rng : UInt64) (mean : K) : K × UInt64 :=
  let w := nextU64 rng
  (-mean * ln (unit w), w)

end Field

theorem toNat_shiftRight_lt (w : UInt64) : (w >>> 11).toNat < 2 ^ 53 := by
  have hw := w.toNat_lt
  rw [UInt64.toNat_shiftRight, Nat.shiftRight_eq_div_pow]
  have h11 : (11 : UInt64).toNat % 64 = 11 := rfl
  rw [h11]
  omega

/-- The words whose top bits are all ones, and what follows them. -/
theorem nextU64_of_ones : ∀ k : Fin 2048,
    (nextU64 (UInt64.ofNat (2 ^ 64 - 1 - k.val)) >>> 11).toNat ≠ 2 ^ 53 - 1 := by
  decide +kernel

theorem not_ones_twice {w : UInt64} (hw : (w >>> 11).toNat = 2 ^ 53 - 1) :
    (nextU64 w >>> 11).toNat ≠ 2 ^ 53 - 1 := by
  have hlt := w.toNat_lt
  have hdiv : w.toNat / 2 ^ 11 = 2 ^ 53 - 1 := by
    rw [← hw, UInt64.toNat_shiftRight, Nat.shiftRight_eq_div_pow]
    rfl
  have hk : 2 ^ 64 - 1 - w.toNat < 2048 := by omega
  have hones := nextU64_of_ones ⟨2 ^ 64 - 1 - w.toNat, hk⟩
  have hback : UInt64.ofNat (2 ^ 64 - 1 - (2 ^ 64 - 1 - w.toNat)) = w := by
    rw [show 2 ^ 64 - 1 - (2 ^ 64 - 1 - w.toNat) = w.toNat by omega]
    exact UInt64.ofNat_toNat
  rwa [hback] at hones

section Ordered
variable (K : Type*) [Field K] [LinearOrder K] [IsStrictOrderedRing K]

theorem unit_pos (w : UInt64) : 0 < (unit w : K) := by
  unfold unit
  positivity

theorem unit_le_one (w : UInt64) : (unit w : K) ≤ 1 := by
  have h := toNat_shiftRight_lt w
  unfold unit
  rw [div_le_one (by positivity), Nat.cast_le]
  omega

/-- The largest number below one that a word can give. -/
def belowOne : K := (2 ^ 53 - 1 : ℕ) / (2 ^ 53 : ℕ)

theorem belowOne_lt_one : belowOne K < 1 := by
  unfold belowOne
  rw [div_lt_one (by positivity), Nat.cast_lt]
  norm_num

/-- Of two numbers drawn in a row one is bounded away from one. -/
theorem unit_le_belowOne (w : UInt64) :
    (unit w : K) ≤ belowOne K ∨ (unit (nextU64 w) : K) ≤ belowOne K := by
  have hle (v : UInt64) (hv : (v >>> 11).toNat ≠ 2 ^ 53 - 1) : (unit v : K) ≤ belowOne K := by
    have h := toNat_shiftRight_lt v
    unfold unit belowOne
    gcongr
    omega
  by_cases hw : (w >>> 11).toNat = 2 ^ 53 - 1
  · exact .inr (hle _ (not_ones_twice hw))
  · exact .inl (hle _ hw)

end Ordered

end Traceability.Connectivity.Rng
