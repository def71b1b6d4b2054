import Mathlib.Data.Fintype.Card
import Mathlib.Dynamics.PeriodicPts.Lemmas

/-! Words mixed with shifts of themselves by exclusive or. A shift is linear and moves every
word but zero, so the mixing is a permutation, and a generator made of such mixings runs
through a cycle from each of its states. -/
namespace Traceability.Bytes

section Words
variable {w : ℕ}

/-- A word that is its own left shift has no lowest bit set. -/
theorem eq_zero_of_shiftLeft_eq {z : BitVec w} {a : ℕ} (ha : 0 < a) (h : z <<< a = z) :
    z = 0 := by
  have hbits : ∀ i, z.getLsbD i = false := by
    intro i
    induction i using Nat.strong_induction_on with
    | _ i ih =>
      rw [← h, BitVec.getLsbD_shiftLeft]
      by_cases hi : i < a
      · simp [hi]
      · rw [ih (i - a) (by omega)]
        simp
  exact BitVec.eq_of_getLsbD_eq fun i _ => by simp [hbits i]

/-- A word that is its own right shift has no highest bit set. -/
theorem eq_zero_of_ushiftRight_eq {z : BitVec w} {a : ℕ} (ha : 0 < a) (h : z >>> a = z) :
    z = 0 := by
  have hbits : ∀ d i, w ≤ i + d → z.getLsbD i = false := by
    intro d
    induction d with
    | zero => exact fun i hi => BitVec.getLsbD_of_ge z i hi
    | succ d ih =>
      intro i hi
      rw [← h, BitVec.getLsbD_ushiftRight]
      exact ih (a + i) (by omega)
  exact BitVec.eq_of_getLsbD_eq fun i _ => by simp [hbits w i (by omega)]

/-- A linear map without a fixed point but zero can be mixed in. -/
theorem mix_injective {f : BitVec w → BitVec w} (hlinear : ∀ x y, f (x ^^^ y) = f x ^^^ f y)
    (hfix : ∀ z, f z = z → z = 0) : Function.Injective fun x => x ^^^ f x := by
  intro x y h
  have hboth : x ^^^ f x = y ^^^ f y := h
  have hz : f (x ^^^ y) = x ^^^ y := by
    rw [hlinear, ← BitVec.xor_eq_zero_iff]
    calc f x ^^^ f y ^^^ (x ^^^ y) = x ^^^ f x ^^^ (y ^^^ f y) := by ac_rfl
      _ = 0#w := by rw [hboth, BitVec.xor_self]
  exact BitVec.xor_eq_zero_iff.mp (hfix _ hz)

theorem mix_shiftLeft_injective {a : ℕ} (ha : 0 < a) :
    Function.Injective fun x : BitVec w => x ^^^ x <<< a :=
  mix_injective (fun x y => BitVec.shiftLeft_xor_distrib x y a)
    fun _ => eq_zero_of_shiftLeft_eq ha

theorem mix_ushiftRight_injective {a : ℕ} (ha : 0 < a) :
    Function.Injective fun x : BitVec w => x ^^^ x >>> a :=
  mix_injective (fun x y => BitVec.ushiftRight_xor_distrib x y a)
    fun _ => eq_zero_of_ushiftRight_eq ha

end Words

/-- An injective step on finitely many states comes back to each of them. -/
theorem exists_iterate_eq {σ : Type*} [Finite σ] {step : σ → σ} (h : Function.Injective step)
    (s : σ) : ∃ n > 0, step^[n] s = s := by
  obtain ⟨n, hn, hperiod⟩ := Function.mem_periodicPts.mp (Function.Injective.mem_periodicPts h s)
  exact ⟨n, hn, hperiod⟩

end Traceability.Bytes
