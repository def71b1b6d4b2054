import Traceability.Machine.Programs
import Traceability.Connectivity.Rng
import Mathlib.Algebra.BigOperators.Group.Finset.Basic
import Mathlib.Algebra.Ring.Parity
import Mathlib.Order.Lattice.Nat

/-! The on/off trace of a device's link. Periods of connection and outage follow one another,
starting with a connection; the loop that follows the trace keeps the current period only.
Times are exact, and the logarithm behind the draws is a parameter. -/
namespace Traceability.Connectivity
open Machine Finset

variable {K : Type*}

/-- `EMIT_INTERVAL` and `MEAN_ON`, in seconds. -/
def emitInterval : ℕ := 300

def meanOn : ℕ := 900

/-- The current period: whether the link is up, when it switches, and the generator. -/
structure Link (K : Type*) where
  stateOn : Bool
  switchAt : K
  rng : UInt64

section Draws
variable [Field K] (ln : K → K) (meanOff : K)

/-- Before the first reading: connected until the first switch. -/
def Link.start (rng : UInt64) : Link K :=
  let drawn := Rng.exp ln rng meanOn
  ⟨true, drawn.1, drawn.2⟩

/-- One round of `while emit_t >= switch_at`. -/
def Link.toggle (link : Link K) : Link K :=
  let stateOn := !link.stateOn
  let drawn := Rng.exp ln link.rng (if stateOn then meanOn else meanOff)
  ⟨stateOn, link.switchAt + drawn.1, drawn.2⟩

/-- A reading in an outage is delivered when connectivity returns. -/
def Link.delay (emitT : K) (link : Link K) : K :=
  if link.stateOn then 0 else link.switchAt - emitT

/-- How long period `n` lasts. -/
def period (seed : UInt64) (n : ℕ) : K :=
  (Rng.exp ln (Rng.nextU64^[n] seed) (if Even n then meanOn else meanOff)).1

/-- When period `n` ends. -/
def switchTime (seed : UInt64) (n : ℕ) : K := ∑ k ∈ range (n + 1), period ln meanOff seed k

theorem switchTime_succ (seed : UInt64) (n : ℕ) : switchTime ln meanOff seed (n + 1) =
    switchTime ln meanOff seed n + period ln meanOff seed (n + 1) := sum_range_succ _ _

def Link.at (seed : UInt64) (n : ℕ) : Link K :=
  (Link.toggle ln meanOff)^[n] (Link.start ln seed)

theorem Link.at_add (seed : UInt64) (m n : ℕ) :
    (Link.toggle ln meanOff)^[m] (Link.at ln meanOff seed n) = Link.at ln meanOff seed (n + m) := by
  rw [Link.at, ← Function.iterate_add_apply, add_comm m n, Link.at]

/-- The periods alternate, and the draws add up. -/
theorem Link.at_eq (seed : UInt64) (n : ℕ) : Link.at ln meanOff seed n =
    ⟨decide (Even n), switchTime ln meanOff seed n, Rng.nextU64^[n + 1] seed⟩ := by
  induction n with
  | zero =>
    show Link.start ln seed = _
    simp [Link.start, switchTime, period, Rng.exp]
  | succ n ih =>
    have hnext : Rng.nextU64^[n + 1 + 1] seed = Rng.nextU64 (Rng.nextU64^[n + 1] seed) :=
      Function.iterate_succ_apply' _ _ _
    rw [← Link.at_add ln meanOff seed 1 n, ih, switchTime_succ]
    show Link.toggle ln meanOff _ = _
    unfold Link.toggle period Rng.exp
    rw [hnext]
    by_cases hn : Even n
    · simp [hn, Nat.even_add_one]
    · simp [hn, Nat.even_add_one]

end Draws

section Segments
variable [Field K] [LinearOrder K] {ln : K → K} {meanOff : K} {seed : UInt64}

/-- `while emit_t >= switch_at`. -/
def Link.catchUp (ln : K → K) (meanOff emitT : K) (fuel : ℕ) (link : Link K) : Option (Link K) :=
  whileLoop (fun link => decide (link.switchAt ≤ emitT)) (Link.toggle ln meanOff) fuel link

/-- The trace goes on for ever. -/
def Unbounded (ln : K → K) (meanOff : K) (seed : UInt64) : Prop :=
  ∀ x, ∃ n, x < switchTime ln meanOff seed n

/-- The period that a time falls in. -/
noncomputable def segment (ln : K → K) (meanOff : K) (seed : UInt64) (x : K) : ℕ :=
  sInf {n | x < switchTime ln meanOff seed n}

/-- How late a reading emitted at `x` is delivered: not at all in a period of connection, and
in an outage by what is left of it. -/
noncomputable def delayAt (ln : K → K) (meanOff : K) (seed : UInt64) (x : K) : K :=
  if Even (segment ln meanOff seed x) then 0
  else switchTime ln meanOff seed (segment ln meanOff seed x) - x

theorem Link.delay_at (x : K) :
    (Link.at ln meanOff seed (segment ln meanOff seed x)).delay x = delayAt ln meanOff seed x := by
  rw [Link.at_eq]
  simp [Link.delay, delayAt]

theorem switchTime_le_of_lt_segment {x : K} {n : ℕ} (h : n < segment ln meanOff seed x) :
    switchTime ln meanOff seed n ≤ x := le_of_not_gt (Nat.notMem_of_lt_sInf h)

/-- A time is in the period whose end is the first one after it. -/
theorem segment_eq {x : K} {n : ℕ} (hlt : x < switchTime ln meanOff seed n)
    (hle : ∀ m < n, switchTime ln meanOff seed m ≤ x) : segment ln meanOff seed x = n := by
  apply le_antisymm
  · exact Nat.sInf_le hlt
  · refine le_csInf ⟨n, hlt⟩ fun m hm => ?_
    by_contra hmn
    exact absurd (hle m (by omega)) (not_le_of_gt hm)

variable (htrace : Unbounded ln meanOff seed)
include htrace

theorem lt_switchTime_segment (x : K) :
    x < switchTime ln meanOff seed (segment ln meanOff seed x) := Nat.sInf_mem (htrace x)

theorem segment_mono {x y : K} (h : x ≤ y) :
    segment ln meanOff seed x ≤ segment ln meanOff seed y :=
  Nat.sInf_le (h.trans_lt (lt_switchTime_segment htrace y))

/-- The loop moves on to the period of the emission. -/
theorem Link.catchUp_at {emitT : K} {n fuel : ℕ} (hn : n ≤ segment ln meanOff seed emitT)
    (hfuel : segment ln meanOff seed emitT < fuel) :
    Link.catchUp ln meanOff emitT fuel (Link.at ln meanOff seed n) =
      some (Link.at ln meanOff seed (segment ln meanOff seed emitT)) := by
  obtain ⟨m, hm⟩ := Nat.exists_eq_add_of_le hn
  rw [hm, ← Link.at_add]
  apply whileLoop_eq_some
  · intro i hi
    rw [Link.at_add, Link.at_eq]
    exact decide_eq_true (switchTime_le_of_lt_segment (by omega))
  · rw [Link.at_add, Link.at_eq, ← hm]
    exact decide_eq_false (not_le_of_gt (lt_switchTime_segment htrace emitT))
  · omega

end Segments

end Traceability.Connectivity
