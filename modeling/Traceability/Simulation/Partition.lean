import Traceability.Machine.Ticks
import Mathlib.Data.Rat.Floor
import Mathlib.Tactic.Linarith

/-! The loop of `exp_partition` in exact arithmetic. It anchors on a cadence except during a
partition; how stale the last anchor can get, and how soon the backlog clears afterwards. -/
namespace Traceability.Simulation
open Machine

/-- The points from `start` to `stop`, which is left out, in steps of `step`. -/
def arange (start stop step : ℚ) : List ℚ :=
  (List.range ⌈(stop - start) / step⌉₊).map fun i : ℕ => start + i * step

theorem arange_zero (stop step : ℚ) :
    arange 0 stop step = (List.range ⌈stop / step⌉₊).map fun i : ℕ => (i : ℚ) * step := by
  unfold arange
  simp only [sub_zero, zero_add]

/-- The local constants of the experiment; times are in minutes. -/
structure Partition where
  anchorMin : ℚ
  eventRate : ℚ
  horizon : ℚ
  pStart : ℚ
  pDur : ℚ
  dt : ℚ

/-- What the loop carries along. -/
structure Carried where
  lastAnchor : ℚ
  unanchored : ℚ
  peakStale : ℚ
  recoveryTime : Option ℚ

/-- The entries of the two arrays at one step. -/
structure Sample where
  staleness : ℚ
  backlog : ℚ

namespace Partition
variable (c : Partition)

def healed : ℚ := c.pStart + c.pDur

def Partitioned (ti : ℚ) : Prop := c.pStart ≤ ti ∧ ti < c.healed

instance (ti : ℚ) : Decidable (c.Partitioned ti) := inferInstanceAs (Decidable (_ ∧ _))

/-- Attempts are made on the cadence and succeed only when connected. -/
def Anchors (ti : ℚ) (s : Carried) : Prop :=
  c.anchorMin ≤ ti - s.lastAnchor ∧ ¬ c.Partitioned ti

instance (ti : ℚ) (s : Carried) : Decidable (c.Anchors ti s) :=
  inferInstanceAs (Decidable (_ ∧ _))

def attempt (ti : ℚ) (s : Carried) : Carried :=
  if c.Anchors ti s then
    { s with
      lastAnchor := ti
      unanchored := 0
      recoveryTime :=
        if c.healed ≤ ti ∧ s.recoveryTime = none then some (ti - c.healed) else s.recoveryTime }
  else s

def record (ti : ℚ) (s : Carried) : Sample × Carried :=
  let unanchored := s.unanchored + c.eventRate * c.dt
  let staleness := ti - s.lastAnchor
  (⟨staleness, unanchored⟩,
    { s with unanchored := unanchored, peakStale := max s.peakStale staleness })

/-- The body of the loop. -/
def body (ti : ℚ) (s : Carried) : Sample × Carried := c.record ti (c.attempt ti s)

def start : Carried := ⟨0, 0, 0, none⟩

def t : List ℚ := arange 0 (c.horizon + c.dt) c.dt

/-- The steps of the loop, with what each recorded. -/
def steps : List (Entry Carried ℚ Sample) := history c.body start c.t

def finish : Carried := run c.body start c.t

section Body
variable {c} {ti : ℚ} {s : Carried}

theorem attempt_of_anchors (h : c.Anchors ti s) :
    (c.attempt ti s).lastAnchor = ti ∧ (c.attempt ti s).unanchored = 0 := by
  unfold attempt
  rw [if_pos h]
  exact ⟨rfl, rfl⟩

theorem attempt_of_not_anchors (h : ¬ c.Anchors ti s) : c.attempt ti s = s := if_neg h

/-- When connected, less than the cadence has passed after the attempt. -/
theorem sub_lastAnchor_lt (hmin : 0 < c.anchorMin) (h : ¬ c.Partitioned ti) :
    ti - (c.attempt ti s).lastAnchor < c.anchorMin := by
  by_cases ha : c.Anchors ti s
  · rw [(attempt_of_anchors ha).1, sub_self]
    exact hmin
  · rw [attempt_of_not_anchors ha]
    exact lt_of_not_ge fun hle => ha ⟨hle, h⟩

theorem attempt_of_partitioned (h : c.Partitioned ti) : c.attempt ti s = s :=
  attempt_of_not_anchors fun ha => ha.2 h

theorem attempt_recoveryTime_of_lt (h : ti < c.healed) :
    (c.attempt ti s).recoveryTime = s.recoveryTime := by
  unfold attempt
  split_ifs with ha hheal
  · exact absurd hheal.1 (not_le.mpr h)
  · rfl
  · rfl

theorem attempt_recoveryTime_of_ge (ha : c.Anchors ti s) (h : c.healed ≤ ti)
    (hnone : s.recoveryTime = none) : (c.attempt ti s).recoveryTime = some (ti - c.healed) := by
  unfold attempt
  rw [if_pos ha]
  exact if_pos ⟨h, hnone⟩

/-- A recovery time is recorded once. -/
theorem attempt_recoveryTime_of_some {x : ℚ} (h : s.recoveryTime = some x) :
    (c.attempt ti s).recoveryTime = some x := by
  unfold attempt
  split_ifs with ha hheal
  · rw [h] at hheal
    exact absurd hheal.2 (Option.some_ne_none x)
  · exact h
  · exact h

end Body

/-- The cadence is a whole number of steps, and the partition is not before the start. -/
structure Regular : Prop where
  dt_pos : 0 < c.dt
  anchorMin_pos : 0 < c.anchorMin
  whole : ∃ m : ℕ, c.anchorMin = m * c.dt
  pStart_nonneg : 0 ≤ c.pStart
  pDur_nonneg : 0 ≤ c.pDur

/-- Before step `n` the last anchor lies on the grid, at most a cadence before the step or, once
the partition has begun, before the partition; the backlog is what came in since. -/
structure Cadence (n : ℕ) (s : Carried) : Prop where
  onGrid : ∃ j : ℕ, s.lastAnchor = j * c.dt
  recent : min (n * c.dt) c.pStart ≤ s.lastAnchor + c.anchorMin
  backlog : s.unanchored = c.eventRate * (n * c.dt - s.lastAnchor)

/-- Until a step at or after the end of the partition, the last anchor was made before it. -/
def Unhealed (n : ℕ) (s : Carried) : Prop :=
  n * c.dt < c.healed + c.dt → s.lastAnchor ≤ c.pStart ∧ s.recoveryTime = none

variable {c}

section Step
variable {n : ℕ} {s : Carried}

theorem cadence_start (hc : c.Regular) : c.Cadence 0 start where
  onGrid := ⟨0, by simp [start]⟩
  recent := by
    have hmin := hc.anchorMin_pos
    have hle : min ((0 : ℕ) * c.dt) c.pStart ≤ (0 : ℕ) * c.dt := min_le_left _ _
    simp only [start]
    push_cast at hle ⊢
    linarith
  backlog := by simp [start]

/-- On the grid, less than the cadence means at least one step less. -/
theorem add_dt_le (hc : c.Regular) {last : ℚ} (hgrid : ∃ j : ℕ, last = j * c.dt)
    (h : n * c.dt - last < c.anchorMin) : n * c.dt + c.dt ≤ last + c.anchorMin := by
  obtain ⟨j, rfl⟩ := hgrid
  obtain ⟨m, hm⟩ := hc.whole
  have hsum : ((j + m : ℕ) : ℚ) * c.dt = j * c.dt + c.anchorMin := by
    rw [hm]
    push_cast
    ring
  have hlt : (n : ℚ) * c.dt < ((j + m : ℕ) : ℚ) * c.dt := by
    rw [hsum]
    linarith
  rw [← hsum]
  exact grid_succ_le hc.dt_pos hlt

/-- The attempt keeps the last anchor on the grid and the backlog in step with it. -/
theorem Cadence.attempt (h : c.Cadence n s) :
    (∃ j : ℕ, (c.attempt (n * c.dt) s).lastAnchor = j * c.dt) ∧
      (c.attempt (n * c.dt) s).unanchored =
        c.eventRate * (n * c.dt - (c.attempt (n * c.dt) s).lastAnchor) := by
  by_cases ha : c.Anchors (n * c.dt) s
  · obtain ⟨hlast, hun⟩ := attempt_of_anchors ha
    rw [hlast, hun, sub_self, mul_zero]
    exact ⟨⟨n, rfl⟩, rfl⟩
  · rw [attempt_of_not_anchors ha]
    exact ⟨h.onGrid, h.backlog⟩

theorem Cadence.body (hc : c.Regular) (h : c.Cadence n s) :
    c.Cadence (n + 1) (c.body (n * c.dt) s).2 := by
  obtain ⟨hgrid, hun⟩ := h.attempt
  have htime : ((n + 1 : ℕ) : ℚ) * c.dt = n * c.dt + c.dt := by
    push_cast
    ring
  refine ⟨hgrid, ?_, ?_⟩
  · show min _ _ ≤ (c.attempt (n * c.dt) s).lastAnchor + _
    rw [htime]
    by_cases hp : c.Partitioned (n * c.dt)
    · -- the last anchor stays behind, but so does the start of the partition
      have hrecent := h.recent
      rw [min_eq_right hp.1] at hrecent
      rw [attempt_of_partitioned hp]
      exact (min_le_right _ _).trans hrecent
    · have hlt := sub_lastAnchor_lt (s := s) hc.anchorMin_pos hp
      exact (min_le_left _ _).trans (add_dt_le hc hgrid hlt)
  · show (c.attempt (n * c.dt) s).unanchored + _ =
      _ * (_ - (c.attempt (n * c.dt) s).lastAnchor)
    rw [htime, hun]
    ring

/-- What a step records. -/
theorem Cadence.sample (hc : c.Regular) (h : c.Cadence n s) :
    (c.body (n * c.dt) s).1.staleness < c.pDur + c.anchorMin ∧
      (¬ c.Partitioned (n * c.dt) → (c.body (n * c.dt) s).1.staleness < c.anchorMin) ∧
      (c.body (n * c.dt) s).1.backlog =
        c.eventRate * ((c.body (n * c.dt) s).1.staleness + c.dt) := by
  have hdur := hc.pDur_nonneg
  have hstale : (c.body (n * c.dt) s).1.staleness =
      n * c.dt - (c.attempt (n * c.dt) s).lastAnchor := rfl
  have hbacklog : (c.body (n * c.dt) s).1.backlog =
      (c.attempt (n * c.dt) s).unanchored + c.eventRate * c.dt := rfl
  have hconnected : ¬ c.Partitioned (n * c.dt) →
      (c.body (n * c.dt) s).1.staleness < c.anchorMin := sub_lastAnchor_lt hc.anchorMin_pos
  refine ⟨?_, hconnected, ?_⟩
  · by_cases hp : c.Partitioned (n * c.dt)
    · have hrecent := h.recent
      have hend : (n : ℚ) * c.dt < c.pStart + c.pDur := hp.2
      rw [min_eq_right hp.1] at hrecent
      rw [hstale, attempt_of_partitioned hp]
      linarith
    · have hlt := hconnected hp
      linarith
  · rw [hbacklog, hstale, h.attempt.2]
    ring

theorem unhealed_start (hc : c.Regular) : c.Unhealed 0 start := fun _ => ⟨hc.pStart_nonneg, rfl⟩

theorem Unhealed.body (hc : c.Regular) (h : c.Unhealed n s) :
    c.Unhealed (n + 1) (c.body (n * c.dt) s).2 := by
  intro hnext
  push_cast at hnext
  have hdt := hc.dt_pos
  have hlt : (n : ℚ) * c.dt < c.healed := by linarith
  obtain ⟨hlast, hnone⟩ := h (by linarith)
  refine ⟨?_, (attempt_recoveryTime_of_lt hlt).trans hnone⟩
  show (c.attempt (n * c.dt) s).lastAnchor ≤ _
  by_cases ha : c.Anchors (n * c.dt) s
  · rw [(attempt_of_anchors ha).1]
    by_contra hlate
    exact ha.2 ⟨(not_le.mp hlate).le, hlt⟩
  · rwa [attempt_of_not_anchors ha]

/-- The first step after a partition of at least a cadence anchors. -/
theorem Unhealed.anchors (hdur : c.anchorMin ≤ c.pDur) (h : c.Unhealed n s)
    (hheal : c.healed ≤ n * c.dt) (hfirst : n * c.dt < c.healed + c.dt) :
    c.Anchors (n * c.dt) s ∧ (c.body (n * c.dt) s).2.recoveryTime = some (n * c.dt - c.healed) := by
  obtain ⟨hlast, hnone⟩ := h hfirst
  have ha : c.Anchors (n * c.dt) s := by
    refine ⟨?_, fun hp => absurd hp.2 (not_lt.mpr hheal)⟩
    unfold healed at hheal
    linarith
  exact ⟨ha, attempt_recoveryTime_of_ge ha hheal hnone⟩

end Step

section Run

/-- The state before step `n`. -/
def before (c : Partition) (n : ℕ) : Carried :=
  stateAt c.body (fun i : ℕ => (i : ℚ) * c.dt) start n

theorem cadence_before (hc : c.Regular) (n : ℕ) : c.Cadence n (c.before n) :=
  stateAt_invariant (cadence_start hc) (fun _ _ h => h.body hc) n

theorem unhealed_before (hc : c.Regular) (n : ℕ) : c.Unhealed n (c.before n) :=
  stateAt_invariant (unhealed_start hc) (fun _ _ h => h.body hc) n

/-- The number of steps. -/
def length (c : Partition) : ℕ := ⌈(c.horizon + c.dt) / c.dt⌉₊

theorem t_eq (c : Partition) : c.t = (List.range c.length).map fun i : ℕ => (i : ℚ) * c.dt :=
  arange_zero _ _

theorem finish_eq (c : Partition) : c.finish = c.before c.length := by
  unfold finish
  rw [t_eq, run_map_range]
  rfl

theorem mem_steps {a : Entry Carried ℚ Sample} (h : a ∈ c.steps) :
    ∃ i : ℕ, a = execute c.body (c.before i) (i * c.dt) := by
  unfold steps at h
  rw [t_eq, history_map_range] at h
  obtain ⟨i, -, rfl⟩ := List.mem_map.mp h
  exact ⟨i, rfl⟩

/-- The loop reaches the first step after the partition. -/
theorem ceil_lt_length (hc : c.Regular) (h : c.healed ≤ c.horizon) :
    ⌈c.healed / c.dt⌉₊ < c.length := by
  have hhealed : 0 ≤ c.healed := add_nonneg hc.pStart_nonneg hc.pDur_nonneg
  obtain ⟨-, hfirst, -⟩ := first_grid hc.dt_pos hhealed
  apply Nat.lt_ceil.mpr
  rw [lt_div_iff₀ hc.dt_pos]
  linarith

/-- A recovery time stays as it was recorded. -/
theorem recoveryTime_stable {i n : ℕ} {x : ℚ} (h : (c.before (i + 1)).recoveryTime = some x)
    (hlt : i < n) : (c.before n).recoveryTime = some x :=
  stateAt_stable (P := fun s : Carried => s.recoveryTime = some x) h
    (fun _ _ hs => attempt_recoveryTime_of_some hs) hlt

/-- Peak staleness is bounded by the duration of the partition and one cadence. -/
theorem peakStale_lt (hc : c.Regular) : c.finish.peakStale < c.pDur + c.anchorMin := by
  have hpeak : ∀ n, c.Cadence n (c.before n) ∧
      (c.before n).peakStale < c.pDur + c.anchorMin := by
    intro n
    refine stateAt_invariant (P := fun n s => c.Cadence n s ∧ s.peakStale < c.pDur + c.anchorMin)
      ⟨cadence_start hc, ?_⟩ ?_ n
    · exact add_pos_of_nonneg_of_pos hc.pDur_nonneg hc.anchorMin_pos
    · rintro n s ⟨h, hlt⟩
      have hkeep : (c.attempt (n * c.dt) s).peakStale = s.peakStale := by
        unfold attempt
        split_ifs <;> rfl
      refine ⟨h.body hc, max_lt ?_ (h.sample hc).1⟩
      rwa [hkeep]
  rw [finish_eq]
  exact (hpeak c.length).2

end Run

/-- Staleness stays within the partition's duration and one cadence, and within the cadence
alone when connected; the backlog is what came in since the last anchor. After a partition of
at least a cadence the first step anchors, so recovery takes less than a step. -/
theorem partition_recovery (c : Partition) (hc : c.Regular) :
    (∀ a ∈ c.steps, a.output.staleness < c.pDur + c.anchorMin ∧
      (¬ c.Partitioned a.input → a.output.staleness < c.anchorMin) ∧
      a.output.backlog = c.eventRate * (a.output.staleness + c.dt)) ∧
    (c.anchorMin ≤ c.pDur → c.healed ≤ c.horizon → ∃ pre a post,
      c.steps = pre ++ a :: post ∧ (∀ b ∈ pre, b.input < c.healed) ∧ c.healed ≤ a.input ∧
      c.Anchors a.input a.before ∧ a.after.lastAnchor = a.input ∧
      c.finish.recoveryTime = some (a.input - c.healed) ∧ a.input - c.healed < c.dt) := by
  constructor
  · intro a ha
    obtain ⟨i, rfl⟩ := mem_steps ha
    exact (cadence_before hc i).sample hc
  · intro hdur hreach
    have hhealed : 0 ≤ c.healed := add_nonneg hc.pStart_nonneg hc.pDur_nonneg
    obtain ⟨hge, hlt, hearlier⟩ := first_grid hc.dt_pos hhealed
    have hin := ceil_lt_length hc hreach
    obtain ⟨ha, hrecovery⟩ := (unhealed_before hc _).anchors hdur hge hlt
    obtain ⟨post, hsplit⟩ := history_split c.body (fun i : ℕ => (i : ℚ) * c.dt) start hin
    refine ⟨_, _, post, (congrArg _ c.t_eq).trans hsplit, ?_, hge, ha,
      (attempt_of_anchors ha).1, ?_, ?_⟩
    · intro b hb
      rw [history_map_range] at hb
      obtain ⟨i, hi, rfl⟩ := List.mem_map.mp hb
      exact hearlier i (List.mem_range.mp hi)
    · rw [finish_eq]
      exact recoveryTime_stable hrecovery hin
    · show (⌈c.healed / c.dt⌉₊ : ℚ) * c.dt - c.healed < c.dt
      linarith

/-- The constants of the simulation. -/
def simulated : Partition := ⟨5, 20, 120, 30, 30, 1 / 4⟩

theorem regular_simulated : simulated.Regular where
  dt_pos := by norm_num [simulated]
  anchorMin_pos := by norm_num [simulated]
  whole := ⟨20, by norm_num [simulated]⟩
  pStart_nonneg := by norm_num [simulated]
  pDur_nonneg := by norm_num [simulated]

/-- Half an hour of partition costs less than 35 minutes of staleness. -/
theorem partition_recovery_simulated :
    (∀ a ∈ simulated.steps, a.output.staleness < 35) ∧
      ∃ recovery, simulated.finish.recoveryTime = some recovery ∧ recovery < 1 / 4 := by
  obtain ⟨hstale, hrecovery⟩ := partition_recovery simulated regular_simulated
  obtain ⟨-, a, -, -, -, -, -, -, hfinish, hlt⟩ :=
    hrecovery (by norm_num [simulated]) (by norm_num [simulated, healed])
  constructor
  · intro a ha
    have hlt := (hstale a ha).1
    norm_num [simulated] at hlt
    exact hlt
  · exact ⟨_, hfinish, hlt⟩

end Partition

end Traceability.Simulation
