import Traceability.Simulation.Partition

/-! The backlog of a partition. Events wait for the next anchor and are not lost, anchors keep
their distance, and the figure's own loop draws the staleness of the experiment. -/
namespace Traceability.Simulation
open Machine

namespace Partition
variable (c : Partition)

/-- The events that one step anchors. -/
def cleared (ti : ℚ) (s : Carried) : ℚ := if c.Anchors ti s then s.unanchored else 0

/-- A step adds what came in to the backlog, and takes from it what it anchors. -/
theorem body_balance (ti : ℚ) (s : Carried) : s.unanchored + c.eventRate * c.dt =
    (c.body ti s).2.unanchored + c.cleared ti s := by
  show _ = (c.attempt ti s).unanchored + c.eventRate * c.dt + _
  unfold cleared
  by_cases ha : c.Anchors ti s
  · rw [(attempt_of_anchors ha).2, if_pos ha]
    ring
  · rw [attempt_of_not_anchors ha, if_neg ha, add_zero]

theorem lastAnchor_le_body (hmin : 0 ≤ c.anchorMin) (ti : ℚ) (s : Carried) :
    s.lastAnchor ≤ (c.body ti s).2.lastAnchor := by
  show _ ≤ (c.attempt ti s).lastAnchor
  by_cases ha : c.Anchors ti s
  · rw [(attempt_of_anchors ha).1]
    have hcadence := ha.1
    linarith
  · rw [attempt_of_not_anchors ha]

/-- No anchor of a run comes within the cadence after its start. -/
theorem anchor_spacing_start (hmin : 0 ≤ c.anchorMin) (s : Carried) (times : List ℚ) :
    ∀ a ∈ history c.body s times, c.Anchors a.input a.before →
      c.anchorMin ≤ a.input - s.lastAnchor := by
  intro a ha hanchors
  obtain ⟨pre, post, -, heq⟩ := mem_history c.body ha
  have hbefore : a.before = run c.body s pre := by rw [heq, execute_before]
  have hle : s.lastAnchor ≤ (run c.body s pre).lastAnchor :=
    run_rel c.body (R := fun s t : Carried => s.lastAnchor ≤ t.lastAnchor) (fun _ => le_rfl)
      le_trans (fun s ti => c.lastAnchor_le_body hmin ti s) s pre
  have hcadence := hanchors.1
  rw [hbefore] at hcadence
  linarith

theorem anchor_spacing (hmin : 0 ≤ c.anchorMin) (s : Carried) (times : List ℚ) :
    (history c.body s times).Pairwise fun a b => c.Anchors a.input a.before →
      c.Anchors b.input b.before → c.anchorMin ≤ b.input - a.input := by
  induction times generalizing s with
  | nil => exact .nil
  | cons ti times ih =>
    rw [history_cons, List.pairwise_cons]
    refine ⟨fun b hb ha hanchors => ?_, ih _⟩
    have hlast : (c.body ti s).2.lastAnchor = ti := (attempt_of_anchors ha).1
    have hspacing := c.anchor_spacing_start hmin _ times b hb hanchors
    rwa [hlast] at hspacing

/-- Nothing is lost in a partition, however long: what came in during the run is what the
anchors cleared and what still waits. And the chain of anchors is never denser than the cadence,
also when it catches up. -/
theorem backlog_conserved (hmin : 0 ≤ c.anchorMin) :
    (c.steps.length : ℚ) * (c.eventRate * c.dt) =
      c.finish.unanchored + (c.steps.map fun a => c.cleared a.input a.before).sum ∧
    c.steps.Pairwise fun a b => c.Anchors a.input a.before → c.Anchors b.input b.before →
      c.anchorMin ≤ b.input - a.input := by
  constructor
  · have hbalance := run_balance c.body Carried.unanchored (fun _ => c.eventRate * c.dt)
      (fun a => c.cleared a.input a.before) (fun s ti => c.body_balance ti s) start c.t
    rw [List.map_const', List.sum_replicate, nsmul_eq_mul] at hbalance
    have hstart : start.unanchored = 0 := rfl
    rw [hstart, zero_add] at hbalance
    exact hbalance
  · exact c.anchor_spacing hmin start c.t

theorem backlog_conserved_simulated :
    (simulated.steps.length : ℚ) * 5 = simulated.finish.unanchored +
      (simulated.steps.map fun a => simulated.cleared a.input a.before).sum := by
  have hconserved := (backlog_conserved simulated (by norm_num [simulated])).1
  have hrate : simulated.eventRate * simulated.dt = 5 := by norm_num [simulated]
  rwa [hrate] at hconserved

section Figure

/-- The body of the loop of `staleness_series`, which carries the last anchor alone. -/
def seriesBody (ti last : ℚ) : ℚ × ℚ :=
  let last := if c.anchorMin ≤ ti - last ∧ ¬ c.Partitioned ti then ti else last
  (ti - last, last)

/-- The series of the figure, with the bounds of the partition. -/
def stalenessSeries : List ℚ × List ℚ × ℚ × ℚ :=
  (c.t, (history c.seriesBody 0 c.t).map Entry.output, c.pStart, c.healed)

theorem seriesBody_eq (ti : ℚ) (s : Carried) : c.seriesBody ti s.lastAnchor =
    ((c.body ti s).1.staleness, (c.body ti s).2.lastAnchor) := by
  have hlast : (if c.Anchors ti s then ti else s.lastAnchor) = (c.attempt ti s).lastAnchor := by
    by_cases ha : c.Anchors ti s
    · rw [(attempt_of_anchors ha).1, if_pos ha]
    · rw [attempt_of_not_anchors ha, if_neg ha]
  show (ti - (if c.Anchors ti s then ti else s.lastAnchor), if c.Anchors ti s then ti
    else s.lastAnchor) = (ti - (c.attempt ti s).lastAnchor, (c.attempt ti s).lastAnchor)
  rw [hlast]

/-- The figure draws the experiment: its shorter loop gives the staleness that the experiment
records, step by step, and its highest point is the peak that the experiment reports. -/
theorem stalenessSeries_eq :
    c.stalenessSeries = (c.t, c.steps.map fun a => a.output.staleness, c.pStart, c.healed) ∧
    c.finish.peakStale = (c.stalenessSeries.2.1).foldl max 0 := by
  have hseries : (history c.seriesBody 0 c.t).map Entry.output =
      c.steps.map fun a => a.output.staleness :=
    map_output_view c.body Carried.lastAnchor Sample.staleness (fun ti s => c.seriesBody_eq ti s)
      start c.t
  have hpeak (s : Carried) (times : List ℚ) : (run c.body s times).peakStale =
      ((history c.body s times).map fun a => a.output.staleness).foldl max s.peakStale := by
    induction times generalizing s with
    | nil => rfl
    | cons ti times ih =>
      have hkeep : (c.attempt ti s).peakStale = s.peakStale := by
        unfold attempt
        split_ifs <;> rfl
      have hstep : (c.body ti s).2.peakStale = max s.peakStale (c.body ti s).1.staleness := by
        show max (c.attempt ti s).peakStale _ = _
        rw [hkeep]
        rfl
      rw [run_cons, ih, hstep, history_cons, List.map_cons, List.foldl_cons]
      rfl
  constructor
  · unfold stalenessSeries
    rw [hseries]
  · unfold stalenessSeries
    rw [hseries]
    exact hpeak start c.t

end Figure

end Partition

end Traceability.Simulation
