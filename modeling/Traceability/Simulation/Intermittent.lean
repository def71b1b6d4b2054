import Mathlib.Probability.Distributions.Exponential
import Mathlib.Analysis.SpecialFunctions.Exp

/-! Admission under intermittent connectivity, as `exp_connectivity` and the validation figure
model it. Readings of a connected period are admitted, readings of an outage when the rest of
the outage is within the window; outages are memoryless. -/
namespace Traceability.Simulation
open ProbabilityTheory

/-- The fraction of time a device is connected. -/
noncomputable def onFrac (meanOn meanOff : ℝ) : ℝ := meanOn / (meanOn + meanOff)

/-- `admitted`, for one mean outage and one window. -/
noncomputable def admittedModel (meanOn meanOff w : ℝ) : ℝ :=
  let on := onFrac meanOn meanOff
  let off := 1 - on
  on + off * (1 - Real.exp (-w / meanOff))

/-- `model` of the validation figure, in percent; its mean connected period is 15 minutes. -/
noncomputable def model (offMin wMin : ℝ) : ℝ :=
  let on := 15 / (15 + offMin)
  (on + (1 - on) * (1 - Real.exp (-wMin / offMin))) * 100

theorem model_eq (offMin wMin : ℝ) : model offMin wMin = admittedModel 15 offMin wMin * 100 := rfl

section Shape
variable {meanOn : ℝ} (hon : 0 < meanOn)
include hon

/-- What is not admitted: a reading of an outage that has more than the window left. -/
theorem one_sub_admittedModel {meanOff : ℝ} (hoff : 0 < meanOff) (w : ℝ) :
    1 - admittedModel meanOn meanOff w =
      meanOff / (meanOn + meanOff) * Real.exp (-w / meanOff) := by
  have hsum : meanOn + meanOff ≠ 0 := (add_pos hon hoff).ne'
  have hoffFrac : 1 - onFrac meanOn meanOff = meanOff / (meanOn + meanOff) := by
    unfold onFrac
    rw [eq_div_iff hsum, sub_mul, div_mul_cancel₀ _ hsum]
    ring
  unfold admittedModel
  dsimp only
  rw [hoffFrac]
  linarith [hoffFrac]

theorem offFrac_pos {meanOff : ℝ} (hoff : 0 < meanOff) : 0 < meanOff / (meanOn + meanOff) :=
  div_pos hoff (add_pos hon hoff)

/-- Longer outages take a larger part of the time. -/
theorem offFrac_lt {meanOff meanOff' : ℝ} (hoff : 0 < meanOff) (hlt : meanOff < meanOff') :
    meanOff / (meanOn + meanOff) < meanOff' / (meanOn + meanOff') := by
  have hoff' : 0 < meanOff' := hoff.trans hlt
  rw [div_lt_div_iff₀ (add_pos hon hoff) (add_pos hon hoff')]
  nlinarith

theorem admittedModel_strictMono {meanOff : ℝ} (hoff : 0 < meanOff) :
    StrictMono (admittedModel meanOn meanOff) := by
  intro w w' hlt
  have hexp : Real.exp (-w' / meanOff) < Real.exp (-w / meanOff) := by
    rw [Real.exp_lt_exp]
    gcongr
  have hmissed := one_sub_admittedModel hon hoff w
  have hmissed' := one_sub_admittedModel hon hoff w'
  have hmul := mul_lt_mul_of_pos_left hexp (offFrac_pos hon hoff)
  linarith

theorem admittedModel_strictAntiOn {w : ℝ} (hw : 0 < w) :
    StrictAntiOn (fun meanOff => admittedModel meanOn meanOff w) (Set.Ioi 0) := by
  intro meanOff hoff meanOff' hoff' hlt
  have hexp : Real.exp (-w / meanOff) < Real.exp (-w / meanOff') := by
    rw [Real.exp_lt_exp, neg_div, neg_div, neg_lt_neg_iff]
    exact div_lt_div_of_pos_left hw hoff hlt
  have hmissed := one_sub_admittedModel hon hoff w
  have hmissed' := one_sub_admittedModel hon hoff' w
  have hmul : meanOff / (meanOn + meanOff) * Real.exp (-w / meanOff) <
      meanOff' / (meanOn + meanOff') * Real.exp (-w / meanOff') :=
    mul_lt_mul'' (offFrac_lt hon hoff hlt) hexp (offFrac_pos hon hoff).le (Real.exp_pos _).le
  show admittedModel meanOn meanOff' w < admittedModel meanOn meanOff w
  linarith

/-- The formula means what it is derived from: connected readings, and of the others those whose
exponential wait is within the window. It lies between the connected fraction and one, and rises
with the window and falls with the outages, so the curves of the figure never meet. -/
theorem admittedModel_law :
    (∀ meanOff w, 0 < meanOff → 0 ≤ w →
      admittedModel meanOn meanOff w = onFrac meanOn meanOff +
        (1 - onFrac meanOn meanOff) * cdf (expMeasure (1 / meanOff)) w ∧
      onFrac meanOn meanOff ≤ admittedModel meanOn meanOff w ∧
      admittedModel meanOn meanOff w < 1) ∧
    (∀ meanOff, 0 < meanOff → StrictMono (admittedModel meanOn meanOff)) ∧
    ∀ w, 0 < w → StrictAntiOn (fun meanOff => admittedModel meanOn meanOff w) (Set.Ioi 0) := by
  refine ⟨fun meanOff w hoff hw => ⟨?_, ?_, ?_⟩, fun _ => admittedModel_strictMono hon,
    fun _ => admittedModel_strictAntiOn hon⟩
  · have hexponent : -(1 / meanOff * w) = -w / meanOff := by ring
    rw [cdf_expMeasure_eq (one_div_pos.mpr hoff), if_pos hw, hexponent]
    rfl
  · have hzero : admittedModel meanOn meanOff 0 = onFrac meanOn meanOff := by
      simp [admittedModel]
    rw [← hzero]
    exact (admittedModel_strictMono hon hoff).monotone hw
  · have hmissed := one_sub_admittedModel hon hoff w
    have hpos := mul_pos (offFrac_pos hon hoff) (Real.exp_pos (-w / meanOff))
    linarith

end Shape

/-- The curves of the validation figure. -/
theorem admittedModel_law_figure : model 20 15 < model 20 60 ∧ model 40 15 < model 20 15 := by
  obtain ⟨-, hwindow, houtage⟩ := admittedModel_law (show (0 : ℝ) < 15 by norm_num)
  have hwider := hwindow 20 (by norm_num) (show (15 : ℝ) < 60 by norm_num)
  have hlonger := houtage 15 (by norm_num) (show (20 : ℝ) ∈ Set.Ioi 0 by norm_num)
    (show (40 : ℝ) ∈ Set.Ioi 0 by norm_num) (by norm_num)
  dsimp only at hlonger
  rw [model_eq, model_eq, model_eq]
  constructor <;> linarith

end Traceability.Simulation
