import Traceability.Machine.Run
import Mathlib.Data.List.Forall2

/-! Itineraries. A position of the state moves on by one exactly when the input meets the
demand of that position. How far a run gets is then a question about its inputs alone: the
demands met are the ones that can be picked from them in order. -/
namespace Traceability.Machine
open List

variable {σ ι ο : Type*} {step : ι → σ → ο × σ}

/-- The machine moves along the demands, one at a time. -/
structure Travels (step : ι → σ → ο × σ) (position : σ → ℕ) (demand : ℕ → ι → Prop) : Prop where
  move : ∀ s i, demand (position s) i → position (step i s).2 = position s + 1
  stay : ∀ s i, ¬ demand (position s) i → position (step i s).2 = position s

variable {position : σ → ℕ} {demand : ℕ → ι → Prop}

theorem Travels.position_le_run (h : Travels step position demand) (s : σ) (is : List ι) :
    position s ≤ position (run step s is) := by
  refine run_rel step (R := fun s t => position s ≤ position t) (fun _ => Nat.le_refl _)
    Nat.le_trans ?_ s is
  intro s i
  by_cases hi : demand (position s) i
  · rw [h.move s i hi]
    omega
  · exact Nat.le_of_eq (h.stay s i hi).symm

/-- A demand that the next input does not meet is left to the inputs after it. -/
theorem sublistForall₂_cons_right_iff {d : ℕ} {i : ι} (hi : ¬ demand d i) {ds : List ℕ}
    {is : List ι} :
    SublistForall₂ demand (d :: ds) (i :: is) ↔ SublistForall₂ demand (d :: ds) is := by
  constructor
  · intro h
    cases h with
    | cons hmet _ => exact absurd hmet hi
    | cons_right h => exact h
  · exact .cons_right

/-- It never hurts to meet a demand with the first input that can. -/
theorem sublistForall₂_cons_iff {d : ℕ} {i : ι} (hi : demand d i) {ds : List ℕ} {is : List ι} :
    SublistForall₂ demand (d :: ds) (i :: is) ↔ SublistForall₂ demand ds is := by
  constructor
  · intro h
    cases h with
    | cons _ h => exact h
    | cons_right h =>
      obtain ⟨js, hjs, hsub⟩ := sublistForall₂_iff.mp h
      cases hjs with
      | cons _ hrest => exact sublistForall₂_iff.mpr ⟨_, hrest, (sublist_cons_self _ _).trans hsub⟩
  · exact .cons hi

/-- A run gets `k` demands further exactly when its inputs meet the next `k` in order, with
any other inputs in between. -/
theorem Travels.reaches_iff (h : Travels step position demand) (s : σ) (is : List ι) (k : ℕ) :
    position s + k ≤ position (run step s is) ↔
      SublistForall₂ demand (List.range' (position s) k) is := by
  induction is generalizing s k with
  | nil =>
    cases k with
    | zero => simpa using SublistForall₂.nil
    | succ k =>
      constructor
      · intro hle
        rw [run_nil] at hle
        omega
      · intro hsub
        cases hsub
  | cons i is ih =>
    cases k with
    | zero =>
      constructor
      · intro _
        exact .nil
      · intro _
        exact h.position_le_run s (i :: is)
    | succ k =>
      rw [run_cons, List.range'_succ]
      by_cases hi : demand (position s) i
      · have hmove := h.move s i hi
        rw [sublistForall₂_cons_iff hi, ← hmove, ← ih, hmove]
        omega
      · have hstay := h.stay s i hi
        rw [sublistForall₂_cons_right_iff hi, ← List.range'_succ, ← hstay, ← ih]

/-- Inputs that stand for others meet the demands in their place. -/
theorem sublistForall₂_trans {ι' : Type*} {stands : ι → ι' → Prop} {demand' : ℕ → ι' → Prop}
    (hstands : ∀ d i j, stands i j → demand d i → demand' d j) {ds : List ℕ} {is : List ι}
    {js : List ι'} (hmet : SublistForall₂ demand ds is) (h : SublistForall₂ stands is js) :
    SublistForall₂ demand' ds js := by
  induction h generalizing ds with
  | nil =>
    cases hmet
    exact .nil
  | cons hij _ ih =>
    cases hmet with
    | nil => exact .nil
    | cons hd hrest => exact .cons (hstands _ _ _ hij hd) (ih hrest)
    | cons_right hrest => exact .cons_right (ih hrest)
  | cons_right _ ih => exact .cons_right (ih hmet)

/-- More inputs and a later start never leave the traveller behind, even when the other
run is made by another machine, whose inputs stand for those of the first. -/
theorem Travels.position_mono {σ' ι' ο' : Type*} {step' : ι' → σ' → ο' × σ'} {position' : σ' → ℕ}
    {demand' : ℕ → ι' → Prop} {stands : ι → ι' → Prop}
    (h : Travels step position demand) (h' : Travels step' position' demand')
    (hstands : ∀ d i j, stands i j → demand d i → demand' d j) {s : σ} {t : σ'}
    {is : List ι} {js : List ι'} (hst : position s ≤ position' t)
    (hsub : SublistForall₂ stands is js) :
    position (run step s is) ≤ position' (run step' t js) := by
  have hs := h.position_le_run s is
  have ht := h'.position_le_run t js
  by_cases hle : position (run step s is) ≤ position' t
  · exact Nat.le_trans hle ht
  · obtain ⟨a, ha⟩ := Nat.exists_eq_add_of_le hst
    obtain ⟨k, hk⟩ := Nat.exists_eq_add_of_le (Nat.le_of_not_le hle)
    have hmet : SublistForall₂ demand (List.range' (position s) (a + k)) is := by
      apply (h.reaches_iff s is (a + k)).mp
      omega
    obtain ⟨zs, hzs, hzsub⟩ := sublistForall₂_iff.mp (sublistForall₂_trans hstands hmet hsub)
    have hrest : SublistForall₂ demand' (List.range' (position' t) k) js := by
      refine sublistForall₂_iff.mpr ⟨zs.drop a, ?_, (drop_sublist a zs).trans hzsub⟩
      have hdrop := forall₂_drop a hzs
      rwa [List.drop_range', Nat.add_sub_cancel_left, Nat.mul_one, ← ha] at hdrop
    have hreach := (h'.reaches_iff t js k).mpr hrest
    omega

end Traceability.Machine
