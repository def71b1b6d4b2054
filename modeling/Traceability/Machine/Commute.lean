import Traceability.Machine.Run
import Mathlib.Data.List.FinRange
import Mathlib.Data.List.Perm.Subperm
import Mathlib.Data.List.Sort

/-! Reordering a run. Inputs that commute from every state may trade places; hence two runs
over the same inputs agree whenever they order the inputs that do not commute alike. States
are compared up to a relation, and outputs input by input. -/
namespace Traceability.Machine

variable {σ ι ο κ : Type*}

/-- Related states give equal outputs and related successors. -/
structure Respects (step : ι → σ → ο × σ) (R : σ → σ → Prop) : Prop where
  output : ∀ {s t} i, R s t → (step i s).1 = (step i t).1
  after : ∀ {s t} i, R s t → R (step i s).2 (step i t).2

/-- Neither input changes the other's output, and both orders lead to related states. -/
structure Commutes (step : ι → σ → ο × σ) (R : σ → σ → Prop) (i j : ι) : Prop where
  left : ∀ s, (step i (step j s).2).1 = (step i s).1
  right : ∀ s, (step j (step i s).2).1 = (step j s).1
  after : ∀ s, R (step j (step i s).2).2 (step i (step j s).2).2

variable (step : ι → σ → ο × σ) (input : κ → ι)

/-- A run over labelled inputs, with the output that each label received. -/
def outcomes (s : σ) : List κ → List (κ × ο)
  | [] => []
  | k :: ks => (k, (step (input k) s).1) :: outcomes (step (input k) s).2 ks

theorem outcomes_eq_zip (s : σ) (ks : List κ) :
    outcomes step input s ks =
      ks.zip ((history step s (ks.map input)).map Entry.output) := by
  induction ks generalizing s with
  | nil => rfl
  | cons k ks ih => simp [outcomes, ih]

variable {step} {R : σ → σ → Prop}

theorem outcomes_congr (hR : Respects step R) {s t : σ} (h : R s t) (ks : List κ) :
    outcomes step input s ks = outcomes step input t ks ∧
      R (run step s (ks.map input)) (run step t (ks.map input)) := by
  induction ks generalizing s t with
  | nil => exact ⟨rfl, h⟩
  | cons k ks ih =>
    obtain ⟨houtcomes, hrun⟩ := ih (hR.after (input k) h)
    exact ⟨by rw [outcomes, outcomes, houtcomes, hR.output (input k) h], hrun⟩

/-- A label moves to the front past labels whose inputs commute with its own. -/
theorem outcomes_move (hR : Respects step R) (hequiv : Equivalence R) {k : κ} {front : List κ}
    (hcomm : ∀ a ∈ front, Commutes step R (input a) (input k)) (rest : List κ) (s : σ) :
    (outcomes step input s (front ++ k :: rest)).Perm
        (outcomes step input s (k :: (front ++ rest))) ∧
      R (run step s ((front ++ k :: rest).map input))
        (run step s ((k :: (front ++ rest)).map input)) := by
  induction front generalizing s with
  | nil => exact ⟨.refl _, hequiv.refl _⟩
  | cons a front ih =>
    have hak := hcomm a List.mem_cons_self
    obtain ⟨hperm, hrun⟩ := ih (fun b hb => hcomm b (List.mem_cons_of_mem a hb))
      (step (input a) s).2
    obtain ⟨hswap, hswapRun⟩ := outcomes_congr input hR (hak.after s) (front ++ rest)
    constructor
    · apply (hperm.cons (a, (step (input a) s).1)).trans
      simp only [outcomes, List.cons_append]
      rw [hak.right s, hak.left s, hswap]
      exact .swap _ _ _
    · exact hequiv.trans hrun hswapRun

/-- What comes after the only `k` of a list comes in the part that `k` opens. -/
theorem mem_of_pair_sublist {k a : κ} {front rest : List κ} (hfront : k ∉ front)
    (h : [k, a].Sublist (front ++ k :: rest)) : a ∈ k :: rest := by
  obtain ⟨l₁, l₂, hl, h₁, h₂⟩ := List.sublist_append_iff.mp h
  cases l₁ with
  | nil =>
    rw [List.nil_append] at hl
    exact (hl ▸ h₂).subset (by simp)
  | cons b l₁ =>
    obtain rfl : k = b := (List.cons.inj hl).1
    exact absurd (h₁.subset List.mem_cons_self) hfront

/-- Two orders of the same labels that agree on the labels whose inputs do not commute give
every label the same output and end in related states. -/
theorem outcomes_perm [DecidableEq κ] (hR : Respects step R) (hequiv : Equivalence R)
    {ks ks' : List κ} (hnodup : ks.Nodup) (hperm : ks'.Perm ks)
    (hkeep : ∀ a b, [a, b].Sublist ks → ¬ Commutes step R (input b) (input a) →
      [a, b].Sublist ks') (s : σ) :
    (outcomes step input s ks').Perm (outcomes step input s ks) ∧
      R (run step s (ks'.map input)) (run step s (ks.map input)) := by
  induction ks generalizing s ks' with
  | nil =>
    obtain rfl := hperm.eq_nil
    exact ⟨.refl _, hequiv.refl _⟩
  | cons k ks ih =>
    obtain ⟨hk, hnodup⟩ := List.nodup_cons.mp hnodup
    have hnodup' : ks'.Nodup := hperm.nodup_iff.mpr (List.nodup_cons.mpr ⟨hk, hnodup⟩)
    obtain ⟨front, rest, rfl⟩ := List.append_of_mem (hperm.mem_iff.mpr List.mem_cons_self)
    have hfront : k ∉ front := fun hmem =>
      (List.nodup_append.mp hnodup').2.2 k hmem k List.mem_cons_self rfl
    have herase : (front ++ k :: rest).erase k = front ++ rest := by
      rw [List.erase_append_right _ hfront, List.erase_cons_head]
    -- a label in front of `k` that did not commute with it would still come after it
    have hcomm : ∀ a ∈ front, Commutes step R (input a) (input k) := by
      intro a ha
      by_contra hno
      have hak : a ≠ k := fun h => hfront (h ▸ ha)
      have hmem : a ∈ ks := by
        have hmem' := hperm.mem_iff.mp (List.mem_append_left _ ha)
        exact (List.mem_cons.mp hmem').resolve_left hak
      have hsub := hkeep k a ((List.singleton_sublist.mpr hmem).cons_cons k) hno
      have ha' := mem_of_pair_sublist hfront hsub
      exact (List.nodup_append.mp hnodup').2.2 a ha a ha' rfl
    obtain ⟨hmove, hmoveRun⟩ := outcomes_move input hR hequiv hcomm rest s
    have hperm' : (front ++ rest).Perm ks := by
      rw [← herase]
      simpa using hperm.erase k
    have hkeep' : ∀ a b, [a, b].Sublist ks → ¬ Commutes step R (input b) (input a) →
        [a, b].Sublist (front ++ rest) := by
      intro a b hsub hno
      have hmem := hsub.subset
      have ha : a ≠ k := fun h => hk (h ▸ hmem (by simp))
      have hb : b ≠ k := fun h => hk (h ▸ hmem (by simp))
      have hsub' := (hkeep a b (hsub.cons k) hno).erase k
      rwa [herase, List.erase_of_not_mem (by simp [ha.symm, hb.symm])] at hsub'
    obtain ⟨hrest, hrestRun⟩ := ih hnodup hperm' hkeep' (step (input k) s).2
    exact ⟨hmove.trans (hrest.cons _), hequiv.trans hmoveRun hrestRun⟩

/-- The outputs of a run, in order. -/
def outputs (step : ι → σ → ο × σ) (s : σ) (is : List ι) : List ο :=
  (history step s is).map Entry.output

theorem pair_sublist_finRange {n : ℕ} {i j : Fin n} :
    [i, j].Sublist (List.finRange n) ↔ i < j := by
  constructor
  · intro h
    exact List.rel_of_pairwise_cons ((List.pairwise_lt_finRange n).sublist h) (by simp)
  · intro h
    have hnodup : [i, j].Nodup := by simp [h.ne]
    refine List.sublist_of_subperm_of_sortedLE (List.Nodup.subperm hnodup ?_) ?_ ?_
    · exact fun k _ => List.mem_finRange k
    · exact List.Pairwise.sortedLE (by simp [h.le])
    · exact ((List.pairwise_lt_finRange n).imp le_of_lt).sortedLE

/-- Outputs that agree label by label are permuted as the labels are. -/
theorem getElem?_of_zip_perm {n : ℕ} {π : Equiv.Perm (Fin n)} {outs outs' : List ο}
    (hlen : outs'.length = n)
    (hperm : (((List.finRange n).map π).zip outs').Perm ((List.finRange n).zip outs)) (p : Fin n) :
    outs'[p.val]? = outs[(π p).val]? := by
  have hp : p.val < outs'.length := hlen.symm ▸ p.isLt
  rw [List.getElem?_eq_getElem hp]
  have hmem : (π p, outs'[p.val]) ∈ ((List.finRange n).map π).zip outs' := by
    refine List.mem_iff_getElem?.mpr ⟨p.val, ?_⟩
    simp [List.getElem?_zip_eq_some]
  obtain ⟨q, hq⟩ := List.mem_iff_getElem?.mp (hperm.subset hmem)
  obtain ⟨hlabel, hout⟩ := List.getElem?_zip_eq_some.mp hq
  have hqp : q = (π p).val := by
    obtain ⟨hlt, heq⟩ := List.getElem?_eq_some_iff.mp hlabel
    rw [List.getElem_finRange] at heq
    simpa using congrArg Fin.val heq
  rw [← hqp]
  exact hout.symm

/-- A permutation of a run that keeps the order of the inputs that do not commute gives
each input the output it had, and ends in a related state. -/
theorem run_perm {R : σ → σ → Prop} (hR : Respects step R) (hequiv : Equivalence R)
    (is : List ι) (π : Equiv.Perm (Fin is.length))
    (hkeep : ∀ i j, i < j → ¬ Commutes step R (is.get j) (is.get i) → π.symm i < π.symm j)
    (s : σ) :
    R (run step s (List.ofFn fun p => is.get (π p))) (run step s is) ∧
      ∀ p, (outputs step s (List.ofFn fun p => is.get (π p)))[p.val]? =
        (outputs step s is)[(π p).val]? := by
  have hks : (List.finRange is.length).map is.get = is := List.map_get_finRange is
  have hks' : ((List.finRange is.length).map π).map is.get =
      List.ofFn fun p => is.get (π p) := by
    rw [List.map_map, List.ofFn_eq_map]
    rfl
  obtain ⟨hperm, hrun⟩ := outcomes_perm is.get hR hequiv
    (List.nodup_finRange is.length) (Equiv.Perm.map_finRange_perm π) (fun a b hsub hno => by
      have hlt := hkeep a b (pair_sublist_finRange.mp hsub) hno
      simpa using (pair_sublist_finRange.mpr hlt).map π) s
  rw [hks, hks'] at hrun
  rw [outcomes_eq_zip, outcomes_eq_zip, hks, hks'] at hperm
  exact ⟨hrun, getElem?_of_zip_perm (by simp [outputs]) hperm⟩

end Traceability.Machine
