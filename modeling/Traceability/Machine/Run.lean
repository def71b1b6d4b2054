import Mathlib.Data.List.Induction

/-! Runs of a deterministic machine. A machine is its step function, which takes an
input and a state to an output and the next state; a run folds a list of inputs, and
its history keeps every step with the states around it. -/
namespace Traceability.Machine

/-- One executed input, the output it gave and the states before and after it. -/
structure Entry (σ ι ο : Type*) where
  before : σ
  input : ι
  output : ο
  after : σ

variable {σ ι ο : Type*} (step : ι → σ → ο × σ)

def execute (s : σ) (i : ι) : Entry σ ι ο := ⟨s, i, (step i s).1, (step i s).2⟩

@[simp] theorem execute_before (s : σ) (i : ι) : (execute step s i).before = s := rfl
@[simp] theorem execute_input (s : σ) (i : ι) : (execute step s i).input = i := rfl
@[simp] theorem execute_output (s : σ) (i : ι) : (execute step s i).output = (step i s).1 := rfl
@[simp] theorem execute_after (s : σ) (i : ι) : (execute step s i).after = (step i s).2 := rfl

def run (s : σ) (is : List ι) : σ := is.foldl (fun s i => (step i s).2) s

def history (s : σ) : List ι → List (Entry σ ι ο)
  | [] => []
  | i :: is => execute step s i :: history (step i s).2 is

@[simp] theorem run_nil (s : σ) : run step s [] = s := rfl

@[simp] theorem run_cons (s : σ) (i : ι) (is : List ι) :
    run step s (i :: is) = run step (step i s).2 is := rfl

@[simp] theorem run_append (s : σ) (is js : List ι) :
    run step s (is ++ js) = run step (run step s is) js := by
  simp [run]

@[simp] theorem history_nil (s : σ) : history step s [] = [] := rfl

@[simp] theorem history_cons (s : σ) (i : ι) (is : List ι) :
    history step s (i :: is) = execute step s i :: history step (step i s).2 is := rfl

@[simp] theorem history_append (s : σ) (is js : List ι) :
    history step s (is ++ js) = history step s is ++ history step (run step s is) js := by
  induction is generalizing s with
  | nil => rfl
  | cons i is ih => simp [ih]

@[simp] theorem length_history (s : σ) (is : List ι) : (history step s is).length = is.length := by
  induction is generalizing s with
  | nil => rfl
  | cons i is ih => simp [ih]

/-- What holds at the start and survives one more step holds of every run and its history. -/
theorem history_induction {P : List (Entry σ ι ο) → σ → Prop} {s : σ} (start : P [] s)
    (next : ∀ is i, P (history step s is) (run step s is) →
      P (history step s is ++ [execute step (run step s is) i]) (step i (run step s is)).2)
    (is : List ι) : P (history step s is) (run step s is) := by
  induction is using List.reverseRecOn with
  | nil => exact start
  | append_singleton is i ih => simpa using next is i ih

/-- The invariant rule, for invariants that do not mention the history. -/
theorem run_invariant {P : σ → Prop} {s : σ} (start : P s)
    (next : ∀ t i, P t → P (step i t).2) (is : List ι) : P (run step s is) :=
  history_induction step (P := fun _ t => P t) start (fun is i => next (run step s is) i) is

/-- The invariant rule for the inputs of one run, at every state it passes through. -/
theorem before_invariant {P : σ → Prop} {s : σ} {is : List ι} (start : P s)
    (next : ∀ t, ∀ i ∈ is, P t → P (step i t).2) : ∀ a ∈ history step s is, P a.before := by
  induction is generalizing s with
  | nil => exact List.forall_mem_nil _
  | cons i is ih =>
    have hstep : P (step i s).2 := next s i List.mem_cons_self start
    have hrest := ih hstep fun t j hj => next t j (List.mem_cons_of_mem i hj)
    exact List.forall_mem_cons.mpr ⟨start, hrest⟩

/-- Inputs whose steps change nothing can be deleted without a trace. -/
theorem history_filter_idle (keep : ι → Bool) {s : σ} {is : List ι}
    (idle : ∀ a ∈ history step s is, keep a.input = false → a.after = a.before) :
    run step s (is.filter keep) = run step s is ∧
      history step s (is.filter keep) = (history step s is).filter fun a => keep a.input := by
  induction is generalizing s with
  | nil => exact ⟨rfl, rfl⟩
  | cons i is ih =>
    obtain ⟨hfirst, hrest⟩ := List.forall_mem_cons.mp idle
    obtain ⟨hrun, hhistory⟩ := ih hrest
    cases hi : keep i with
    | false =>
      have hafter : (step i s).2 = s := hfirst hi
      rw [hafter] at hrun hhistory
      simp [hi, hrun, hhistory, hafter]
    | true => simp [hi, hrun, hhistory]

/-- A reflexive and transitive relation that every step respects relates a run's ends. -/
theorem run_rel {R : σ → σ → Prop} (refl : ∀ s, R s s)
    (trans : ∀ {s t u}, R s t → R t u → R s u) (next : ∀ s i, R s (step i s).2)
    (s : σ) (is : List ι) : R s (run step s is) :=
  run_invariant step (P := R s) (refl s) (fun t i h => trans h (next t i)) is

/-- Splitting a history splits the inputs at the same place. -/
theorem history_eq_append_cons {s : σ} {is : List ι} {h₁ h₂ : List (Entry σ ι ο)}
    {a : Entry σ ι ο} (h : history step s is = h₁ ++ a :: h₂) :
    ∃ pre post, is = pre ++ a.input :: post ∧ h₁ = history step s pre ∧
      a = execute step (run step s pre) a.input ∧ h₂ = history step a.after post := by
  induction is generalizing s h₁ with
  | nil => simp at h
  | cons i is ih =>
    cases h₁ with
    | nil =>
      obtain ⟨ha, ht⟩ := List.cons.inj h
      subst ha
      exact ⟨[], is, rfl, rfl, rfl, ht.symm⟩
    | cons b h₁ =>
      obtain ⟨hb, ht⟩ := List.cons.inj h
      obtain ⟨pre, post, hi, hp, ha, hs⟩ := ih ht
      exact ⟨i :: pre, post, by simp [hi], by rw [history_cons, hb, hp], ha, hs⟩

/-- Each entry of a history is a step taken at the state its prefix reaches. -/
theorem mem_history {s : σ} {is : List ι} {a : Entry σ ι ο} (h : a ∈ history step s is) :
    ∃ pre post, is = pre ++ a.input :: post ∧ a = execute step (run step s pre) a.input := by
  obtain ⟨h₁, h₂, hh⟩ := List.append_of_mem h
  obtain ⟨pre, post, hi, -, ha, -⟩ := history_eq_append_cons step hh
  exact ⟨pre, post, hi, ha⟩

theorem step_of_mem_history {s : σ} {is : List ι} {a : Entry σ ι ο} (h : a ∈ history step s is) :
    step a.input a.before = (a.output, a.after) := by
  obtain ⟨pre, post, -, ha⟩ := mem_history step h
  rw [ha]
  rfl

@[simp] theorem map_input_history (s : σ) (is : List ι) :
    (history step s is).map Entry.input = is := by
  induction is generalizing s with
  | nil => rfl
  | cons i is ih => simp [ih]

/-- Locality: inputs that do not touch a view of the state can be deleted from a run
without changing the view, provided the others act on the view alone. -/
theorem run_filter_view {ν : Type*} (view : σ → ν) (keep : ι → Bool)
    (skip : ∀ s i, keep i = false → view (step i s).2 = view s)
    (act : ∀ s t i, keep i = true → view s = view t → view (step i s).2 = view (step i t).2)
    {s t : σ} (is : List ι) (h : view s = view t) :
    view (run step s is) = view (run step t (is.filter keep)) := by
  induction is generalizing s t with
  | nil => exact h
  | cons i is ih =>
    cases hi : keep i with
    | false => simpa [hi] using ih ((skip s i hi).trans h)
    | true => simpa [hi] using ih (act s t i hi h)

/-- The machine on the states of an invariant that its steps keep. -/
def restrict {P : σ → Prop} (keep : ∀ s i, P s → P (step i s).2) (i : ι) (s : {s // P s}) :
    ο × {s // P s} :=
  ((step i s.val).1, ⟨(step i s.val).2, keep s.val i s.property⟩)

theorem run_restrict {P : σ → Prop} (keep : ∀ s i, P s → P (step i s).2) (s : {s // P s})
    (is : List ι) : (run (restrict step keep) s is).val = run step s.val is := by
  induction is generalizing s with
  | nil => rfl
  | cons i is ih => exact ih (restrict step keep i s).2

/-- A machine that computes with a view of the state answers with a view of the output. -/
theorem map_output_view {τ ο' : Type*} {step' : ι → τ → ο' × τ} (view : σ → τ) (out : ο → ο')
    (sim : ∀ i s, step' i (view s) = (out (step i s).1, view (step i s).2)) (s : σ)
    (is : List ι) : (history step' (view s) is).map Entry.output =
      (history step s is).map fun a => out a.output := by
  induction is generalizing s with
  | nil => rfl
  | cons i is ih =>
    have hstep := sim i s
    rw [history_cons, history_cons, List.map_cons, List.map_cons, hstep, ih]
    exact congrArg (· :: _) (congrArg Prod.fst hstep)

theorem map_output_restrict {P : σ → Prop} (keep : ∀ s i, P s → P (step i s).2)
    (s : {s // P s}) (is : List ι) :
    (history (restrict step keep) s is).map Entry.output =
      (history step s.val is).map Entry.output :=
  Eq.symm (map_output_view (restrict step keep) Subtype.val id (fun _ _ => rfl) s is)

/-- What an input and its output say, without the states around them. -/
def Entry.exchange (a : Entry σ ι ο) : ι × ο := (a.input, a.output)

/-- Locality of the answers: a deleted input is not missed by the inputs that act on the
view, which get the outputs they had. -/
theorem exchange_filter_view {ν : Type*} (view : σ → ν) (keep : ι → Bool)
    (skip : ∀ s i, keep i = false → view (step i s).2 = view s)
    (act : ∀ s t i, keep i = true → view s = view t →
      (step i s).1 = (step i t).1 ∧ view (step i s).2 = view (step i t).2)
    {s t : σ} (is : List ι) (h : view s = view t) :
    ((history step s is).filter fun a => keep a.input).map Entry.exchange =
      (history step t (is.filter keep)).map Entry.exchange := by
  induction is generalizing s t with
  | nil => rfl
  | cons i is ih =>
    cases hi : keep i with
    | false => simpa [hi] using ih ((skip s i hi).trans h)
    | true =>
      obtain ⟨hout, hview⟩ := act s t i hi h
      simpa [hi, Entry.exchange, hout] using ih hview

end Traceability.Machine
