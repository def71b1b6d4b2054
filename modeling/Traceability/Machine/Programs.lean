import Mathlib.Control.Monad.Basic
import Mathlib.Data.List.Forall2
import Mathlib.Logic.Function.Iterate

/-! Programs with effects: calls that a dispatch layer rolls back when they fail, loops whose
rounds may fail, and computations that draw from a generator. -/
namespace Traceability.Machine

/-! ### Transactions -/

section Transactions
variable {ε σ α β : Type}

/-- A program keeps its writes when it throws, and its dispatcher discards them: run `m` from
`s`; if it throws, the state becomes the checkpoint `s₀`. -/
def settle (s₀ : σ) (m : ExceptT ε (StateM σ) α) (s : σ) : Except ε α × σ :=
  match m.run.run s with
  | (.ok a, s') => (.ok a, s')
  | (.error e, _) => (.error e, s₀)

/-- A call is a transaction: its checkpoint is the state it starts in. -/
def transactional (m : ExceptT ε (StateM σ) α) (s : σ) : Except ε α × σ := settle s m s

def ensure (c : Bool) (e : ε) : ExceptT ε (StateM σ) Unit := if c then pure () else throw e

/-- The `?` operator. -/
def propagate : Except ε α → ExceptT ε (StateM σ) α
  | .ok a => pure a
  | .error e => throw e

def okOr (e : ε) : Option α → Except ε α
  | some a => .ok a
  | none => .error e

section Rules
variable (s₀ s : σ)

@[simp] theorem settle_pure (a : α) :
    settle s₀ (pure a : ExceptT ε (StateM σ) α) s = (.ok a, s) := rfl

@[simp] theorem settle_throw (e : ε) :
    settle s₀ (throw e : ExceptT ε (StateM σ) α) s = (.error e, s₀) := rfl

@[simp] theorem settle_get_bind (k : σ → ExceptT ε (StateM σ) β) :
    settle s₀ (get >>= k) s = settle s₀ (k s) s := rfl

@[simp] theorem settle_modify_bind (f : σ → σ) (k : Unit → ExceptT ε (StateM σ) β) :
    settle s₀ (modify f >>= k) s = settle s₀ (k ()) (f s) := rfl

@[simp] theorem settle_modify (f : σ → σ) :
    settle s₀ (modify f : ExceptT ε (StateM σ) Unit) s = (.ok (), f s) := rfl

@[simp] theorem settle_map_modify (g : Unit → α) (f : σ → σ) :
    settle s₀ (g <$> (modify f : ExceptT ε (StateM σ) Unit)) s = (.ok (g ()), f s) := rfl

@[simp] theorem settle_throw_bind (e : ε) (k : α → ExceptT ε (StateM σ) β) :
    settle s₀ (throw e >>= k) s = (.error e, s₀) := rfl

@[simp] theorem settle_ensure_bind (c : Bool) (e : ε) (k : Unit → ExceptT ε (StateM σ) β) :
    settle s₀ (ensure c e >>= k) s = if c then settle s₀ (k ()) s else (.error e, s₀) := by
  cases c <;> rfl

@[simp] theorem settle_propagate_bind (x : Except ε α) (k : α → ExceptT ε (StateM σ) β) :
    settle s₀ (propagate x >>= k) s =
      match x with
      | .ok a => settle s₀ (k a) s
      | .error e => (.error e, s₀) := by
  cases x <;> rfl

end Rules

end Transactions

/-! ### Loops -/

section Loops
variable {σ : Type*}

/-- A `while` loop on fuel, which gives up when that is spent. -/
def whileLoop (test : σ → Bool) (body : σ → σ) : ℕ → σ → Option σ
  | 0, _ => none
  | fuel + 1, s => if test s then whileLoop test body fuel (body s) else some s

variable {test : σ → Bool} {body : σ → σ}

/-- The loop rule: `n` rounds pass the test, and the state after them fails it. -/
theorem whileLoop_eq_some {n fuel : ℕ} {s : σ} (hrun : ∀ m < n, test (body^[m] s) = true)
    (hexit : test (body^[n] s) = false) (hfuel : n < fuel) :
    whileLoop test body fuel s = some (body^[n] s) := by
  induction n generalizing s fuel with
  | zero =>
    obtain ⟨fuel, rfl⟩ := Nat.exists_eq_add_of_lt hfuel
    have hs : test s = false := hexit
    simp [whileLoop, hs]
  | succ n ih =>
    obtain ⟨fuel, rfl⟩ := Nat.exists_eq_add_of_lt hfuel
    have hs : test s = true := hrun 0 (Nat.succ_pos n)
    have hrest : whileLoop test body (n + 1 + fuel) (body s) = some (body^[n] (body s)) :=
      ih (fun m hm => hrun (m + 1) (Nat.succ_lt_succ hm)) hexit (by omega)
    rw [whileLoop, if_pos hs, hrest]
    rfl

/-- The rule for `for i in 0..n`: every round keeps the invariant and does not fail. -/
theorem foldlM_range_eq_some {round : σ → ℕ → Option σ} {P : ℕ → σ → Prop} {s : σ} {n : ℕ}
    (hstart : P 0 s) (hround : ∀ i < n, ∀ s, P i s → ∃ s', round s i = some s' ∧ P (i + 1) s') :
    ∃ s', (List.range n).foldlM round s = some s' ∧ P n s' := by
  induction n with
  | zero => exact ⟨s, rfl, hstart⟩
  | succ n ih =>
    obtain ⟨s₁, hrun, hs₁⟩ := ih fun i hi => hround i (Nat.lt_succ_of_lt hi)
    obtain ⟨s₂, hlast, hs₂⟩ := hround n (Nat.lt_succ_self n) s₁ hs₁
    refine ⟨s₂, ?_, hs₂⟩
    rw [List.range_succ, List.foldlM_append, hrun]
    simp [hlast]

end Loops

/-! ### Draws -/

section Draws
variable {σ α β : Type}

/-- Whatever is drawn, the result satisfies `P`: a statement about what a computation returns is
meant for every state of the generator. -/
def Returns (P : α → Prop) (m : StateM σ α) : Prop := ∀ s, P (m.run s).1

theorem returns_pure {P : α → Prop} {a : α} (h : P a) : Returns P (pure a : StateM σ α) :=
  fun _ => h

theorem Returns.bind {P : α → Prop} {Q : β → Prop} {m : StateM σ α} {f : α → StateM σ β}
    (hm : Returns P m) (hf : ∀ a, P a → Returns Q (f a)) : Returns Q (m >>= f) := by
  intro s
  exact hf _ (hm s) (m.run s).2

theorem returns_map {P : β → Prop} {m : StateM σ α} {f : α → β}
    (h : Returns (fun a => P (f a)) m) : Returns P (f <$> m) := h

/-- A loop that collects what its rounds return. -/
theorem returns_mapM {R : α → β → Prop} {f : α → StateM σ β} {xs : List α}
    (h : ∀ x ∈ xs, Returns (R x) (f x)) : Returns (List.Forall₂ R xs) (xs.mapM f) := by
  induction xs with
  | nil => exact returns_pure .nil
  | cons x xs ih =>
    rw [List.mapM_cons]
    refine (h x List.mem_cons_self).bind fun y hy => ?_
    refine (ih fun x' hx' => h x' (List.mem_cons_of_mem x hx')).bind fun ys hys => ?_
    exact returns_pure (.cons hy hys)

end Draws

end Traceability.Machine
