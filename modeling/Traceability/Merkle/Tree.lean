import Mathlib.Data.List.Basic
import Mathlib.Algebra.Order.Ring.Nat
import Mathlib.Tactic.Ring

/-! Binary trees as Merkle trees. A tree is evaluated from its leaves with a function that
combines two nodes; perfect trees are determined by their leaves. -/
namespace Traceability.Merkle

inductive Tree (α : Type*) where
  | leaf (a : α)
  | node (left right : Tree α)

namespace Tree
variable {α β : Type*}

/-- The leaves from left to right. -/
def leaves : Tree α → List α
  | leaf a => [a]
  | node l r => l.leaves ++ r.leaves

/-- The digest at the root, from those of the leaves. -/
def eval (hash : α → β) (combine : β → β → β) : Tree α → β
  | leaf a => hash a
  | node l r => combine (l.eval hash combine) (r.eval hash combine)

/-- The subtrees that are not leaves. -/
def inner : Tree α → List (Tree α)
  | leaf _ => []
  | node l r => node l r :: (l.inner ++ r.inner)

@[simp] theorem leaves_eval_leaf (f : α → β) (t : Tree α) :
    (t.eval (fun a => leaf (f a)) node).leaves = t.leaves.map f := by
  induction t with
  | leaf a => rfl
  | node l r ihl ihr => simp [eval, leaves, ihl, ihr]

/-- Every leaf lies at the same depth. -/
def Perfect : ℕ → Tree α → Prop
  | 0, leaf _ => True
  | d + 1, node l r => l.Perfect d ∧ r.Perfect d
  | _, _ => False

@[simp] theorem perfect_leaf (a : α) : (leaf a).Perfect 0 := trivial

@[simp] theorem perfect_node {d : ℕ} {l r : Tree α} :
    (node l r).Perfect (d + 1) ↔ l.Perfect d ∧ r.Perfect d := Iff.rfl

theorem Perfect.length_leaves {d : ℕ} {t : Tree α} (h : t.Perfect d) :
    t.leaves.length = 2 ^ d := by
  induction t generalizing d with
  | leaf a =>
    cases d with
    | zero => rfl
    | succ d => exact h.elim
  | node l r ihl ihr =>
    cases d with
    | zero => exact h.elim
    | succ d =>
      rw [leaves, List.length_append, ihl h.1, ihr h.2, pow_succ]
      ring

theorem Perfect.depth_eq {d e : ℕ} {s t : Tree α} (hs : s.Perfect d) (ht : t.Perfect e)
    (h : s.leaves.length = t.leaves.length) : d = e := by
  rw [hs.length_leaves, ht.length_leaves] at h
  exact Nat.pow_right_injective le_rfl h

/-- A perfect tree is determined by its leaves. -/
theorem Perfect.eq_of_leaves {d e : ℕ} {s t : Tree α} (hs : s.Perfect d) (ht : t.Perfect e)
    (h : s.leaves = t.leaves) : s = t := by
  obtain rfl := hs.depth_eq ht (congrArg List.length h)
  induction s generalizing d t with
  | leaf a =>
    cases d with
    | succ d => exact hs.elim
    | zero =>
      cases t with
      | leaf b => exact congrArg leaf (List.cons.inj h).1
      | node l r => exact ht.elim
  | node l r ihl ihr =>
    cases d with
    | zero => exact hs.elim
    | succ d =>
      cases t with
      | leaf b => exact ht.elim
      | node l' r' =>
        obtain ⟨hl, hr⟩ := List.append_inj h (by rw [hs.1.length_leaves, ht.1.length_leaves])
        rw [ihl hs.1 hl ht.1, ihr hs.2 hr ht.2]

end Tree

end Traceability.Merkle
