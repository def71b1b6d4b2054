import Mathlib.Data.List.Basic

/-! Unframed concatenation. Two pairs of words with the same concatenation are equal,
or the boundary of one lies strictly to the right of the boundary of the other. -/
namespace Traceability.Bytes

variable {α : Type*}

/-- The second pair is the first with a nonempty word moved from the rest to the field. -/
def Shifted (x₁ r₁ x₂ r₂ : List α) : Prop := ∃ u, u ≠ [] ∧ x₂ = x₁ ++ u ∧ r₁ = u ++ r₂

theorem Shifted.append_eq {x₁ r₁ x₂ r₂ : List α} (h : Shifted x₁ r₁ x₂ r₂) :
    x₁ ++ r₁ = x₂ ++ r₂ := by
  obtain ⟨u, -, rfl, rfl⟩ := h
  simp

theorem Shifted.length_lt {x₁ r₁ x₂ r₂ : List α} (h : Shifted x₁ r₁ x₂ r₂) :
    x₁.length < x₂.length := by
  obtain ⟨u, hu, rfl, -⟩ := h
  have hpos := List.length_pos_of_ne_nil hu
  simp only [List.length_append]
  omega

theorem Shifted.field_ne {x₁ r₁ x₂ r₂ : List α} (h : Shifted x₁ r₁ x₂ r₂) : x₁ ≠ x₂ := by
  rintro rfl
  exact Nat.lt_irrefl _ h.length_lt

theorem append_eq_append_iff_shifted {x₁ r₁ x₂ r₂ : List α} :
    x₁ ++ r₁ = x₂ ++ r₂ ↔
      (x₁ = x₂ ∧ r₁ = r₂) ∨ Shifted x₁ r₁ x₂ r₂ ∨ Shifted x₂ r₂ x₁ r₁ := by
  constructor
  · intro h
    rcases List.append_eq_append_iff.mp h with ⟨u, hx, hr⟩ | ⟨u, hx, hr⟩
    · rcases eq_or_ne u [] with rfl | hu
      · exact .inl ⟨by simpa using hx.symm, by simpa using hr⟩
      · exact .inr (.inl ⟨u, hu, hx, hr⟩)
    · rcases eq_or_ne u [] with rfl | hu
      · exact .inl ⟨by simpa using hx, by simpa using hr.symm⟩
      · exact .inr (.inr ⟨u, hu, hx, hr⟩)
  · rintro (⟨rfl, rfl⟩ | h | h)
    · rfl
    · exact h.append_eq
    · exact h.append_eq.symm

theorem shifted_iff {x₁ r₁ x₂ r₂ : List α} :
    Shifted x₁ r₁ x₂ r₂ ↔ x₁.length < x₂.length ∧ x₁ ++ r₁ = x₂ ++ r₂ := by
  constructor
  · exact fun h => ⟨h.length_lt, h.append_eq⟩
  · rintro ⟨hlen, heq⟩
    rcases append_eq_append_iff_shifted.mp heq with ⟨rfl, -⟩ | h | h
    · exact absurd hlen (Nat.lt_irrefl _)
    · exact h
    · exact absurd h.length_lt (Nat.lt_asymm hlen)

instance [DecidableEq α] (x₁ r₁ x₂ r₂ : List α) : Decidable (Shifted x₁ r₁ x₂ r₂) :=
  decidable_of_iff _ shifted_iff.symm

/-- `k` occurs in `m` with at least one letter before it and one after it. -/
def StrictlyInside (k m : List α) : Prop := ∃ u v, u ≠ [] ∧ v ≠ [] ∧ m = u ++ k ++ v

end Traceability.Bytes
