import Mathlib

/-!
# Foundations/Occurrences — the first occurrence of a word in a text

    text = before ++ word ++ rest        no occurrence starts inside `before`

A search may drop the front of a text in which no occurrence starts (`firstEnd_append`).
-/

namespace Foundations

universe u

variable {α : Type u} {word text rest front : List α} {a : α}

/-- `rest` stands behind the first occurrence of `word`. -/
def FirstEnd (word text rest : List α) : Prop :=
  ∃ before, text = before ++ word ++ rest ∧ ∀ k < before.length, ¬ word <+: text.drop k

theorem firstEnd_of_prefix : FirstEnd word (word ++ text) rest ↔ text = rest := by
  constructor
  · rintro ⟨_ | ⟨a, before⟩, heq, hfirst⟩
    · exact List.append_cancel_left heq
    · exact absurd (List.prefix_append word text) (hfirst 0 (Nat.succ_pos _))
  · rintro rfl
    exact ⟨[], rfl, fun _ hk => absurd hk (Nat.not_lt_zero _)⟩

theorem firstEnd_cons (h : ¬ word <+: a :: text) :
    FirstEnd word (a :: text) rest ↔ FirstEnd word text rest := by
  constructor
  · rintro ⟨_ | ⟨b, before⟩, heq, hfirst⟩
    · exact absurd ⟨rest, heq.symm⟩ h
    · obtain ⟨rfl, rfl⟩ := List.cons_eq_cons.mp heq
      exact ⟨before, rfl, fun k hk => hfirst (k + 1) (Nat.succ_lt_succ hk)⟩
  · rintro ⟨before, rfl, hfirst⟩
    refine ⟨a :: before, rfl, fun k hk => ?_⟩
    cases k with
    | zero => exact h
    | succ k => exact hfirst k (Nat.lt_of_succ_lt_succ hk)

theorem firstEnd_append (h : ∀ k < front.length, ¬ word <+: front.drop k ++ text) :
    FirstEnd word (front ++ text) rest ↔ FirstEnd word text rest := by
  induction front with
  | nil => rfl
  | cons a front ih =>
    exact (firstEnd_cons (h 0 (Nat.succ_pos _))).trans
      (ih fun k hk => h (k + 1) (Nat.succ_lt_succ hk))

theorem exists_firstEnd : (∃ rest, FirstEnd word text rest) ↔ word <:+: text := by
  induction text with
  | nil =>
    constructor
    · rintro ⟨rest, before, heq, -⟩
      exact ⟨before, rest, heq.symm⟩
    · intro h
      exact ⟨[], [], by simp [List.infix_nil.mp h]⟩
  | cons a text ih =>
    rw [List.infix_cons_iff]
    by_cases h : word <+: a :: text
    · obtain ⟨rest, heq⟩ := h
      exact iff_of_true ⟨rest, heq ▸ firstEnd_of_prefix.mpr rfl⟩ (.inl ⟨rest, heq⟩)
    · simp only [firstEnd_cons h, ih, h, false_or]

end Foundations
