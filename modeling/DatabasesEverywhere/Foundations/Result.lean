import Mathlib

/-!
# Foundations/Result — peeling fallible computations apart

`bind_eq_ok` turns a successful `do` block into the results of its steps, so that a proof about
fallible code never unfolds the monad.
-/

namespace Foundations

universe u v

variable {ε : Type u} {α β : Type v} {x : Except ε α}

/-- **A successful sequence is two successful steps.** -/
theorem bind_eq_ok {f : α → Except ε β} {b : β} :
    (x >>= f) = .ok b ↔ ∃ a, x = .ok a ∧ f a = .ok b := by
  constructor
  · intro h
    cases x with
    | error e => cases h
    | ok a => exact ⟨a, rfl, h⟩
  · rintro ⟨a, rfl, h⟩
    exact h

@[simp] theorem ok_bind (a : α) (f : α → Except ε β) : (Except.ok a >>= f) = f a := rfl

@[simp] theorem error_bind (e : ε) (f : α → Except ε β) :
    ((Except.error e : Except ε α) >>= f) = .error e := rfl

@[simp] theorem mapError_eq_ok {ε' : Type u} {f : ε → ε'} {a : α} : x.mapError f = .ok a ↔ x = .ok a := by
  cases x <;> simp [Except.mapError]

/-- A check that is passed. -/
theorem ite_error_eq_ok {condition : Prop} [Decidable condition] {e : ε} {a : α} :
    (if condition then .error e else x) = .ok a ↔ ¬ condition ∧ x = .ok a := by
  split
  · next h => simp [h]
  · next h => simp [h]

/-- Goes on if the condition holds. -/
def require (condition : Bool) (error : ε) : Except ε PUnit :=
  if condition then .ok .unit else .error error

@[simp] theorem require_eq_ok {condition : Bool} {error : ε} {done : PUnit.{v + 1}} :
    require condition error = .ok done ↔ condition = true := by
  cases condition <;> simp [require]

/-- A loop that checks is successful if every check is. -/
theorem forM_eq_ok {ε α : Type u} {check : α → Except ε PUnit} {items : List α}
    {done : PUnit} : items.forM check = .ok done ↔ ∀ item ∈ items, check item = .ok .unit := by
  induction items with
  | nil => exact ⟨fun _ _ h => absurd h List.not_mem_nil, fun _ => rfl⟩
  | cons item items ih =>
    change (check item >>= fun _ => items.forM check) = _ ↔ _
    rw [bind_eq_ok, List.forall_mem_cons, ih]
    constructor
    · rintro ⟨_, hitem, hitems⟩
      exact ⟨hitem, hitems⟩
    · rintro ⟨hitem, hitems⟩
      exact ⟨.unit, hitem, hitems⟩

end Foundations
