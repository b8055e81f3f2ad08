import DatabasesEverywhere.Foundations.Result

/-!
# Foundations/Loops — loops that end or fail

`iterate step` takes a step until it hands back a result or an error.  The fuel makes the loop a
total function; `iterate_congr` says that it does not matter once a measure of the state that every
step brings down is below it, and `iterate_rec` is the induction along a loop that has ended.
-/

namespace Foundations

universe u v

variable {State : Type v} {Error : Type u} {Result : Type v}

/-- Step until there is a result; `exhausted` stands for a loop that has not ended. -/
def iterate (step : State → Except Error (State ⊕ Result)) (exhausted : Error) :
    ℕ → State → Except Error Result
  | 0, _ => .error exhausted
  | fuel + 1, state => do
    match ← step state with
    | .inl state => iterate step exhausted fuel state
    | .inr result => return result

variable {step : State → Except Error (State ⊕ Result)} {exhausted : Error}

section Measure

variable (measure : State → ℕ)
  (hstep : ∀ {state state'}, step state = .ok (.inl state') → measure state' < measure state)
include hstep

/-- **The fuel does not matter** once it exceeds a measure that every step brings down. -/
theorem iterate_congr :
    ∀ {fuel fuel' : ℕ} {state : State}, measure state < fuel → measure state < fuel' →
      iterate step exhausted fuel state = iterate step exhausted fuel' state
  | 0, _, _, h, _ | _, 0, _, _, h => absurd h (Nat.not_lt_zero _)
  | fuel + 1, fuel' + 1, state, h, h' => by
    rw [iterate, iterate]
    cases hstate : step state with
    | error error => rfl
    | ok next =>
      cases next with
      | inl state' =>
        have hlt := hstep hstate
        exact iterate_congr (by omega) (by omega)
      | inr result => rfl

/-- **The equation of the loop**, with fuel to spare. -/
theorem iterate_eq (state : State) :
    iterate step exhausted (measure state + 1) state = (do
      match ← step state with
      | .inl state' => iterate step exhausted (measure state' + 1) state'
      | .inr result => return result) := by
  rw [iterate]
  cases hstate : step state with
  | error error => rfl
  | ok next =>
    cases next with
    | inl state' => exact iterate_congr measure hstep (hstep hstate) (Nat.lt_succ_self _)
    | inr result => rfl

end Measure

/-- **Induction along a loop that has ended**: what holds of the last state, and of a state if it
holds of the next, holds of the first. -/
theorem iterate_rec {motive : State → Result → Prop}
    (hlast : ∀ {state result}, step state = .ok (.inr result) → motive state result)
    (hstep : ∀ {state state' result}, step state = .ok (.inl state') → motive state' result →
      motive state result) :
    ∀ {fuel : ℕ} {state : State} {result : Result},
      iterate step exhausted fuel state = .ok result → motive state result
  | 0, _, _, h => by cases h
  | fuel + 1, state, result, h => by
    obtain ⟨next, hnext, h⟩ := bind_eq_ok.mp h
    cases next with
    | inl state' => exact hstep hnext (iterate_rec hlast hstep h)
    | inr result' =>
      cases h
      exact hlast hnext

end Foundations
