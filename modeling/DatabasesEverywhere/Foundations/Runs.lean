import Mathlib

/-!
# Foundations/Runs — runs of a machine and what they keep

A machine is a step function `State → Action → State`, and a run is a list of actions.  Safety is
proved once per step: a property that holds at the start and that every step keeps holds at the
end of every run.  `RunsWithin` restricts a run to actions that meet a guard where they are taken.
-/

namespace Foundations

universe u v

variable {State : Type u} {Action : Type v}

/-- The state after a run. -/
def run (step : State → Action → State) (s : State) (actions : List Action) : State :=
  actions.foldl step s

/-- Every action of the run meets the guard in the state where it is taken. -/
def RunsWithin (step : State → Action → State) (guard : State → Action → Prop) :
    State → List Action → Prop
  | _, [] => True
  | s, a :: actions => guard s a ∧ RunsWithin step guard (step s a) actions

instance RunsWithin.decidable (step : State → Action → State) (guard : State → Action → Prop)
    [∀ s a, Decidable (guard s a)] :
    ∀ (s : State) (actions : List Action), Decidable (RunsWithin step guard s actions)
  | _, [] => .isTrue trivial
  | s, a :: actions =>
    have := RunsWithin.decidable step guard (step s a) actions
    inferInstanceAs (Decidable (_ ∧ _))

@[simp] theorem run_nil (step : State → Action → State) (s : State) : run step s [] = s := rfl

@[simp] theorem run_cons (step : State → Action → State) (s : State) (a : Action)
    (actions : List Action) : run step s (a :: actions) = run step (step s a) actions := rfl

theorem run_append (step : State → Action → State) (s : State) (first second : List Action) :
    run step s (first ++ second) = run step (run step s first) second :=
  List.foldl_append

variable {step : State → Action → State} {guard : State → Action → Prop}

theorem runsWithin_append :
    ∀ {s : State} {first second : List Action}, RunsWithin step guard s first →
      RunsWithin step guard (run step s first) second → RunsWithin step guard s (first ++ second)
  | _, [], _, _, h => h
  | _, _ :: _, _, ⟨hguard, hrest⟩, h => ⟨hguard, runsWithin_append hrest h⟩

variable {Inv : State → Prop}

/-- **The invariant rule**, for runs within a guard. -/
theorem RunsWithin.invariant (hstep : ∀ s a, Inv s → guard s a → Inv (step s a)) :
    ∀ (actions : List Action) {s : State}, Inv s → RunsWithin step guard s actions →
      Inv (run step s actions)
  | [], _, h, _ => h
  | a :: actions, s, h, ⟨hguard, hrest⟩ =>
    RunsWithin.invariant hstep actions (hstep s a h hguard) hrest

/-- **The invariant rule**, for all runs. -/
theorem run_invariant (hstep : ∀ s a, Inv s → Inv (step s a)) :
    ∀ (actions : List Action) {s : State}, Inv s → Inv (run step s actions)
  | [], _, h => h
  | a :: actions, s, h => run_invariant hstep actions (hstep s a h)

variable {step' : State → Action → State}

/-- **Two machines that agree while a property holds** have the same run if it holds at the end and
no step brings it about. -/
theorem run_congr {P : State → Prop}
    (hback : ∀ s a, P (step' s a) → P s) (hagree : ∀ s a, P (step' s a) → step s a = step' s a) :
    ∀ (actions : List Action) {s : State}, P (run step' s actions) →
      P s ∧ run step s actions = run step' s actions
  | [], _, h => ⟨h, rfl⟩
  | a :: actions, s, h => by
    obtain ⟨hnext, hrun⟩ := run_congr hback hagree actions h
    refine ⟨hback s a hnext, ?_⟩
    rw [run_cons, run_cons, hagree s a hnext, hrun]

/-- Two machines that agree within a guard have the same runs within it. -/
theorem RunsWithin.congr (hagree : ∀ s a, guard s a → step s a = step' s a) :
    ∀ (actions : List Action) {s : State}, RunsWithin step guard s actions →
      run step s actions = run step' s actions ∧ RunsWithin step' guard s actions
  | [], _, h => ⟨rfl, h⟩
  | a :: actions, s, ⟨hguard, hrest⟩ => by
    obtain ⟨hrun, hwithin⟩ := RunsWithin.congr hagree actions hrest
    rw [run_cons, run_cons, hrun, hagree s a hguard]
    exact ⟨rfl, hguard, hagree s a hguard ▸ hwithin⟩

/-- A property every move keeps is kept along every chain of moves. -/
theorem chain_invariant {r : State → State → Prop} (hmove : ∀ s t, r s t → Inv s → Inv t)
    {s t : State} (h : Relation.ReflTransGen r s t) (hs : Inv s) : Inv t := by
  induction h with
  | refl => exact hs
  | tail _ hlast ih => exact hmove _ _ hlast ih

end Foundations
