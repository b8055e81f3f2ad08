import DatabasesEverywhere.Foundations.Runs

/-!
# Server/Shutdown — no mutation behind the drain

    trigger                 stopping := true · close
    try_admit_mutation      stopping? · token · stopping? · permit
    wait_for_mutation_drain                     closed, no token left

Each `·` is a place where other calls come in between.  A call that takes its token behind the drain
finds the flag set at its second look, since the flag is set before the tracker is closed.
-/

open Foundations

namespace DatabasesEverywhere.Server

/-- Where a call of `try_admit_mutation` stands. -/
inductive MutationCall
  | entered
  /-- The first look has found the flag unset. -/
  | checked
  /-- Holds a token of the tracker; the second look is to come. -/
  | token
  /-- Has returned a `MutationPermit`, which keeps the token. -/
  | permit
  /-- Has returned `None`, or its permit is dropped. -/
  | ended
  deriving DecidableEq

namespace MutationCall

def next (stopping : Bool) : MutationCall → MutationCall
  | entered => if stopping then ended else checked
  | checked => token
  | token => if stopping then ended else permit
  | permit => ended
  | ended => ended

def holdsToken (call : MutationCall) : Bool := call = token || call = permit

end MutationCall

structure DaemonShutdown where
  stopping : Bool := false
  /-- The tracker is closed. -/
  closed : Bool := false
  calls : List MutationCall := []
  /-- The calls of `trigger` that have set the flag and not closed the tracker yet. -/
  closing : ℕ := 0
  /-- A wait has found the tracker closed and empty; it returns true then or later. -/
  drained : Bool := false

inductive ShutdownAction
  | tryAdmitMutation
  /-- The next step of a call, or the drop of its permit. -/
  | resume (call : ℕ)
  | sendReplace
  | close
  | wait

namespace DaemonShutdown

variable (s : DaemonShutdown)

def step : ShutdownAction → DaemonShutdown
  | .tryAdmitMutation => { s with calls := s.calls ++ [.entered] }
  | .resume call => { s with calls := s.calls.modify call (.next s.stopping) }
  | .sendReplace => { s with stopping := true, closing := s.closing + 1 }
  | .close => if s.closing = 0 then s else { s with closed := true, closing := s.closing - 1 }
  | .wait => { s with drained := s.drained || s.closed && !s.calls.any MutationCall.holdsToken }

/-- The flag is set and no permit is live. -/
def Fenced : Prop := s.stopping = true ∧ .permit ∉ s.calls

/-- The tracker is closed behind the flag, and the drain leaves a fence. -/
structure Sound : Prop where
  closing : 0 < s.closing → s.stopping = true
  closed : s.closed = true → s.stopping = true
  drained : s.drained = true → s.Fenced

variable {s}

/-- **The second look**: behind the fence no call gets a permit. -/
theorem Fenced.step (h : s.Fenced) (action : ShutdownAction) : (s.step action).Fenced := by
  obtain ⟨hstopping, hnone⟩ := h
  cases action with
  | tryAdmitMutation => exact ⟨hstopping, by simpa [DaemonShutdown.step] using hnone⟩
  | resume call =>
    refine ⟨hstopping, fun hmem => ?_⟩
    simp only [DaemonShutdown.step, hstopping] at hmem
    obtain ⟨index, hindex⟩ := List.mem_iff_getElem?.mp hmem
    rw [List.getElem?_modify] at hindex
    obtain ⟨old, hold, heq⟩ := Option.map_eq_some_iff.mp hindex
    split at heq
    · cases old <;> cases heq
    · exact hnone (heq ▸ List.mem_of_getElem? hold)
  | sendReplace => exact ⟨rfl, hnone⟩
  | close =>
    simp only [DaemonShutdown.step]
    split <;> exact ⟨hstopping, hnone⟩
  | wait => exact ⟨hstopping, hnone⟩

theorem Sound.step (h : s.Sound) (action : ShutdownAction) : (s.step action).Sound := by
  cases action with
  | tryAdmitMutation | resume =>
    exact ⟨h.closing, h.closed, fun hdrained => (h.drained hdrained).step _⟩
  | sendReplace =>
    exact ⟨fun _ => rfl, fun _ => rfl, fun hdrained => (h.drained hdrained).step .sendReplace⟩
  | close =>
    simp only [DaemonShutdown.step]
    split
    · exact h
    next hclosing =>
    have hstopping := h.closing (Nat.pos_of_ne_zero hclosing)
    exact ⟨fun _ => hstopping, fun _ => hstopping, h.drained⟩
  | wait =>
    refine ⟨h.closing, h.closed, fun hdrained => ?_⟩
    simp only [DaemonShutdown.step, Bool.or_eq_true, Bool.and_eq_true] at hdrained
    rcases hdrained with hdrained | ⟨hclosed, hempty⟩
    · exact h.drained hdrained
    · refine ⟨h.closed hclosed, fun hpermit => ?_⟩
      rw [Bool.not_eq_true', List.any_eq_false] at hempty
      exact hempty _ hpermit rfl

/-- **The drain is final**: once it has returned true, no permit is live and none is granted. -/
theorem no_permit_behind_drain (actions later : List ShutdownAction)
    (hdrained : (run step {} actions).drained = true) :
    .permit ∉ (run step {} (actions ++ later)).calls := by
  have hsound : Sound (run step {} actions) :=
    run_invariant (fun _ action h => h.step action) actions ⟨nofun, nofun, nofun⟩
  have hfenced : Fenced (run step (run step {} actions) later) :=
    run_invariant (fun _ action h => h.step action) later (hsound.drained hdrained)
  rw [run_append]
  exact hfenced.2

/-- A call that has passed its first look before the trigger goes on behind the drain. -/
theorem no_permit_behind_drain_late_call :
    MutationCall.permit ∉ (run step {} ([.tryAdmitMutation, .resume 0, .sendReplace, .close, .wait] ++
      [.resume 0, .resume 0])).calls :=
  no_permit_behind_drain _ _ (by decide)

end DaemonShutdown

end DatabasesEverywhere.Server
