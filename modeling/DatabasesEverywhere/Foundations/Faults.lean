import Mathlib

/-!
# Foundations/Faults — programs that may be cut at every step

A program changes its state in steps.  The host grants a step, refuses it with an error, or stops
the program there; what was done until then stays done.

    program  ──▸  returned a  ·  failed e  ·  stopped
                  always with the state that was left behind

`Ensures program post s` quantifies over everything the host may do, so a postcondition for the
stopped outcome speaks about every state a crash can leave.  `Grants` is the one run in which the
host grants every step.
-/

namespace Foundations

/-- What the host does with one step.  A step that is refused or stopped may be done in part. -/
inductive Fault
  | granted
  | refused (part : ℕ)
  | stopped (part : ℕ)
  deriving DecidableEq

inductive Outcome (ε α : Type)
  | returned (result : α)
  | failed (error : ε)
  | stopped
  deriving DecidableEq

/-- A state, and what the host will do with the steps to come.  Steps beyond the list are granted. -/
structure Host (σ : Type) where
  state : σ
  faults : List Fault

def Program (σ : Type) (ε α : Type) : Type := Host σ → Outcome ε α × Host σ

namespace Program

variable {σ : Type} {ε ε' α β : Type}

protected def pure (result : α) : Program σ ε α := fun host => (.returned result, host)

variable (program : Program σ ε α)

protected def bind (next : α → Program σ ε β) : Program σ ε β :=
  fun host =>
    match program host with
    | (.returned result, after) => next result after
    | (.failed error, after) => (.failed error, after)
    | (.stopped, after) => (.stopped, after)

instance : Monad (Program σ ε) where
  pure := Program.pure
  bind := Program.bind

def fail (error : ε) : Program σ ε α := fun host => (.failed error, host)

/-- Read the state. -/
def look : Program σ ε σ := fun host => (.returned host.state, host)

/-- A step of the host. -/
def step (refusal : ε) (whole : σ → σ) (part : ℕ → σ → σ) : Program σ ε Unit := fun host =>
  match host.faults with
  | [] => (.returned (), ⟨whole host.state, []⟩)
  | .granted :: faults => (.returned (), ⟨whole host.state, faults⟩)
  | .refused done :: faults => (.failed refusal, ⟨part done host.state, faults⟩)
  | .stopped done :: faults => (.stopped, ⟨part done host.state, faults⟩)

/-- Hand an error back as a value.  Nothing goes on after a stop. -/
def attempt : Program σ ε' (Except ε α) := fun host =>
  match program host with
  | (.returned result, after) => (.returned (.ok result), after)
  | (.failed error, after) => (.returned (.error error), after)
  | (.stopped, after) => (.stopped, after)

def mapError (f : ε → ε') : Program σ ε' α := do
  match ← program.attempt with
  | .ok result => pure result
  | .error error => fail (f error)

def ofExcept : Except ε α → Program σ ε α
  | .ok result => pure result
  | .error error => fail error

/-- A change of the program's own state, in which the host has no part. -/
def update
    (f : σ → σ) : Program σ ε Unit := fun host => (.returned (), { host with state := f host.state })

/-- Give a program up that is still waiting at its deadline. -/
def within (late : ε) : Program σ ε α := fun host =>
  match program host with
  | (.returned result, after) => (.returned result, after)
  | (.failed error, after) => (.failed error, after)
  | (.stopped, after) => (.failed late, after)

/-- Repeat the body until it hands back a result.  `exhausted` stands for a loop that was not given
enough fuel; `ensures_loop` asks for fuel that lasts. -/
def loop (exhausted : ε) (body : α → Program σ ε (α ⊕ β)) : ℕ → α → Program σ ε β
  | 0, _ => fail exhausted
  | fuel + 1, value => do
    match ← body value with
    | .inl value => loop exhausted body fuel value
    | .inr result => pure result

end Program

/-! ## What every run of a program ensures -/

/-- What is true of the state when a program has ended. -/
structure Post (σ : Type) (ε α : Type) where
  returned : α → σ → Prop
  failed : ε → σ → Prop
  stopped : σ → Prop

variable {σ : Type} {ε ε' α β : Type}

def Post.Holds (post : Post σ ε α) : Outcome ε α → σ → Prop
  | .returned result, s => post.returned result s
  | .failed error, s => post.failed error s
  | .stopped, s => post.stopped s

/-- Whatever the host does, the program started in `s` ends as `post` says. -/
def Ensures (program : Program σ ε α) (post : Post σ ε α) (s : σ) : Prop :=
  ∀ faults, post.Holds (program ⟨s, faults⟩).1 (program ⟨s, faults⟩).2.state

variable {program : Program σ ε α} {post : Post σ ε α} {s : σ} {result : α} {faults : List Fault}

theorem Ensures.returned (h : Ensures program post s)
    (hresult : (program ⟨s, faults⟩).1 = .returned result) :
    post.returned result (program ⟨s, faults⟩).2.state := by
  have hholds := h faults
  rw [hresult] at hholds
  exact hholds

variable {error : ε}

theorem Ensures.failed (h : Ensures program post s)
    (herror : (program ⟨s, faults⟩).1 = .failed error) :
    post.failed error (program ⟨s, faults⟩).2.state := by
  have hholds := h faults
  rw [herror] at hholds
  exact hholds

/-- What every outcome implies is true of the state left behind. -/
theorem Ensures.always {I : σ → Prop}
    (h : Ensures program post s) (hreturned : ∀ result after, post.returned result after → I after)
    (hfailed : ∀ error after, post.failed error after → I after)
    (hstopped : ∀ after, post.stopped after → I after) (faults : List Fault) :
    I (program ⟨s, faults⟩).2.state := by
  have hholds := h faults
  generalize program ⟨s, faults⟩ = ended at hholds
  obtain ⟨outcome, after, rest⟩ := ended
  cases outcome with
  | returned result => exact hreturned result after hholds
  | failed error => exact hfailed error after hholds
  | stopped => exact hstopped after hholds

theorem ensures_pure (h : post.returned result s) : Ensures (pure result) post s :=
  fun _ => h

theorem ensures_fail (h : post.failed error s) : Ensures (.fail error) post s :=
  fun _ => h

theorem ensures_look {post : Post σ ε σ} (h : post.returned s s) : Ensures .look post s :=
  fun _ => h

variable {x : Except ε α}

theorem ensures_ofExcept (hok : ∀ result, x = .ok result → post.returned result s)
    (herror : ∀ error, x = .error error → post.failed error s) : Ensures (.ofExcept x) post s := by
  cases x with
  | ok result => exact ensures_pure (hok result rfl)
  | error error => exact ensures_fail (herror error rfl)

variable {refusal : ε} {whole : σ → σ} {part : ℕ → σ → σ}

theorem ensures_step {post : Post σ ε Unit}
    (hwhole : post.returned () (whole s)) (hrefused : ∀ done, post.failed refusal (part done s))
    (hstopped : ∀ done, post.stopped (part done s)) :
    Ensures (.step refusal whole part) post s := by
  intro faults
  match faults with
  | [] | .granted :: _ => exact hwhole
  | .refused done :: _ => exact hrefused done
  | .stopped done :: _ => exact hstopped done

/-- **The rule of consequence.** -/
theorem Ensures.mono {post' : Post σ ε α} (h : Ensures program post s)
    (hreturned : ∀ result after, post.returned result after → post'.returned result after)
    (hfailed : ∀ error after, post.failed error after → post'.failed error after)
    (hstopped : ∀ after, post.stopped after → post'.stopped after) :
    Ensures program post' s := by
  intro faults
  have hholds := h faults
  generalize program ⟨s, faults⟩ = ended at hholds
  obtain ⟨outcome, after, faults⟩ := ended
  cases outcome with
  | returned result => exact hreturned result after hholds
  | failed error => exact hfailed error after hholds
  | stopped => exact hstopped after hholds

variable {next : α → Program σ ε β}

/-- **The rule of sequences.** -/
theorem ensures_bind {post : Post σ ε β}
    (h : Ensures program ⟨fun result => Ensures (next result) post, post.failed, post.stopped⟩ s) :
    Ensures (program >>= next) post s := by
  intro faults
  have hfirst := h faults
  simp only [bind, Program.bind]
  generalize program ⟨s, faults⟩ = ended at hfirst
  obtain ⟨outcome, after, faults⟩ := ended
  cases outcome with
  | returned result => exact hfirst faults
  | failed error => exact hfirst
  | stopped => exact hfirst

/-- **The rule of error handling.** -/
theorem ensures_attempt {post : Post σ ε' (Except ε α)} (h : Ensures program
      ⟨fun result => post.returned (.ok result), fun error => post.returned (.error error),
        post.stopped⟩ s) :
    Ensures program.attempt post s := by
  intro faults
  have hholds := h faults
  simp only [Program.attempt]
  generalize program ⟨s, faults⟩ = ended at hholds
  obtain ⟨outcome, after, faults⟩ := ended
  cases outcome <;> exact hholds

variable {f : ε → ε'}

theorem ensures_mapError {post : Post σ ε' α}
    (h : Ensures program ⟨post.returned, fun error => post.failed (f error), post.stopped⟩ s) :
    Ensures (program.mapError f) post s :=
  ensures_bind <| ensures_attempt <|
    h.mono (fun _ _ => ensures_pure) (fun _ _ => ensures_fail) (fun _ => id)

theorem ensures_update {f : σ → σ} {post : Post σ ε Unit} (h : post.returned () (f s)) :
    Ensures (.update f) post s :=
  fun _ => h

theorem ensures_within {late : ε}
    (h : Ensures program ⟨post.returned, post.failed, post.failed late⟩ s) :
    Ensures (program.within late) post s := by
  intro faults
  have hholds := h faults
  simp only [Program.within]
  generalize program ⟨s, faults⟩ = ended at hholds
  obtain ⟨outcome, after, faults⟩ := ended
  cases outcome <;> exact hholds

/-- **The rule of loops**: the body keeps the invariant and brings the measure down, and the fuel
exceeds the measure. -/
theorem ensures_loop {exhausted : ε} {body : α → Program σ ε (α ⊕ β)} {post : Post σ ε β}
    (Inv : α → σ → Prop) (measure : σ → ℕ)
    (hbody : ∀ value s, Inv value s → Ensures (body value)
      ⟨fun next after => next.elim (fun value' => Inv value' after ∧ measure after < measure s)
        fun result => post.returned result after, post.failed, post.stopped⟩ s) :
    ∀ {fuel : ℕ} {value : α} {s : σ}, Inv value s → measure s < fuel →
      Ensures (.loop exhausted body fuel value) post s
  | 0, _, _, _, h => absurd h (Nat.not_lt_zero _)
  | fuel + 1, value, s, hinv, hfuel => by
    refine ensures_bind ((hbody value s hinv).mono ?_ (fun _ _ => id) fun _ => id)
    intro next after hnext
    cases next with
    | inl value' => exact ensures_loop Inv measure hbody hnext.1 (by have := hnext.2; omega)
    | inr result => exact ensures_pure hnext

/-! ## The run without a fault -/

/-- If every step is granted, the program started in `s` returns. -/
def Grants (program : Program σ ε α) (s : σ) (result : α) (after : σ) : Prop :=
  program ⟨s, []⟩ = (.returned result, ⟨after, []⟩)

theorem grants_step :
    Grants (.step refusal whole part) s () (whole s) := rfl

variable {after : σ}

theorem grants_bind {middle : σ} {result' : β} (h : Grants program s result middle)
    (hnext : Grants (next result) middle result' after) :
    Grants (program >>= next) s result' after := by
  simp only [Grants, bind, Program.bind] at h ⊢
  rw [h]
  exact hnext

theorem grants_attempt (h : Grants program s result after) :
    Grants (program.attempt : Program σ ε' (Except ε α)) s (.ok result) after := by
  simp only [Grants, Program.attempt] at h ⊢
  rw [h]

theorem grants_attempt_failed (h : program ⟨s, []⟩ = (.failed error, ⟨after, []⟩)) :
    Grants (program.attempt : Program σ ε' (Except ε α)) s (.error error) after := by
  simp only [Grants, Program.attempt]
  rw [h]

theorem grants_mapError (h : Grants program s result after) :
    Grants (program.mapError f) s result after :=
  grants_bind (grants_attempt h) rfl

theorem grants_ofExcept (h : x = .ok result) : Grants (.ofExcept x) s result s := by
  subst h
  rfl

end Foundations
