import DatabasesEverywhere.Watcher.System

/-!
# Watcher/Touch — what an event or an error can do to a target

Whatever the watcher is told, it changes a target by `mark_full`, `mark_dirty` and `degrade` only,
and where it `watches` again by taking it as watched: these are `Touch`, and a section of code that
holds the lock `Touches` every target by some of them.  What one touch keeps is kept by all sections.

The second half compares the machine's counters with unbounded ones: **in range they agree**
(`step_machine`), so that everything else is proved for unbounded ones.
-/

open Foundations Relation

namespace DatabasesEverywhere.Watcher

/-! ## Touches -/

inductive Touch (limits : WatcherLimits) (watches : Prop) : TargetState → TargetState → Prop
  | full (t : TargetState) : Touch limits watches t (t.markFull .unbounded)
  | dirty (directory : Directory) (t : TargetState) :
      Touch limits watches t (t.markDirty .unbounded limits.maximumDirtyPaths directory)
  | degrade (now : ℕ) (t : TargetState) :
      Touch limits watches t (t.degrade .unbounded limits.retryPolicy now)
  | watch (h : watches) (t : TargetState) :
      Touch limits watches t { t with health := .watching, retryAttempts := 0 }

/-- The registration is the same, and its generations have not fallen. -/
structure TargetState.Follows (t t' : TargetState) : Prop where
  fingerprint : t'.fingerprint = t.fingerprint
  root : t'.root = t.root
  registration : t'.registrationGeneration = t.registrationGeneration
  generation : t.targetGeneration ≤ t'.targetGeneration
  health : t.healthGeneration ≤ t'.healthGeneration

namespace TargetState

theorem markDirty_generation (c : Counting) (maximum : ℕ) (directory : Directory)
    (t : TargetState) :
    (t.markDirty c maximum directory).targetGeneration = c.next t.targetGeneration := by
  unfold markDirty
  dsimp only
  repeat' split
  all_goals rfl

theorem markDirty_follows (maximum : ℕ) (directory : Directory) (t : TargetState) :
    t.Follows (t.markDirty .unbounded maximum directory) := by
  have hgeneration := markDirty_generation .unbounded maximum directory t
  refine ⟨?_, ?_, ?_, by rw [hgeneration]; exact Nat.le_succ _, ?_⟩ <;>
  · unfold markDirty
    dsimp only
    repeat' split
    all_goals rfl

theorem Follows.refl (t : TargetState) : t.Follows t := ⟨rfl, rfl, rfl, le_rfl, le_rfl⟩

theorem Follows.trans {t t' t'' : TargetState} (h : t.Follows t') (h' : t'.Follows t'') :
    t.Follows t'' :=
  ⟨h'.fingerprint.trans h.fingerprint, h'.root.trans h.root,
    h'.registration.trans h.registration, h.generation.trans h'.generation,
    h.health.trans h'.health⟩

end TargetState

variable {limits : WatcherLimits} {watches : Prop} {t t' : TargetState}

theorem Touch.follows (h : Touch limits watches t t') : t.Follows t' := by
  cases h with
  | full => exact ⟨rfl, rfl, rfl, Nat.le_succ _, le_rfl⟩
  | dirty directory => exact TargetState.markDirty_follows _ directory t
  | degrade now => exact ⟨rfl, rfl, rfl, le_rfl, Nat.le_succ _⟩
  | watch h => exact ⟨rfl, rfl, rfl, le_rfl, le_rfl⟩

theorem follows_of_touches (h : ReflTransGen (Touch limits watches) t t') : t.Follows t':= by
  induction h with
  | refl => exact .refl t
  | tail _ hlast ih => exact ih.trans hlast.follows

/-- Every target is touched, and nothing else changes but what is pending. -/
structure Shared.Touches (limits : WatcherLimits) (watches : Prop) (shared after : Shared) :
    Prop where
  targets : ∀ id t, shared.targets.lookup id = some t →
    ∃ t', after.targets.lookup id = some t' ∧ ReflTransGen (Touch limits watches) t t'
  absent : ∀ id, shared.targets.lookup id = none → after.targets.lookup id = none
  roots : after.roots = shared.roots
  globalGeneration : shared.globalGeneration ≤ after.globalGeneration
  registrations : after.nextRegistrationGeneration = shared.nextRegistrationGeneration
  rebuild : after.backendRebuildRequested = shared.backendRebuildRequested

variable {shared after : Shared} {id : String} {generation : ℕ}

namespace Shared

variable {last : Shared}

theorem Touches.refl (shared : Shared) : shared.Touches limits watches shared :=
  ⟨fun _ t h => ⟨t, h, .refl⟩, fun _ h => h, rfl, le_rfl, rfl, rfl⟩

theorem Touches.trans (h : shared.Touches limits watches after)
    (h' : after.Touches limits watches last) :
    shared.Touches limits watches last where
  targets id t ht := by
    obtain ⟨t', ht', htouch⟩ := h.targets id t ht
    obtain ⟨t'', ht'', htouch'⟩ := h'.targets id t' ht'
    exact ⟨t'', ht'', htouch.trans htouch'⟩
  absent id hid := h'.absent id (h.absent id hid)
  roots := h'.roots.trans h.roots
  globalGeneration := h.globalGeneration.trans h'.globalGeneration
  registrations := h'.registrations.trans h.registrations
  rebuild := h'.rebuild.trans h.rebuild

/-- A target that is there was there before. -/
theorem Touches.before (h : shared.Touches limits watches after)
    (ht' : after.targets.lookup id = some t') :
    ∃ t, shared.targets.lookup id = some t ∧ ReflTransGen (Touch limits watches) t t' := by
  cases ht : shared.targets.lookup id with
  | none => cases (h.absent id ht).symm.trans ht'
  | some t =>
    obtain ⟨found, hfound, htouch⟩ := h.targets id t ht
    exact ⟨t, rfl, Option.some.inj (hfound.symm.trans ht') ▸ htouch⟩

/-- All targets are changed in the same way. -/
theorem touches_mapValues {f : TargetState → TargetState}
    (hf : ∀ t, ReflTransGen (Touch limits watches) t (f t))
    (hgeneration : shared.globalGeneration ≤ generation) (pending : Bool)
    (changed : Finset String) :
    shared.Touches limits watches { shared with
      targets := shared.targets.mapValues f
      globalGeneration := generation
      globalChangePending := pending
      changedTargets := changed } where
  targets id t ht := ⟨f t, by simp [ht], hf t⟩
  absent id hid := by simp [hid]
  roots := rfl
  globalGeneration := hgeneration
  registrations := rfl
  rebuild := rfl

/-- One target is changed. -/
theorem touches_insert (ht : shared.targets.lookup id = some t)
    (h : ReflTransGen (Touch limits watches) t t') :
    shared.Touches limits watches { shared with targets := shared.targets.insert id t' } where
  targets other found hfound := by
    simp only [Map.lookup_insert_ite]
    split
    · subst other
      exact ⟨t', rfl, Option.some.inj (ht.symm.trans hfound) ▸ h⟩
    · exact ⟨found, hfound, .refl⟩
  absent other hother := by
    have hne : other ≠ id := by
      rintro rfl
      cases ht.symm.trans hother
    simpa only [AList.lookup_insert_ne hne] using hother
  roots := rfl
  globalGeneration := le_rfl
  registrations := rfl
  rebuild := rfl

theorem enqueueGlobalChange_touches (shared : Shared) :
    shared.Touches limits watches (shared.enqueueGlobalChange .unbounded) :=
  touches_mapValues (fun t => .single (.full t)) (Nat.le_succ _) true ∅

theorem enqueueTargetChange_touches (id : String) (shared : Shared) :
    shared.Touches limits watches (shared.enqueueTargetChange .unbounded limits id) := by
  have hinsert : shared.Touches limits watches
      { shared with changedTargets := insert id shared.changedTargets } :=
    ⟨fun _ t h => ⟨t, h, .refl⟩, fun _ h => h, rfl, le_rfl, rfl, rfl⟩
  unfold enqueueTargetChange
  dsimp only
  split
  · exact .refl shared
  · split
    · exact hinsert.trans (enqueueGlobalChange_touches _)
    · exact hinsert

theorem degradeAll_touches (now : ℕ) (shared : Shared) :
    shared.Touches limits watches (shared.degradeAll .unbounded limits now) :=
  (touches_mapValues (fun t => .single (.degrade now t)) le_rfl _ _).trans
    (enqueueGlobalChange_touches _)

variable (kind : EventKind)

theorem markPath_touches (now : ℕ) (root : Root) (path : EventPath) (t : TargetState) :
    ReflTransGen (Touch limits watches) t (markPath .unbounded limits kind now root path t) := by
  unfold markPath
  split
  · split
    · exact .tail (.single (.full t)) (.degrade now _)
    · exact .single (.full t)
  · split
    · exact .single (.full t)
    · exact .single (.dirty _ t)

theorem handlePath_touches (now : ℕ) (step : Shared × List String) (path : EventPath) :
    step.1.Touches limits watches (handlePath .unbounded limits kind now step path).1 := by
  unfold handlePath
  dsimp only
  split
  · exact .refl _
  · split
    · exact .refl _
    · next ht => exact touches_insert ht (markPath_touches kind now _ path _)

theorem handlePaths_touches (now : ℕ) (paths : List EventPath) (step : Shared × List String) :
    step.1.Touches limits watches (run (handlePath .unbounded limits kind now) step paths).1 := by
  have hstep : ∀ (s : Shared × List String) path, step.1.Touches limits watches s.1 →
      step.1.Touches limits watches (handlePath .unbounded limits kind now s path).1 :=
    fun s path h => h.trans (handlePath_touches kind now s path)
  exact run_invariant hstep paths (.refl _)

theorem enqueueTargetChanges_touches (ids : List String) (shared : Shared) :
    shared.Touches limits watches
      (run (fun shared id => shared.enqueueTargetChange .unbounded limits id) shared ids) :=
  run_invariant (fun s id h => h.trans (enqueueTargetChange_touches id s)) ids (.refl shared)

theorem handleEvent_touches (now : ℕ) (event : Event) (shared : Shared) :
    shared.Touches limits watches (shared.handleEvent .unbounded limits now event) := by
  unfold handleEvent
  split
  · exact enqueueGlobalChange_touches shared
  split
  · exact .refl shared
  · split
    · exact enqueueGlobalChange_touches shared
    · exact (handlePaths_touches event.kind now event.paths (shared, [])).trans
        (enqueueTargetChanges_touches _ _)

/-- A registration is finished, or found to be gone. -/
theorem finishRegistration_touches (id fingerprint : String) (root : Root) (generation : ℕ)
    (succeeded : Bool) (now : ℕ) (shared : Shared) :
    shared.Touches limits True (shared.finishRegistration .unbounded limits id fingerprint root
      generation succeeded now).1 := by
  unfold finishRegistration
  dsimp only
  split
  · next t hmatching =>
    have ht := (Option.filter_eq_some_iff.mp hmatching).1
    refine (touches_insert ht ?_).trans (enqueueTargetChange_touches id _)
    split
    · exact .single (.watch trivial t)
    · exact .single (.degrade now t)
  · exact enqueueTargetChange_touches id shared

theorem settleRetry_touches (candidate : RetryCandidate) (succeeded : Bool) (now : ℕ)
    (shared : Shared) :
    shared.Touches limits True
      (shared.settleRetry .unbounded limits candidate succeeded now) := by
  unfold settleRetry
  dsimp only
  split
  · exact .refl shared
  next t hmatching =>
  have ht := (Option.filter_eq_some_iff.mp hmatching).1
  refine (touches_insert ht ?_).trans (enqueueTargetChange_touches candidate.targetId _)
  split
  · exact .tail (.single (.watch trivial t)) (.full _)
  · exact .single (.degrade now t)

theorem drainChanges_touches
    (shared : Shared) : shared.Touches limits watches shared.drainChanges.1 :=
  ⟨fun _ t h => ⟨t, h, .refl⟩, fun _ h => h, rfl, le_rfl, rfl, rfl⟩

end Shared

/-! ## Counters in range -/

/-- No generation of the target has passed the machine's words. -/
abbrev TargetState.InRange (t : TargetState) : Prop :=
  t.targetGeneration < 2 ^ 64 ∧ t.healthGeneration < 2 ^ 64

/-- No generation has passed the machine's words. -/
def Shared.InRange (shared : Shared) : Prop :=
  shared.globalGeneration < 2 ^ 64 ∧ shared.nextRegistrationGeneration < 2 ^ 64 ∧
    ∀ entry ∈ shared.targets.entries, entry.2.InRange

instance Shared.InRange.decidable (shared : Shared) : Decidable shared.InRange :=
  inferInstanceAs (Decidable (_ ∧ _ ∧ _))

theorem Shared.InRange.target (h : shared.InRange) (ht : shared.targets.lookup id = some t) :
    t.InRange :=
  h.2.2 ⟨id, t⟩ (AList.mem_lookup_iff.mp ht)

theorem Shared.InRange.of_touches (h : shared.Touches limits watches after)
    (hafter : after.InRange) : shared.InRange := by
  refine ⟨h.globalGeneration.trans_lt hafter.1, h.registrations ▸ hafter.2.1, ?_⟩
  rintro ⟨id, t⟩ hentry
  obtain ⟨t', ht', htouch⟩ := h.targets id t (AList.mem_lookup_iff.mpr hentry)
  have hfollows := follows_of_touches htouch
  have hrange := hafter.target ht'
  exact ⟨hfollows.generation.trans_lt hrange.1, hfollows.health.trans_lt hrange.2⟩

/-- Two steps agree in range if their branches do. -/
theorem ite_agree {α : Type} {P : α → Prop} {c : Prop} [Decidable c] {a a' b b' : α}
    (ha : P a → a' = a) (hb : P b → b' = b) (h : P (if c then a else b)) :
    (if c then a' else b') = if c then a else b := by
  split at h
  · next hc => rw [if_pos hc, if_pos hc, ha h]
  · next hc => rw [if_neg hc, if_neg hc, hb h]

variable {value : ℕ}

theorem next_machine (h : Counting.unbounded.next value < 2 ^ 64) :
    Counting.machine.next value = Counting.unbounded.next value := by
  have hmod : (value + 1) % 2 ^ 64 = value + 1 := Nat.mod_eq_of_lt h
  show nextNonzero value = value + 1
  simp only [nextNonzero, hmod]
  exact if_neg (Nat.succ_ne_zero value)

theorem fetchAdd_machine (h : Counting.unbounded.fetchAdd value < 2 ^ 64) :
    Counting.machine.fetchAdd value = Counting.unbounded.fetchAdd value :=
  Nat.mod_eq_of_lt h

variable {now : ℕ}

namespace TargetState

theorem markFull_machine (h : (t.markFull .unbounded).targetGeneration < 2 ^ 64) :
    t.markFull .machine = t.markFull .unbounded := by
  simp only [markFull, next_machine h]

theorem markDirty_machine {maximum : ℕ} {directory : Directory}
    (h : (t.markDirty .unbounded maximum directory).targetGeneration < 2 ^ 64) :
    t.markDirty .machine maximum directory = t.markDirty .unbounded maximum directory := by
  rw [markDirty_generation] at h
  simp only [markDirty, next_machine h]

theorem degrade_machine {policy : RetryPolicy}
    (h : (t.degrade .unbounded policy now).healthGeneration < 2 ^ 64) :
    t.degrade .machine policy now = t.degrade .unbounded policy now := by
  simp only [degrade, next_machine h]

end TargetState

namespace Shared

theorem enqueueGlobalChange_machine (h : (shared.enqueueGlobalChange .unbounded).InRange) :
    shared.enqueueGlobalChange .machine = shared.enqueueGlobalChange .unbounded := by
  have htargets : shared.targets.mapValues (·.markFull .machine) =
      shared.targets.mapValues (·.markFull .unbounded) := by
    refine Map.mapValues_congr fun id t ht => ?_
    have hfound : (shared.enqueueGlobalChange .unbounded).targets.lookup id =
        some (t.markFull .unbounded) := by simp [enqueueGlobalChange, ht]
    exact TargetState.markFull_machine (h.target hfound).1
  simp only [enqueueGlobalChange, fetchAdd_machine h.1, htargets]

theorem enqueueTargetChange_machine
    (h : (shared.enqueueTargetChange .unbounded limits id).InRange) :
    shared.enqueueTargetChange .machine limits id =
      shared.enqueueTargetChange .unbounded limits id := by
  unfold enqueueTargetChange at h ⊢
  exact ite_agree (fun _ => rfl) (ite_agree enqueueGlobalChange_machine fun _ => rfl) h

theorem degradeAll_machine (h : (shared.degradeAll .unbounded limits now).InRange) :
    shared.degradeAll .machine limits now = shared.degradeAll .unbounded limits now := by
  have hdegraded := InRange.of_touches (@enqueueGlobalChange_touches limits False _) h
  have htargets : shared.targets.mapValues (·.degrade .machine limits.retryPolicy now) =
      shared.targets.mapValues (·.degrade .unbounded limits.retryPolicy now) := by
    refine Map.mapValues_congr fun id t ht => ?_
    have hfound : (shared.targets.mapValues
        (·.degrade .unbounded limits.retryPolicy now)).lookup id =
          some (t.degrade .unbounded limits.retryPolicy now) := by simp [ht]
    exact TargetState.degrade_machine (hdegraded.target hfound).2
  unfold degradeAll
  rw [htargets]
  exact enqueueGlobalChange_machine h

variable {kind : EventKind} {path : EventPath} {root : Root}

theorem markPath_machine (h : (markPath .unbounded limits kind now root path t).InRange) :
    markPath .machine limits kind now root path t =
      markPath .unbounded limits kind now root path t := by
  unfold markPath at h ⊢
  refine ite_agree (P := TargetState.InRange) (ite_agree (fun h => ?_) fun h =>
    TargetState.markFull_machine h.1) (fun h => ?_) h
  · rw [TargetState.markFull_machine h.1]
    exact TargetState.degrade_machine h.2
  · cases hparent : safeRelativeParent root path with
    | none =>
      rw [hparent] at h
      exact TargetState.markFull_machine h.1
    | some directory =>
      rw [hparent] at h
      exact TargetState.markDirty_machine h.1

theorem handlePath_machine {step : Shared × List String}
    (h : (handlePath .unbounded limits kind now step path).1.InRange) :
    handlePath .machine limits kind now step path =
      handlePath .unbounded limits kind now step path := by
  unfold handlePath at h ⊢
  dsimp only at h ⊢
  cases hroute : routePath step.1.roots path with
  | none => rfl
  | some routed =>
    simp only [hroute] at h ⊢
    cases ht : step.1.targets.lookup routed.1 with
    | none => rfl
    | some t =>
      simp only [ht] at h ⊢
      rw [markPath_machine (h.target (AList.lookup_insert _))]

theorem handleEvent_machine {event : Event}
    (h : (shared.handleEvent .unbounded limits now event).InRange) :
    shared.handleEvent .machine limits now event =
      shared.handleEvent .unbounded limits now event := by
  unfold handleEvent at h ⊢
  refine ite_agree enqueueGlobalChange_machine (ite_agree (fun _ => rfl)
    (ite_agree enqueueGlobalChange_machine fun h => ?_)) h
  -- first the paths, then the targets they belong to
  obtain ⟨hmarked, hqueued⟩ := run_congr
    (fun s id => InRange.of_touches (@enqueueTargetChange_touches limits False id s))
    (fun _ _ => enqueueTargetChange_machine) _ h
  obtain ⟨-, hpaths⟩ := run_congr
    (P := fun s => s.1.InRange)
    (fun s path => InRange.of_touches (@handlePath_touches limits False event.kind now s path))
    (fun _ _ => handlePath_machine) _ hmarked
  exact (congrArg (fun step => run _ step.1 step.2) hpaths).trans hqueued

variable {fingerprint : String}

theorem replaceTargetState_machine
    (h : (shared.replaceTargetState .unbounded limits id fingerprint root now).1.InRange) :
    shared.replaceTargetState .machine limits id fingerprint root now =
      shared.replaceTargetState .unbounded limits id fingerprint root now := by
  have hreplaced := InRange.of_touches (@enqueueTargetChange_touches limits False id _) h
  have hgeneration := next_machine hreplaced.2.1
  have hfull := TargetState.markFull_machine (hreplaced.target (AList.lookup_insert _)).1
  unfold replaceTargetState
  simp only [hgeneration, hfull]
  rw [enqueueTargetChange_machine h]

variable {succeeded : Bool}

theorem finishRegistration_machine
    (h : (shared.finishRegistration .unbounded limits id fingerprint root generation succeeded
      now).1.InRange) :
    shared.finishRegistration .machine limits id fingerprint root generation succeeded now =
      shared.finishRegistration .unbounded limits id fingerprint root generation succeeded now := by
  unfold finishRegistration at h ⊢
  dsimp only at h ⊢
  split
  swap
  · next hmatching =>
    simp only [hmatching] at h
    rw [enqueueTargetChange_machine h]
  next t hmatching =>
  simp only [hmatching] at h
  have hfinished := InRange.of_touches (@enqueueTargetChange_touches limits False id _) h
  cases succeeded with
  | true =>
    simp only [if_true] at h ⊢
    rw [enqueueTargetChange_machine h]
  | false =>
    have hdegrade := TargetState.degrade_machine (hfinished.target (AList.lookup_insert _)).2
    rw [hdegrade, enqueueTargetChange_machine h]

theorem retire_machine (h : (shared.retire .unbounded limits id).InRange) :
    shared.retire .machine limits id = shared.retire .unbounded limits id := by
  unfold retire at h ⊢
  split
  · rfl
  · next t ht =>
    simp only [ht] at h
    exact enqueueTargetChange_machine h

theorem settleRetry_machine {candidate : RetryCandidate}
    (h : (shared.settleRetry .unbounded limits candidate succeeded now).InRange) :
    shared.settleRetry .machine limits candidate succeeded now =
      shared.settleRetry .unbounded limits candidate succeeded now := by
  unfold settleRetry at h ⊢
  dsimp only at h ⊢
  split
  · rfl
  next t hmatching =>
  simp only [hmatching] at h
  have hsettled :=
    InRange.of_touches (@enqueueTargetChange_touches limits False candidate.targetId _) h
  have hrange := hsettled.target (AList.lookup_insert _)
  cases succeeded with
  | true =>
    simp only [if_true] at h hrange ⊢
    rw [TargetState.markFull_machine hrange.1, enqueueTargetChange_machine h]
  | false =>
    simp only [Bool.false_eq_true, if_false] at h hrange ⊢
    rw [TargetState.degrade_machine hrange.2, enqueueTargetChange_machine h]

end Shared

namespace SoftDiskWatcher

variable {removes : Root → Root → Bool} {w : SoftDiskWatcher}

theorem advance_machine {reply : BackendReply}
    (h : (w.advance .unbounded limits removes now reply).shared.InRange) :
    w.advance .machine limits removes now reply = w.advance .unbounded limits removes now reply := by
  unfold advance at h ⊢
  cases hgate : w.gate with
  | replacing r =>
    simp only [hgate] at h ⊢
    rw [Shared.replaceTargetState_machine h]
  | finishing r generation began succeeded =>
    simp only [hgate] at h ⊢
    rw [Shared.finishRegistration_machine h]
  | settling candidate rest began succeeded =>
    simp only [hgate] at h ⊢
    rw [Shared.settleRetry_machine h]
  | degrading unfinished began =>
    simp only [hgate] at h ⊢
    rw [Shared.degradeAll_machine h]
  | retrying candidates began => cases candidates <;> rfl
  | _ => rfl

/-- **In range the machine counts as if there were no bound.** -/
theorem step_machine {action : WatcherAction}
    (h : (w.step .unbounded limits removes action).shared.InRange) :
    w.step .machine limits removes action = w.step .unbounded limits removes action := by
  have hact : w.act .machine limits removes action = w.act .unbounded limits removes action := by
    unfold step at h
    unfold act at h ⊢
    cases action with
    | event now event =>
      simp only at h ⊢
      rw [Shared.handleEvent_machine h]
    | degrade now =>
      simp only at h ⊢
      split
      · rfl
      · next hdegrades =>
        simp only [hdegrades] at h
        rw [Shared.degradeAll_machine h]
    | advance now reply => exact advance_machine h
    | retire id =>
      simp only at h ⊢
      rw [Shared.retire_machine h]
    | _ => rfl
  simp only [step, hact]

end SoftDiskWatcher

end DatabasesEverywhere.Watcher
