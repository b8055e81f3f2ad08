import DatabasesEverywhere.Watcher.Changes

/-!
# Watcher/Backend — a target that is taken as watched is watched

A target is `Watching` once its registration or a retry has installed a watch.  An error of the
backend degrades all targets, and from then on their watches count for nothing:

    install watch ──▸ [ error: flag, degrade all ] ──▸ finish: Watching

A retry compares the health generation before it takes a target as watched, a registration does not.
`undisturbed` is the condition under which that does no harm, and **then watching means watched**
(`watching_means_watched`); `disturbedRun_unwatched` is what happens without it.
-/

open Foundations Relation

namespace DatabasesEverywhere.Watcher

/-! ## Targets that only get worse -/

variable {t' t : TargetState} {limits : WatcherLimits}

theorem Touch.degraded (h : Touch limits False t t')
    (hdegraded : t.health = .degraded) : t'.health = .degraded := by
  cases h with
  | full => exact hdegraded
  | dirty directory =>
    unfold TargetState.markDirty
    dsimp only
    repeat' split
    all_goals exact hdegraded
  | degrade now => rfl
  | watch hfalse => exact hfalse.elim

theorem watching_of_worse (h : t.health = .degraded → t'.health = .degraded)
    (hwatching : t'.health = .watching) : t.health = .watching := by
  cases hhealth : t.health with
  | watching => rfl
  | degraded => cases (h hhealth).symm.trans hwatching

/-- Targets may go, but none comes, changes its registration or becomes watched. -/
structure Shared.Fades (shared after : Shared) : Prop where
  targets : ∀ {id t'}, after.targets.lookup id = some t' → ∃ t, shared.targets.lookup id = some t ∧
    t.Follows t' ∧ (t.health = .degraded → t'.health = .degraded)

variable {generation : ℕ}

namespace Shared

variable {shared after last : Shared}

theorem Touches.fades (h : shared.Touches limits False after) : shared.Fades after := by
  refine ⟨fun ht' => ?_⟩
  obtain ⟨t, ht, hchain⟩ := h.before ht'
  exact ⟨t, ht, follows_of_touches hchain, chain_invariant (fun _ _ htouch => htouch.degraded) hchain⟩

theorem Fades.refl (shared : Shared) : shared.Fades shared :=
  ⟨fun {_ t} ht => ⟨t, ht, .refl t, fun h => h⟩⟩

theorem Fades.trans (h : shared.Fades after) (h' : after.Fades last) : shared.Fades last := by
  refine ⟨fun ht'' => ?_⟩
  obtain ⟨t', ht', hfollows', hdegraded'⟩ := h'.targets ht''
  obtain ⟨t, ht, hfollows, hdegraded⟩ := h.targets ht'
  exact ⟨t, ht, hfollows.trans hfollows', fun hold => hdegraded' (hdegraded hold)⟩

variable (batch : DirtyBatch)

theorem acknowledge_fades (shared : Shared) : shared.Fades (shared.acknowledge batch).1 := by
  unfold acknowledge
  dsimp only
  split
  · exact .refl shared
  next target hmatching =>
  obtain ⟨htarget, -⟩ := Option.filter_eq_some_iff.mp hmatching
  refine ⟨fun {id t'} ht' => ?_⟩
  rcases Map.lookup_insert_eq ht' with ⟨rfl, rfl⟩ | ⟨-, hold⟩
  · exact ⟨target, htarget, ⟨rfl, rfl, rfl, le_rfl, le_rfl⟩, fun h => h⟩
  · exact ⟨t', hold, .refl t', fun h => h⟩

theorem acknowledge_rebuild (shared : Shared) :
    (shared.acknowledge batch).1.backendRebuildRequested = shared.backendRebuildRequested := by
  unfold acknowledge
  dsimp only
  split <;> rfl

theorem retire_fades (id : String) (shared : Shared) :
    shared.Fades (shared.retire .unbounded limits id) := by
  unfold retire
  split
  · exact .refl shared
  next target _ =>
  have herased : shared.Fades { shared with
      targets := shared.targets.erase id
      roots := shared.roots.erase target.root
      changedTargets := shared.changedTargets.erase id } :=
    ⟨fun {_ t} ht => ⟨t, Map.lookup_of_erase ht, .refl t, fun h => h⟩⟩
  exact herased.trans (enqueueTargetChange_touches id _).fades

theorem retire_rebuild (id : String) (shared : Shared) :
    (shared.retire .unbounded limits id).backendRebuildRequested =
      shared.backendRebuildRequested := by
  unfold retire
  split
  · rfl
  · exact (@enqueueTargetChange_touches limits False id _).rebuild

variable {id fingerprint other : String} {root : Root} {now : ℕ}

/-- After a registration is entered there are its target and the others. -/
theorem replaceTargetState_targets
    (ht' : (shared.replaceTargetState .unbounded limits id fingerprint root now).1.targets.lookup
      other = some t') :
    other = id ∧ t'.registrationGeneration = shared.nextRegistrationGeneration + 1 ∧
        t'.fingerprint = fingerprint ∧ t'.root = root ∧ t'.health = .degraded ∨
      other ≠ id ∧ ∃ t, shared.targets.lookup other = some t ∧ t.Follows t' ∧
        (t.health = .degraded → t'.health = .degraded) := by
  have htouch := @enqueueTargetChange_touches limits False id
    { shared with
      changedTargets := shared.changedTargets.erase id
      nextRegistrationGeneration := shared.nextRegistrationGeneration + 1
      roots := (shared.rootsWithout id).insert root id
      targets := shared.targets.insert id ((TargetState.new fingerprint root
        (shared.nextRegistrationGeneration + 1) shared.globalGeneration now).markFull .unbounded) }
  obtain ⟨t, ht, hfollows, hdegraded⟩ := htouch.fades.targets ht'
  rcases Map.lookup_insert_eq ht with ⟨rfl, rfl⟩ | ⟨hne, hold⟩
  · exact .inl ⟨rfl, hfollows.registration, hfollows.fingerprint, hfollows.root, hdegraded rfl⟩
  · exact .inr ⟨hne, t, hold, hfollows, hdegraded⟩

theorem replaceTargetState_rebuild (id fingerprint : String) (root : Root) (now : ℕ)
    (shared : Shared) :
    (shared.replaceTargetState .unbounded limits id fingerprint root now).1.backendRebuildRequested =
      shared.backendRebuildRequested :=
  (@enqueueTargetChange_touches limits False id _).rebuild

variable {succeeded : Bool}

/-- A target that a registration makes watched is the one that it entered. -/
theorem finishRegistration_targets
    (ht' : (shared.finishRegistration .unbounded limits id fingerprint root generation succeeded
      now).1.targets.lookup other = some t') :
    ∃ t, shared.targets.lookup other = some t ∧ t.Follows t' ∧
      ((t.health = .degraded → t'.health = .degraded) ∨
        other = id ∧ succeeded = true ∧ t.root = root) := by
  unfold finishRegistration at ht'
  dsimp only at ht'
  split at ht'
  swap
  · obtain ⟨t, ht, hfollows, hdegraded⟩ :=
      (@enqueueTargetChange_touches limits False id _).fades.targets ht'
    exact ⟨t, ht, hfollows, .inl hdegraded⟩
  next found hmatching =>
  obtain ⟨hfound, hsame⟩ := Option.filter_eq_some_iff.mp hmatching
  simp only [Bool.and_eq_true, decide_eq_true_eq] at hsame
  obtain ⟨t, ht, hfollows, hdegraded⟩ :=
    (@enqueueTargetChange_touches limits False id _).fades.targets ht'
  rcases Map.lookup_insert_eq ht with ⟨rfl, rfl⟩ | ⟨-, hold⟩
  · cases succeeded with
    | true =>
      exact ⟨found, hfound, ⟨hfollows.fingerprint, hfollows.root, hfollows.registration,
        hfollows.generation, hfollows.health⟩, .inr ⟨rfl, rfl, hsame.2⟩⟩
    | false =>
      have hworse := (@Touch.degrade limits False now found).follows
      exact ⟨found, hfound, hworse.trans hfollows, .inl fun _ => hdegraded rfl⟩
  · exact ⟨t, hold, hfollows, .inl hdegraded⟩

/-- A watch is stale if the registration is gone. -/
theorem finishRegistration_stale
    (h : (shared.finishRegistration .unbounded limits id fingerprint root generation succeeded
      now).2 = true) (ht : shared.targets.lookup id = some t) :
    ¬ (t.registrationGeneration = generation ∧ t.fingerprint = fingerprint ∧ t.root = root) := by
  rintro ⟨hregistration, hfingerprint, hroot⟩
  have hmatching : (shared.targets.lookup id).filter (fun target =>
      target.registrationGeneration = generation && target.fingerprint = fingerprint &&
        target.root = root) = some t := by
    rw [ht]
    exact Option.filter_some_pos (by simp [hregistration, hfingerprint, hroot])
  simp only [finishRegistration, hmatching] at h
  cases h

/-- The candidates of a retry are degraded targets, each of them once. -/
theorem retryCandidates_targets :
    ((shared.retryCandidates now).map (·.targetId)).Nodup ∧
      ∀ c ∈ shared.retryCandidates now, ∃ t, shared.targets.lookup c.targetId = some t ∧
        t.root = c.root ∧ t.health = .degraded ∧ t.healthGeneration = c.healthGeneration := by
  constructor
  · have hdue : ((shared.targets.entries.filter fun entry =>
        entry.2.health = .degraded && entry.2.retryAt ≤ now).map (·.1)).Nodup :=
      List.Nodup.sublist (List.filter_sublist.map _) shared.targets.nodupKeys
    simpa [retryCandidates, Function.comp_def] using hdue
  · intro c hc
    obtain ⟨⟨id, t⟩, hentry, rfl⟩ := List.mem_map.mp hc
    obtain ⟨hmem, hdue⟩ := List.mem_filter.mp hentry
    simp only [Bool.and_eq_true, decide_eq_true_eq] at hdue
    exact ⟨t, AList.mem_lookup_iff.mpr hmem, rfl, hdue.1, rfl⟩

/-- A target that a retry makes watched is its candidate, and was not degraded meanwhile. -/
theorem settleRetry_targets {candidate : RetryCandidate}
    (ht' : (shared.settleRetry .unbounded limits candidate succeeded now).targets.lookup other =
      some t') :
    ∃ t, shared.targets.lookup other = some t ∧ t.Follows t' ∧
      ((t.health = .degraded → t'.health = .degraded) ∨
        other = candidate.targetId ∧ succeeded = true ∧
          t.healthGeneration = candidate.healthGeneration) := by
  unfold settleRetry at ht'
  dsimp only at ht'
  split at ht'
  · exact ⟨t', ht', .refl t', .inl fun h => h⟩
  next found hmatching =>
  obtain ⟨hfound, hsame⟩ := Option.filter_eq_some_iff.mp hmatching
  simp only [Bool.and_eq_true, decide_eq_true_eq] at hsame
  obtain ⟨t, ht, hfollows, hdegraded⟩ :=
    (@enqueueTargetChange_touches limits False candidate.targetId _).fades.targets ht'
  rcases Map.lookup_insert_eq ht with ⟨rfl, rfl⟩ | ⟨-, hold⟩
  swap
  · exact ⟨t, hold, hfollows, .inl hdegraded⟩
  cases succeeded with
  | true =>
    have hmarked := (@Touch.full limits True
      { found with health := .watching, retryAttempts := 0 }).follows
    exact ⟨found, hfound, TargetState.Follows.trans ⟨hmarked.fingerprint, hmarked.root,
      hmarked.registration, hmarked.generation, hmarked.health⟩ hfollows,
      .inr ⟨rfl, rfl, hsame.2⟩⟩
  | false =>
    have hworse := (@Touch.degrade limits False now found).follows
    exact ⟨found, hfound, hworse.trans hfollows, .inl fun _ => hdegraded rfl⟩

/-- **After `degrade_all` no target is watched**, and every health generation has grown. -/
theorem degradeAll_degraded
    (ht' : (shared.degradeAll .unbounded limits now).targets.lookup id = some t') :
    t'.health = .degraded ∧
      ∃ t, shared.targets.lookup id = some t ∧ t.healthGeneration < t'.healthGeneration := by
  simp only [degradeAll, enqueueGlobalChange, Map.lookup_mapValues, Option.map_map,
    Option.map_eq_some_iff] at ht'
  obtain ⟨t, ht, rfl⟩ := ht'
  exact ⟨rfl, t, ht, Nat.lt_succ_self _⟩

end Shared

/-! ## What holds while the gate is held -/

def Gate.degradePending : Gate → Bool
  | abandoning _ _ | requesting _ _ | degrading _ _ => true
  | _ => false

namespace SoftDiskWatcher

variable (w : SoftDiskWatcher)

/-- The backend there is now watches the root. -/
def Live (root : Root) : Prop :=
  ∃ watches, w.backend.watcher = some watches ∧ root ∈ watches

/-- A call of `degrade_all` has yet to take the lock. -/
def DegradePending : Prop := 0 < w.degrades ∨ w.gate.degradePending = true

/-- The root is watched, or the targets are yet to be degraded or the backend to be rebuilt. -/
def Covered (root : Root) : Prop :=
  w.Live root ∨ w.DegradePending ∨ w.shared.backendRebuildRequested = true

variable (r : Registration)

/-- The target that is registered is there as it was entered, or gone. -/
def Registering (generation : ℕ) : Prop :=
  ∀ id t, w.shared.targets.lookup id = some t → (t.root = r.root → id = r.targetId) ∧
    (id = r.targetId → t.registrationGeneration = generation ∧ t.fingerprint = r.fingerprint ∧
      t.root = r.root ∧ t.health = .degraded)

/-- Only the target that is registered can have its old root. -/
def OldRoot (oldRoot : Option Root) : Prop :=
  ∀ old, oldRoot = some old → ∀ id t, w.shared.targets.lookup id = some t → t.root = old →
    id = r.targetId

/-- The flag was clear; if it is set now, the degrade is to come or has reached the target. -/
def FlagSeen : Prop :=
  w.shared.backendRebuildRequested = true → 0 < w.degrades ∨
    ∀ t, w.shared.targets.lookup r.targetId = some t → t.healthGeneration ≠ 0

/-- The candidates of a retry are there as they were collected, or gone. -/
structure Retrying (w : SoftDiskWatcher) (candidates : List RetryCandidate) : Prop where
  apart : (candidates.map (·.targetId)).Nodup
  roots : ∀ c ∈ candidates, ∀ id t, w.shared.targets.lookup id = some t → t.root = c.root →
    id = c.targetId
  targets : ∀ c ∈ candidates, ∀ t, w.shared.targets.lookup c.targetId = some t →
    t.root = c.root ∧ t.health = .degraded ∧ c.healthGeneration ≤ t.healthGeneration

/-- The flag was taken; if it is set again, the degrade is to come or has reached the targets. -/
def FlagTaken (candidates : List RetryCandidate) : Prop :=
  w.shared.backendRebuildRequested = true → 0 < w.degrades ∨
    ∀ c ∈ candidates, ∀ t, w.shared.targets.lookup c.targetId = some t →
      c.healthGeneration < t.healthGeneration

/-- No target has the root. -/
def Unowned (root : Root) : Prop :=
  ∀ id t, w.shared.targets.lookup id = some t → t.root ≠ root

/-- What the holder of the gate relies on. -/
def GateSound : Prop :=
  match w.gate with
  | .free | .replacing _ | .abandoning none _ | .requesting none _ | .degrading none _ => True
  | .checkingFlag r oldRoot generation => w.Registering r generation ∧ w.OldRoot r oldRoot
  | .unwatchingOld r oldRoot generation _ =>
    w.Registering r generation ∧ w.OldRoot r oldRoot ∧ w.FlagSeen r
  | .ensuring r generation _ | .watching r generation _ | .undoing r generation _ _ =>
    w.Registering r generation ∧ w.FlagSeen r
  | .finishing r generation _ watchSucceeded =>
    w.Registering r generation ∧ (watchSucceeded = true → w.FlagSeen r ∧ w.Live r.root)
  | .abandoning (some (r, generation)) _ | .requesting (some (r, generation)) _
  | .degrading (some (r, generation)) _ => w.Registering r generation
  | .dropping root _ => w.Unowned root
  | .takingFlag candidates _ => w.Retrying candidates
  | .rebuilding candidates _ | .retrying candidates _ =>
    w.Retrying candidates ∧ w.FlagTaken candidates
  | .undoingRetry candidate rest _ _ =>
    w.Retrying (candidate :: rest) ∧ w.FlagTaken (candidate :: rest)
  | .settling candidate rest _ succeeded =>
    w.Retrying (candidate :: rest) ∧ w.FlagTaken (candidate :: rest) ∧
      (succeeded = true → w.Live candidate.root)

structure Sound (w : SoftDiskWatcher) : Prop where
  watched : ∀ id t, w.shared.targets.lookup id = some t → t.health = .watching →
    w.Live t.root ∨ w.DegradePending
  flagged : w.shared.backendRebuildRequested = true → ∀ id t,
    w.shared.targets.lookup id = some t → t.health = .watching → w.DegradePending
  gate : w.GateSound

/-! ## Targets fade -/

section Fading

variable {w' : SoftDiskWatcher} {w} (h : w.shared.Fades w'.shared)

include h

variable {r}

theorem Registering.fade (hold : w.Registering r generation) : w'.Registering r generation := by
  intro id t' ht'
  obtain ⟨t, ht, hfollows, hdegraded⟩ := h.targets ht'
  obtain ⟨hroot, hsame⟩ := hold id t ht
  refine ⟨fun hr => hroot (hfollows.root.symm.trans hr), fun hid => ?_⟩
  obtain ⟨hregistration, hfingerprint, hroot, hhealth⟩ := hsame hid
  exact ⟨hfollows.registration.trans hregistration, hfollows.fingerprint.trans hfingerprint,
    hfollows.root.trans hroot, hdegraded hhealth⟩

theorem OldRoot.fade {oldRoot : Option Root} (hold : w.OldRoot r oldRoot) :
    w'.OldRoot r oldRoot := by
  intro old hroot id t' ht' hr
  obtain ⟨t, ht, hfollows, -⟩ := h.targets ht'
  exact hold old hroot id t ht (hfollows.root.symm.trans hr)

theorem Unowned.fade {root : Root} (hold : w.Unowned root) : w'.Unowned root := by
  intro id t' ht' hroot
  obtain ⟨t, ht, hfollows, -⟩ := h.targets ht'
  exact hold id t ht (hfollows.root.symm.trans hroot)

variable {candidates : List RetryCandidate}

theorem Retrying.fade (hold : w.Retrying candidates) : w'.Retrying candidates := by
  refine ⟨hold.apart, fun c hc id t' ht' hroot => ?_, fun c hc t' ht' => ?_⟩
  · obtain ⟨t, ht, hfollows, -⟩ := h.targets ht'
    exact hold.roots c hc id t ht (hfollows.root.symm.trans hroot)
  · obtain ⟨t, ht, hfollows, hdegraded⟩ := h.targets ht'
    obtain ⟨hroot, hhealth, hle⟩ := hold.targets c hc t ht
    exact ⟨hfollows.root.trans hroot, hdegraded hhealth, hle.trans hfollows.health⟩

variable (hrebuild : w'.shared.backendRebuildRequested = w.shared.backendRebuildRequested)
  (hdegrades : w'.degrades = w.degrades)

include hrebuild hdegrades

theorem FlagSeen.fade (hold : w.FlagSeen r) : w'.FlagSeen r := by
  intro hflag
  rcases hold (hrebuild.symm.trans hflag) with hwait | hreached
  · exact .inl (hdegrades ▸ hwait)
  refine .inr fun t' ht' => ?_
  obtain ⟨t, ht, hfollows, -⟩ := h.targets ht'
  have hne := hreached t ht
  have hle := hfollows.health
  omega

theorem FlagTaken.fade (hold : w.FlagTaken candidates) : w'.FlagTaken candidates := by
  intro hflag
  rcases hold (hrebuild.symm.trans hflag) with hwait | hreached
  · exact .inl (hdegrades ▸ hwait)
  · refine .inr fun c hc t' ht' => ?_
    obtain ⟨t, ht, hfollows, -⟩ := h.targets ht'
    exact (hreached c hc t ht).trans_le hfollows.health

end Fading

/-- What the holder of the gate relies on is still so after targets have faded. -/
theorem GateSound.fade {w w' : SoftDiskWatcher} (h : w.GateSound)
    (hfades : w.shared.Fades w'.shared) (hbackend : w'.backend = w.backend)
    (hgate : w'.gate = w.gate) (hseen : ∀ {r}, w.FlagSeen r → w'.FlagSeen r)
    (htaken : ∀ {candidates}, w.Retrying candidates → w.FlagTaken candidates →
      w'.FlagTaken candidates) :
    w'.GateSound := by
  have hlive : ∀ {root}, w.Live root → w'.Live root := fun {_} h => by rwa [Live, hbackend]
  unfold GateSound at h ⊢
  rw [hgate]
  cases hw : w.gate with
  | free | replacing r => trivial
  | checkingFlag r oldRoot generation =>
    rw [hw] at h
    exact ⟨h.1.fade hfades, h.2.fade hfades⟩
  | unwatchingOld r oldRoot generation now =>
    rw [hw] at h
    exact ⟨h.1.fade hfades, h.2.1.fade hfades, hseen h.2.2⟩
  | ensuring r generation now | watching r generation now | undoing r generation now pathNotFound =>
    rw [hw] at h
    exact ⟨h.1.fade hfades, hseen h.2⟩
  | finishing r generation now succeeded =>
    rw [hw] at h
    exact ⟨h.1.fade hfades, fun hs => ⟨hseen (h.2 hs).1, hlive (h.2 hs).2⟩⟩
  | abandoning unfinished now | requesting unfinished now | degrading unfinished now =>
    rw [hw] at h
    cases unfinished with
    | none => trivial
    | some registration => exact Registering.fade hfades h
  | dropping root now =>
    rw [hw] at h
    exact Unowned.fade hfades h
  | takingFlag candidates now =>
    rw [hw] at h
    exact Retrying.fade hfades h
  | rebuilding | retrying | undoingRetry =>
    rw [hw] at h
    exact ⟨h.1.fade hfades, htaken h.1 h.2⟩
  | settling candidate rest now succeeded =>
    rw [hw] at h
    exact ⟨h.1.fade hfades, htaken h.1 h.2.1, fun hs => hlive (h.2.2 hs)⟩

namespace Sound

variable {w} {after : Shared}

theorem watching_before (hfades : w.shared.Fades after) {id : String}
    (ht' : after.targets.lookup id = some t') (hwatching : t'.health = .watching) :
    ∃ t, w.shared.targets.lookup id = some t ∧ t.health = .watching ∧ t'.root = t.root := by
  obtain ⟨t, ht, hfollows, hdegraded⟩ := hfades.targets ht'
  exact ⟨t, ht, watching_of_worse hdegraded hwatching, hfollows.root⟩

variable (h : w.Sound)
include h

/-- **Targets fade**, and the backend and the gate stay as they are. -/
theorem fade (hfades : w.shared.Fades after)
    (hrebuild : after.backendRebuildRequested = w.shared.backendRebuildRequested) (loaded : Map ℕ ℕ)
    (log : ChangeLog) : Sound ⟨after, w.backend, w.gate, w.degrades, loaded, log⟩ := by
  have hdegrades : (⟨after, w.backend, w.gate, w.degrades, loaded, log⟩ : SoftDiskWatcher).degrades =
    w.degrades := rfl
  refine ⟨fun id t' ht' hwatching => ?_, fun hflag id t' ht' hwatching => ?_,
    h.gate.fade hfades rfl rfl (FlagSeen.fade hfades hrebuild hdegrades)
      fun _ => FlagTaken.fade hfades hrebuild hdegrades⟩
  · obtain ⟨t, ht, hhealth, hroot⟩ := watching_before hfades ht' hwatching
    rw [hroot]
    exact h.watched id t ht hhealth
  · obtain ⟨t, ht, hhealth, -⟩ := watching_before hfades ht' hwatching
    exact h.flagged (hrebuild.symm.trans hflag) id t ht hhealth

variable (log : ChangeLog)

/-- An error sets the flag, and a degrade is pending. -/
theorem backendError :
    Sound ⟨{ w.shared with backendRebuildRequested := true }, w.backend, w.gate, w.degrades + 1,
      w.loaded, log⟩ := by
  have hpending : DegradePending ⟨{ w.shared with backendRebuildRequested := true }, w.backend,
      w.gate, w.degrades + 1, w.loaded, log⟩ := .inl (Nat.succ_pos _)
  refine ⟨fun _ _ _ _ => .inr hpending, fun _ _ _ _ _ => hpending, ?_⟩
  exact h.gate.fade ⟨fun {_ t} ht => ⟨t, ht, .refl t, fun h => h⟩⟩ rfl rfl
    (fun _ _ => .inl (Nat.succ_pos _)) (fun _ _ _ => .inl (Nat.succ_pos _))

/-- **All targets are degraded.** -/
theorem degradeAll (limits : WatcherLimits) (now degrades : ℕ) (log : ChangeLog) :
    Sound ⟨w.shared.degradeAll .unbounded limits now, w.backend, w.gate, degrades, w.loaded,
      log⟩ := by
  refine ⟨fun id t' ht' hwatching => ?_, fun _ id t' ht' hwatching => ?_, ?_⟩
  · cases (Shared.degradeAll_degraded ht').1.symm.trans hwatching
  · cases (Shared.degradeAll_degraded ht').1.symm.trans hwatching
  refine h.gate.fade (Shared.degradeAll_touches now w.shared).fades rfl rfl
    (fun _ _ => .inr fun t' ht' => ?_) (fun hretrying _ _ => .inr fun c hc t' ht' => ?_)
  · obtain ⟨-, t, -, hlt⟩ := Shared.degradeAll_degraded ht'
    exact Nat.ne_zero_of_lt hlt
  · obtain ⟨-, t, ht, hlt⟩ := Shared.degradeAll_degraded ht'
    exact (hretrying.targets c hc t ht).2.2.trans_lt hlt

/-! ## The holder of the gate moves on -/

variable {gate : Gate}

/-- What the holder of the gate relies on where it is. -/
theorem at_gate (hgate : w.gate = gate) : GateSound { w with gate } :=
  hgate ▸ h.gate

/-- Nothing but the backend and the gate changes, and no watch that counts is lost. -/
theorem move {backend : BackendState}
    (hlive : ∀ id t, w.shared.targets.lookup id = some t → t.health = .watching →
      w.Live t.root → Live ⟨w.shared, backend, gate, w.degrades, w.loaded, log⟩ t.root)
    (hpending : w.gate.degradePending = false ∨ gate.degradePending = true)
    (hgate : GateSound ⟨w.shared, backend, gate, w.degrades, w.loaded, log⟩) :
    Sound ⟨w.shared, backend, gate, w.degrades, w.loaded, log⟩ := by
  have hstays : w.DegradePending →
      DegradePending ⟨w.shared, backend, gate, w.degrades, w.loaded, log⟩ :=
    Or.imp_right fun hold => hpending.resolve_left (by simp [hold])
  refine ⟨fun id t ht hwatching => ?_, fun hflag id t ht hwatching =>
    hstays (h.flagged hflag id t ht hwatching), hgate⟩
  rcases h.watched id t ht hwatching with hw | hw
  · exact .inl (hlive id t ht hwatching hw)
  · exact .inr (hstays hw)

/-- Other watches, but none is lost of a target that is taken as watched. -/
theorem rewatch {watches watches' : Finset Root} (hwatches : w.backend.watcher = some watches)
    (hpending : w.gate.degradePending = false ∨ gate.degradePending = true) (hgate : GateSound
      ⟨w.shared, { w.backend with watcher := some watches' }, gate, w.degrades, w.loaded, log⟩)
    (hkept : ∀ {id t}, w.shared.targets.lookup id = some t → t.health = .watching →
      t.root ∈ watches → t.root ∈ watches') :
    Sound
      ⟨w.shared, { w.backend with watcher := some watches' }, gate, w.degrades, w.loaded, log⟩ := by
  refine h.move log (fun id t ht hwatching hlive => ?_) hpending hgate
  obtain ⟨found, hfound, hmem⟩ := hlive
  obtain rfl := Option.some.inj (hwatches.symm.trans hfound)
  exact ⟨watches', rfl, hkept ht hwatching hmem⟩

/-- A backend may be created, and nothing was watched before. -/
theorem ensure (policy : RetryPolicy) (now : ℕ) (reply : BackendReply) (log : ChangeLog)
    (hpending : w.gate.degradePending = false ∨ gate.degradePending = true) (hgate : GateSound
      ⟨w.shared, ensureBackend policy now reply w.backend, gate, w.degrades, w.loaded, log⟩) :
    Sound ⟨w.shared, ensureBackend policy now reply w.backend, gate, w.degrades, w.loaded, log⟩ := by
  refine h.move log (fun id t ht hwatching hlive => ?_) hpending hgate
  obtain ⟨watches, hwatches, hmem⟩ := hlive
  exact ⟨watches, by simp [ensureBackend, hwatches], hmem⟩

end Sound

end SoftDiskWatcher

end DatabasesEverywhere.Watcher
