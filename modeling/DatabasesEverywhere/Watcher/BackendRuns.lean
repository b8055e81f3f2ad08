import DatabasesEverywhere.Watcher.Backend

/-!
# Watcher/BackendRuns — watching means watched, along a run

One lemma for each call that the holder of the gate can make, then every step, then every run.
-/

open Foundations Relation

namespace DatabasesEverywhere.Watcher

open Shared

/-! ## The condition -/

/-- The root that the next call of the backend stops watching. -/
def Gate.unwatchedRoot : Gate → Option Root
  | unwatchingOld _ oldRoot _ _ => oldRoot
  | undoing r _ _ _ => some r.root
  | dropping root _ => some root
  | undoingRetry candidate _ _ _ => some candidate.root
  | _ => none

namespace SoftDiskWatcher

/-- A registration whose watch is installed is finished before a degrade reaches it, and no watch is
ended that ends the watch on another target's root. -/
def undisturbed (removes : Root → Root → Bool) (w : SoftDiskWatcher) : WatcherAction → Bool
  | .advance _ _ =>
    (match w.gate with
      | .finishing r _ _ true =>
        (w.shared.targets.lookup r.targetId).all fun t => t.healthGeneration = 0
      | _ => true) &&
    w.gate.unwatchedRoot.all fun root =>
      w.shared.targets.entries.all fun entry =>
        entry.2.root = root || !removes root entry.2.root
  | _ => true

variable {limits : WatcherLimits} {removes : Root → Root → Bool} {w : SoftDiskWatcher} {now : ℕ}
  {reply : BackendReply} {root : Root} {id : String} {t : TargetState}

theorem removes_eq_false (h : w.undisturbed removes (.advance now reply) = true)
    (hroot : w.gate.unwatchedRoot = some root)
    (ht : w.shared.targets.lookup id = some t) (hne : t.root ≠ root) :
    removes root t.root = false := by
  simp only [undisturbed, hroot, Bool.and_eq_true, Option.all_some, List.all_eq_true,
    Bool.or_eq_true, decide_eq_true_eq, Bool.not_eq_true'] at h
  exact (h.2 ⟨id, t⟩ (AList.mem_lookup_iff.mp ht)).resolve_left hne

variable {gate : Gate}

theorem degrades_of_pending (hgate : w.gate = gate)
    (hfree : gate.degradePending = false) (h : w.DegradePending) : 0 < w.degrades :=
  h.resolve_right fun hpending => by rw [hgate, hfree] at hpending; cases hpending

variable {r : Registration} {generation : ℕ}

/-- A target that is taken as watched is not the one that is registered. -/
theorem Registering.root_ne (h : w.Registering r generation)
    (ht : w.shared.targets.lookup id = some t) (hwatching : t.health = .watching) :
    t.root ≠ r.root := by
  intro hroot
  obtain ⟨howner, hsame⟩ := h id t ht
  cases (hsame (howner hroot)).2.2.2.symm.trans hwatching

variable {candidates : List RetryCandidate}

/-- The candidates depend on the targets only. -/
theorem Retrying.carry {w' : SoftDiskWatcher} (h : w.Retrying candidates)
    (htargets : w'.shared.targets = w.shared.targets) :
    w'.Retrying candidates where
  apart := h.apart
  roots := by rw [htargets]; exact h.roots
  targets := by rw [htargets]; exact h.targets

theorem Retrying.root_ne (h : w.Retrying candidates) {c : RetryCandidate} (hc : c ∈ candidates)
    (ht : w.shared.targets.lookup id = some t)
    (hwatching : t.health = .watching) : t.root ≠ c.root := by
  intro hroot
  obtain rfl := h.roots c hc id t ht hroot
  cases (h.targets c hc t ht).2.1.symm.trans hwatching

namespace Sound

/-- The gate moves on, and nothing else. -/
theorem pass (h : w.Sound) {gate' : Gate} (hgate : w.gate = gate)
    (hfree : gate.degradePending = false) {log : ChangeLog}
    (hsound : GateSound ⟨w.shared, w.backend, gate', w.degrades, w.loaded, log⟩) :
    Sound ⟨w.shared, w.backend, gate', w.degrades, w.loaded, log⟩ :=
  h.move log (fun _ _ _ _ hlive => hlive) (.inl (hgate ▸ hfree)) hsound

section Unwatch

variable (h : w.Sound) {watches : Finset Root} {log : ChangeLog}
  (hwatches : w.backend.watcher = some watches)
  (hne : ∀ {id t}, w.shared.targets.lookup id = some t → t.health = .watching → t.root ≠ root)
  (hpending : w.gate.degradePending = false ∨ gate.degradePending = true)

include h hwatches hne hpending

/-- The watch on a root ends that no target taken as watched has. -/
theorem endWatch (hguard : w.undisturbed removes (.advance now reply) = true)
    (hroot : w.gate.unwatchedRoot = some root)
    (hgate : GateSound ⟨w.shared, { w.backend with watcher := some (unwatch removes root watches) },
      gate, w.degrades, w.loaded, log⟩) :
    Sound ⟨w.shared, { w.backend with watcher := some (unwatch removes root watches) }, gate,
      w.degrades, w.loaded, log⟩ := by
  refine h.rewatch log hwatches hpending hgate fun ht hwatching hmem => ?_
  have hkeeps := removes_eq_false hguard hroot ht (hne ht hwatching)
  simp [unwatch, hmem, hne ht hwatching, hkeeps]

/-- A call has failed, and the watch on its root may be gone. -/
theorem loseWatch (hgate : GateSound ⟨w.shared,
      { w.backend with watcher := some (watches.erase root) }, gate, w.degrades, w.loaded, log⟩) :
    Sound ⟨w.shared, { w.backend with watcher := some (watches.erase root) }, gate, w.degrades,
      w.loaded, log⟩ :=
  h.rewatch log hwatches hpending hgate fun ht hwatching hmem =>
    Finset.mem_erase.mpr ⟨hne ht hwatching, hmem⟩

end Unwatch

/-! ## A registration -/

section Handlers

variable (h : w.Sound)
include h

/-- **A registration is entered** as degraded, under a root that no other target has. -/
theorem replace (htracks : w.Tracks limits) (hgate : w.gate = .replacing r) :
    (w.step .unbounded limits removes (.advance now reply)).Sound := by
  have hpending := degrades_of_pending hgate rfl
  have hrebuild :=
    @replaceTargetState_rebuild limits r.targetId r.fingerprint r.root now w.shared
  have hwatching : ∀ {id t'}, (w.shared.replaceTargetState .unbounded limits r.targetId
      r.fingerprint r.root now).1.targets.lookup id = some t' → t'.health = .watching →
      ∃ t, w.shared.targets.lookup id = some t ∧ t.health = .watching ∧ t'.root = t.root := by
    intro id t' ht' hwatching
    rcases replaceTargetState_targets ht' with ⟨-, -, -, -, hdegraded⟩ |
      ⟨-, t, ht, hfollows, hdegraded⟩
    · cases hdegraded.symm.trans hwatching
    · exact ⟨t, ht, watching_of_worse hdegraded hwatching, hfollows.root⟩
  simp only [step, act, advance, hgate]
  refine ⟨fun id t' ht' hhealth => ?_, fun hflag id t' ht' hhealth => ?_,
    fun id t' ht' => ⟨fun hroot => ?_, fun hid => ?_⟩, fun old hold id t' ht' hroot => ?_⟩
  · obtain ⟨t, ht, hold, hroot⟩ := hwatching ht' hhealth
    rw [hroot]
    rcases h.watched id t ht hold with hlive | hp
    · exact .inl hlive
    · exact .inr (.inl (hpending hp))
  · obtain ⟨t, ht, hold, -⟩ := hwatching ht' hhealth
    exact .inl (hpending (h.flagged (hrebuild.symm.trans hflag) id t ht hold))
  · rcases replaceTargetState_targets ht' with ⟨hid, -⟩ | ⟨-, t, ht, hfollows, -⟩
    · exact hid
    · exact htracks.gate r hgate id
        ((htracks.roots _ id).mpr ⟨t, ht, hfollows.root.symm.trans hroot⟩)
  · rcases replaceTargetState_targets ht' with ⟨-, hsame⟩ | ⟨hne, -⟩
    · exact hsame
    · exact absurd hid hne
  · rcases replaceTargetState_targets ht' with ⟨hid, -⟩ | ⟨-, t, ht, hfollows, -⟩
    · exact hid
    · obtain ⟨former, hformer, rfl⟩ := Option.map_eq_some_iff.mp hold
      exact htracks.owner_eq ht hformer (hfollows.root.symm.trans hroot)

variable {oldRoot : Option Root}

theorem checkFlag (hgate : w.gate = .checkingFlag r oldRoot generation) :
    (w.step .unbounded limits removes (.advance now reply)).Sound := by
  have hsound := h.at_gate hgate
  simp only [step, act, advance, hgate]
  split
  · exact h.pass hgate rfl ⟨hsound.1, by simp⟩
  · next hflag =>
    exact h.pass hgate rfl ⟨hsound.1, hsound.2, fun hset => absurd hset hflag⟩

variable {began : ℕ}

theorem unwatchOld (hguard : w.undisturbed removes (.advance now reply) = true)
    (hgate : w.gate = .unwatchingOld r oldRoot generation began) :
    (w.step .unbounded limits removes (.advance now reply)).Sound := by
  obtain ⟨hregistering, hold, hseen⟩ := h.at_gate hgate
  simp only [step, act, advance, hgate]
  split
  swap
  · exact h.pass hgate rfl ⟨hregistering, hseen⟩
  next watches old hwatches =>
  have hne : ∀ {id t}, w.shared.targets.lookup id = some t → t.health = .watching →
      t.root ≠ old := by
    intro id t ht hwatching hroot
    obtain ⟨-, hsame⟩ := hregistering id t ht
    cases (hsame (hold old rfl id t ht hroot)).2.2.2.symm.trans hwatching
  split
  · exact h.endWatch hwatches hne (.inl (hgate ▸ rfl)) hguard (hgate ▸ rfl) ⟨hregistering, hseen⟩
  · exact h.loseWatch hwatches hne (.inr rfl) hregistering

theorem ensureForRegistration (hgate : w.gate = .ensuring r generation began) :
    (w.step .unbounded limits removes (.advance now reply)).Sound := by
  simp only [step, act, advance, hgate]
  exact h.ensure _ _ _ _ (.inl (hgate ▸ rfl)) (h.at_gate hgate)

theorem watch (hgate : w.gate = .watching r generation began) :
    (w.step .unbounded limits removes (.advance now reply)).Sound := by
  obtain ⟨hregistering, hseen⟩ := h.at_gate hgate
  simp only [step, act, advance, hgate]
  split
  · exact h.pass hgate rfl ⟨hregistering, by simp⟩
  next watches hwatches =>
  split
  · exact h.rewatch _ hwatches (.inl (hgate ▸ rfl))
      ⟨hregistering, fun _ => ⟨hseen, _, rfl, Finset.mem_insert_self _ _⟩⟩
      fun _ _ hmem => Finset.mem_insert_of_mem hmem
  · exact h.loseWatch hwatches hregistering.root_ne (.inl (hgate ▸ rfl)) ⟨hregistering, hseen⟩

variable {pathNotFound succeeded : Bool}

section Undisturbed

variable (hguard : w.undisturbed removes (.advance now reply) = true)
include hguard

theorem undo (hgate : w.gate = .undoing r generation began pathNotFound) :
    (w.step .unbounded limits removes (.advance now reply)).Sound := by
  obtain ⟨hregistering, -⟩ := h.at_gate hgate
  simp only [step, act, advance, hgate]
  split
  · exact h.pass hgate rfl ⟨hregistering, by simp⟩
  next watches hwatches =>
  split
  · exact h.endWatch hwatches hregistering.root_ne (.inl (hgate ▸ rfl)) hguard (hgate ▸ rfl)
      ⟨hregistering, by simp⟩
  · split
    · exact h.pass hgate rfl ⟨hregistering, by simp⟩
    · exact h.move _ (fun _ _ _ _ hlive => hlive) (.inr rfl) hregistering

theorem dropWatch (hgate : w.gate = .dropping root began) :
    (w.step .unbounded limits removes (.advance now reply)).Sound := by
  have hunowned : w.Unowned root := h.at_gate hgate
  simp only [step, act, advance, hgate]
  split
  · exact h.pass hgate rfl trivial
  next watches hwatches =>
  split
  · exact h.endWatch hwatches (fun ht _ => hunowned _ _ ht) (.inl (hgate ▸ rfl)) hguard
      (hgate ▸ rfl) trivial
  · exact h.loseWatch hwatches (fun ht _ => hunowned _ _ ht) (.inr rfl) trivial

/-- **A registration is finished**: no degrade has reached its target, so its watch counts. -/
theorem finish (hgate : w.gate = .finishing r generation began succeeded) :
    (w.step .unbounded limits removes (.advance now reply)).Sound := by
  obtain ⟨hregistering, hinstalled⟩ := h.at_gate hgate
  have hpending := degrades_of_pending hgate rfl
  have hrebuild := (@finishRegistration_touches limits r.targetId r.fingerprint r.root
    generation succeeded began w.shared).rebuild
  simp only [step, act, advance, hgate]
  refine ⟨fun id t' ht' hhealth => ?_, fun hflag id t' ht' hhealth => ?_, ?_⟩
  · obtain ⟨t, ht, hfollows, hworse | ⟨rfl, rfl, hroot⟩⟩ := finishRegistration_targets ht'
    · rw [hfollows.root]
      exact (h.watched id t ht (watching_of_worse hworse hhealth)).imp_right
        fun hp => .inl (hpending hp)
    · rw [hfollows.root, hroot]
      exact .inl (hinstalled rfl).2
  · rw [hrebuild] at hflag
    obtain ⟨t, ht, hfollows, hworse | ⟨rfl, rfl, hroot⟩⟩ := finishRegistration_targets ht'
    · exact .inl (hpending (h.flagged hflag id t ht (watching_of_worse hworse hhealth)))
    rcases (hinstalled rfl).1 hflag with hdegrades | hreached
    · exact .inl hdegrades
    · simp only [undisturbed, hgate, ht, Option.all_some, Bool.and_eq_true,
        decide_eq_true_eq] at hguard
      exact absurd hguard.1 (hreached t ht)
  · -- a stale watch is one for a target that is gone
    cases hstale : (w.shared.finishRegistration .unbounded limits r.targetId r.fingerprint r.root
        generation succeeded began).2 with
    | false => simp [GateSound]
    | true =>
      intro id t' ht' hroot
      obtain ⟨t, ht, hfollows, -⟩ := finishRegistration_targets ht'
      obtain ⟨howner, hsame⟩ := hregistering id t ht
      obtain rfl := howner (hfollows.root.symm.trans hroot)
      obtain ⟨hregistration, hfingerprint, hroot, -⟩ := hsame rfl
      exact finishRegistration_stale hstale ht ⟨hregistration, hfingerprint, hroot⟩

end Undisturbed

/-! ## A retry -/

/-- **The flag is taken and the backend is dropped**: what was watched by it is yet to be degraded. -/
theorem takeFlag (hgate : w.gate = .takingFlag candidates began) :
    (w.step .unbounded limits removes (.advance now reply)).Sound := by
  have hsound := h.at_gate hgate
  have hpending := degrades_of_pending hgate rfl
  simp only [step, act, advance, hgate]
  split
  · next hflag =>
    refine ⟨fun id t ht hwatching => .inr (.inl (hpending (h.flagged hflag id t ht hwatching))),
      fun hset => absurd hset Bool.false_ne_true, hsound.carry rfl,
      fun hset => absurd hset Bool.false_ne_true⟩
  · next hflag =>
    exact h.pass hgate rfl ⟨hsound.carry rfl, fun hset => absurd hset hflag⟩

theorem rebuild (hgate : w.gate = .rebuilding candidates began) :
    (w.step .unbounded limits removes (.advance now reply)).Sound := by
  obtain ⟨hretrying, htaken⟩ := h.at_gate hgate
  simp only [step, act, advance, hgate]
  exact h.ensure _ _ _ _ (.inl (hgate ▸ rfl)) ⟨hretrying.carry rfl, htaken⟩

theorem watchAgain (hgate : w.gate = .retrying candidates began) :
    (w.step .unbounded limits removes (.advance now reply)).Sound := by
  obtain ⟨hretrying, htaken⟩ := h.at_gate hgate
  cases candidates with
  | nil =>
    simp only [step, act, advance, hgate]
    exact h.pass hgate rfl trivial
  | cons candidate rest =>
    simp only [step, act, advance, hgate]
    split
    · exact h.pass hgate rfl ⟨hretrying.carry rfl, htaken, by simp⟩
    next watches hwatches =>
    split
    · exact h.rewatch _ hwatches (.inl (hgate ▸ rfl))
        ⟨hretrying.carry rfl, htaken, fun _ => ⟨_, rfl, Finset.mem_insert_self _ _⟩⟩
        fun _ _ hmem => Finset.mem_insert_of_mem hmem
    · exact h.loseWatch hwatches (hretrying.root_ne List.mem_cons_self) (.inl (hgate ▸ rfl))
        ⟨hretrying.carry rfl, htaken⟩

variable {candidate : RetryCandidate} {rest : List RetryCandidate}

theorem undoAgain (hguard : w.undisturbed removes (.advance now reply) = true)
    (hgate : w.gate = .undoingRetry candidate rest began pathNotFound) :
    (w.step .unbounded limits removes (.advance now reply)).Sound := by
  obtain ⟨hretrying, htaken⟩ := h.at_gate hgate
  simp only [step, act, advance, hgate]
  split
  · exact h.pass hgate rfl ⟨hretrying.carry rfl, htaken, by simp⟩
  next watches hwatches =>
  split
  · exact h.endWatch hwatches (hretrying.root_ne List.mem_cons_self) (.inl (hgate ▸ rfl)) hguard
      (hgate ▸ rfl) ⟨hretrying.carry rfl, htaken, by simp⟩
  · split
    · exact h.pass hgate rfl ⟨hretrying.carry rfl, htaken, by simp⟩
    · exact h.move _ (fun _ _ _ _ hlive => hlive) (.inr rfl) trivial

/-- **A retry of one target is settled**: a degrade that reached it meanwhile is seen. -/
theorem settle (hgate : w.gate = .settling candidate rest began succeeded) :
    (w.step .unbounded limits removes (.advance now reply)).Sound := by
  obtain ⟨hretrying, htaken, hlive⟩ := h.at_gate hgate
  have hpending := degrades_of_pending hgate rfl
  have hrebuild := (@settleRetry_touches limits candidate succeeded began w.shared).rebuild
  have hcandidate : candidate ∈ candidate :: rest := List.mem_cons_self
  simp only [step, act, advance, hgate]
  refine ⟨fun id t' ht' hhealth => ?_, fun hflag id t' ht' hhealth => ?_,
    ⟨hretrying.apart.of_cons, fun c hc id t' ht' hroot => ?_, fun c hc t' ht' => ?_⟩,
    fun hflag => ?_⟩
  · obtain ⟨t, ht, hfollows, hworse | ⟨rfl, rfl, -⟩⟩ := settleRetry_targets ht'
    · rw [hfollows.root]
      exact (h.watched id t ht (watching_of_worse hworse hhealth)).imp_right
        fun hp => .inl (hpending hp)
    · rw [hfollows.root, (hretrying.targets candidate hcandidate t ht).1]
      exact .inl (hlive rfl)
  · rw [hrebuild] at hflag
    obtain ⟨t, ht, -, hworse | ⟨rfl, rfl, hsame⟩⟩ := settleRetry_targets ht'
    · exact .inl (hpending (h.flagged hflag id t ht (watching_of_worse hworse hhealth)))
    · rcases htaken hflag with hdegrades | hreached
      · exact .inl hdegrades
      · exact absurd hsame (hreached candidate hcandidate t ht).ne'
  · obtain ⟨t, ht, hfollows, -⟩ := settleRetry_targets ht'
    exact hretrying.roots c (List.mem_cons_of_mem _ hc) id t ht (hfollows.root.symm.trans hroot)
  · obtain ⟨t, ht, hfollows, hworse | ⟨hid, -⟩⟩ := settleRetry_targets ht'
    · obtain ⟨hroot, hdegraded, hle⟩ := hretrying.targets c (List.mem_cons_of_mem _ hc) t ht
      exact ⟨hfollows.root.trans hroot, hworse hdegraded, hle.trans hfollows.health⟩
    · have hfresh := (List.nodup_cons.mp hretrying.apart).1
      exact absurd (List.mem_map.mpr ⟨c, hc, hid⟩) hfresh
  · rw [hrebuild] at hflag
    refine (htaken hflag).imp_right fun hreached c hc t' ht' => ?_
    obtain ⟨t, ht, hfollows, -⟩ := settleRetry_targets ht'
    exact (hreached c (List.mem_cons_of_mem _ hc) t ht).trans_le hfollows.health

/-! ## A backend that is abandoned -/

variable {unfinished : Option (Registration × ℕ)}

theorem abandon
    (hgate : w.gate = .abandoning unfinished began ∨ w.gate = .requesting unfinished began) :
    (w.step .unbounded limits removes (.advance now reply)).Sound := by
  rcases hgate with hgate | hgate
  all_goals
    have hsound := h.at_gate hgate
    simp only [step, act, advance, hgate]
    refine ⟨fun _ _ _ _ => .inr (.inr rfl), fun _ _ _ _ _ => .inr rfl, ?_⟩
    cases unfinished with
    | none => trivial
    | some registration => exact hsound

theorem degradeFor (hgate : w.gate = .degrading unfinished began) :
    (w.step .unbounded limits removes (.advance now reply)).Sound := by
  have hsound := h.at_gate hgate
  have hfades := (@degradeAll_touches limits False now w.shared).fades
  simp only [step, act, advance, hgate]
  refine ⟨fun id t' ht' hwatching => ?_, fun _ id t' ht' hwatching => ?_, ?_⟩
  · cases (degradeAll_degraded ht').1.symm.trans hwatching
  · cases (degradeAll_degraded ht').1.symm.trans hwatching
  · cases unfinished with
    | none => trivial
    | some registration => exact ⟨Registering.fade hfades hsound, by simp⟩

end Handlers

/-! ## Every step -/

theorem new (now : ℕ) (reply : BackendReply) : (new limits now reply).Sound :=
  ⟨nofun, nofun, trivial⟩

theorem advance (h : w.Sound) (htracks : w.Tracks limits)
    (hguard : w.undisturbed removes (.advance now reply) = true) :
    (w.step .unbounded limits removes (.advance now reply)).Sound := by
  cases hgate : w.gate with
  | free =>
    simp only [step, act, SoftDiskWatcher.advance, hgate]
    rw [← hgate]
    exact h.fade (.refl _) rfl _ _
  | replacing r => exact h.replace htracks hgate
  | checkingFlag r oldRoot generation => exact h.checkFlag hgate
  | unwatchingOld r oldRoot generation began => exact h.unwatchOld hguard hgate
  | ensuring r generation began => exact h.ensureForRegistration hgate
  | watching r generation began => exact h.watch hgate
  | undoing r generation began pathNotFound => exact h.undo hguard hgate
  | finishing r generation began succeeded => exact h.finish hguard hgate
  | dropping root began => exact h.dropWatch hguard hgate
  | takingFlag candidates began => exact h.takeFlag hgate
  | rebuilding candidates began => exact h.rebuild hgate
  | retrying candidates began => exact h.watchAgain hgate
  | undoingRetry candidate rest began pathNotFound => exact h.undoAgain hguard hgate
  | settling candidate rest began succeeded => exact h.settle hgate
  | abandoning unfinished began => exact h.abandon (.inl hgate)
  | requesting unfinished began => exact h.abandon (.inr hgate)
  | degrading unfinished began => exact h.degradeFor hgate

theorem retry (h : w.Sound) (htracks : w.Tracks limits) (hgate : w.gate = .free) (log : ChangeLog) :
    Sound { w with gate := .takingFlag (w.shared.retryCandidates now) now, log := log } := by
  obtain ⟨hapart, htargets⟩ := @retryCandidates_targets w.shared now
  refine h.pass hgate rfl ⟨hapart, fun c hc id t ht hroot => ?_, fun c hc t ht => ?_⟩
  · obtain ⟨t', ht', hroot', -⟩ := htargets c hc
    exact htracks.owner_eq ht ht' (hroot.trans hroot'.symm)
  · obtain ⟨t', ht', hroot, hdegraded, hgeneration⟩ := htargets c hc
    obtain rfl := Option.some.inj (ht'.symm.trans ht)
    exact ⟨hroot, hdegraded, hgeneration.ge⟩

/-- **Every undisturbed step is sound.** -/
theorem step (h : w.Sound) (htracks : w.Tracks limits) {action : WatcherAction}
    (hguard : w.undisturbed removes action = true) :
    (w.step .unbounded limits removes action).Sound := by
  have hpass := fun log => h.fade (.refl _) rfl w.loaded log
  cases action with
  | event now event =>
    have htouch := @handleEvent_touches limits False now event w.shared
    exact h.fade htouch.fades htouch.rebuild _ _
  | backendError => exact h.backendError _
  | degrade now =>
    cases hdegrades : w.degrades with
    | zero =>
      simp only [SoftDiskWatcher.step, act, hdegrades]
      rw [← hdegrades]
      exact hpass _
    | succ degrades =>
      simp only [SoftDiskWatcher.step, act, hdegrades]
      exact h.degradeAll limits now degrades _
  | register id fingerprint root =>
    simp only [SoftDiskWatcher.step, act]
    split
    · next hgate =>
      split
      · exact h.pass hgate rfl trivial
      · exact hpass _
    · exact hpass _
  | retry now =>
    simp only [SoftDiskWatcher.step, act]
    split
    · next hgate => exact h.retry htracks hgate _
    · exact hpass _
  | unwatchRetired root now =>
    simp only [SoftDiskWatcher.step, act]
    split
    · next hgate =>
      split
      · exact hpass _
      · next hunowned =>
        refine h.pass hgate rfl fun id t ht hroot => hunowned ?_
        rw [(htracks.roots root id).mpr ⟨t, ht, hroot⟩]
        rfl
    · exact hpass _
  | advance now reply => exact h.advance htracks hguard
  | retire id => exact h.fade (retire_fades id w.shared) (retire_rebuild id w.shared) _ _
  | load reader => exact h.fade (.refl _) rfl _ _
  | capture reader id =>
    simp only [SoftDiskWatcher.step, act]
    repeat' split
    all_goals exact hpass _
  | acknowledge index =>
    simp only [SoftDiskWatcher.step, act]
    split
    · exact hpass _
    · exact h.fade (acknowledge_fades _ w.shared) (acknowledge_rebuild _ w.shared) _ _
  | drain =>
    have htouch := @drainChanges_touches limits False w.shared
    exact h.fade htouch.fades htouch.rebuild _ _

end Sound

end SoftDiskWatcher

/-! ## Every run -/

/-- No generation passes the machine's words during the run, and every step is undisturbed. -/
def RunsUndisturbed (limits : WatcherLimits) (removes : Root → Root → Bool) (now : ℕ)
    (reply : BackendReply) (actions : List WatcherAction) : Prop :=
  RunsWithin (SoftDiskWatcher.step .machine limits removes)
    (fun w action => (w.step .unbounded limits removes action).shared.InRange ∧
      w.undisturbed removes action = true) (.new limits now reply) actions

/-- **Watching means watched** in every undisturbed run: the backend that there is watches the root
of the target, or a degrade or a rebuild of the backend is on its way. -/
theorem watching_means_watched (limits : WatcherLimits) (removes : Root → Root → Bool) (now : ℕ)
    (reply : BackendReply) (actions : List WatcherAction)
    (h : RunsUndisturbed limits removes now reply actions)
    (w : SoftDiskWatcher) (hw : w = .after limits removes now reply actions) (id : String)
    (t : TargetState) (ht : w.shared.targets.lookup id = some t) (hwatching : t.health = .watching) :
    w.Covered t.root := by
  obtain ⟨hrun, hwithin⟩ := h.congr fun _ _ hguard => SoftDiskWatcher.step_machine hguard.1
  have hstep : ∀ (w : SoftDiskWatcher) action, w.Tracks limits ∧ w.Sound →
      (w.step .unbounded limits removes action).shared.InRange ∧
        w.undisturbed removes action = true →
      (w.step .unbounded limits removes action).Tracks limits ∧
        (w.step .unbounded limits removes action).Sound :=
    fun _ action h hguard => ⟨h.1.step action, h.2.step h.1 hguard.2⟩
  have hsound := (RunsWithin.invariant hstep actions ⟨.new now reply, .new now reply⟩ hwithin).2
  rw [← hrun, ← SoftDiskWatcher.after, ← hw] at hsound
  exact (hsound.watched id t ht hwatching).imp_right .inl

/-! ## A run with one error -/

/-- The backend fails after the registration, and the retry makes a new one. -/
def rebuiltRun : List WatcherAction :=
  registerSteps "t" ⟨true, [.normal "a"]⟩ ++
    [.backendError, .degrade 0, .retry 1000] ++ List.replicate 5 (.advance 1000 .ok)

theorem rebuiltRun_watched :
    (SoftDiskWatcher.after exampleLimits (· = ·) 0 .ok rebuiltRun).Covered [.normal "a"] := by
  have hrun : RunsUndisturbed exampleLimits (· = ·) 0 .ok rebuiltRun := by
    unfold RunsUndisturbed
    decide +kernel
  have htarget : ∃ t, (SoftDiskWatcher.after exampleLimits (· = ·) 0 .ok
      rebuiltRun).shared.targets.lookup "t" = some t ∧ t.root = [.normal "a"] ∧
        t.health = .watching := ⟨_, rfl, rfl, rfl⟩
  obtain ⟨t, ht, hroot, hwatching⟩ := htarget
  exact hroot ▸ watching_means_watched exampleLimits (· = ·) 0 .ok rebuiltRun hrun _ rfl "t" t ht
    hwatching

/-- The backend fails while the registration has its watch but is not finished. -/
def disturbedRun : List WatcherAction :=
  .register "t" "f" ⟨true, [.normal "a"]⟩ :: List.replicate 5 (.advance 0 .ok) ++
    [.backendError, .degrade 0, .advance 0 .ok, .retry 1000] ++
    List.replicate 3 (.advance 1000 .ok)

/-- **The target is taken as watched, and nothing watches it**, nor is anything about to. -/
theorem disturbedRun_unwatched :
    ∃ t, (SoftDiskWatcher.after exampleLimits (· = ·) 0 .ok disturbedRun).shared.targets.lookup
        "t" = some t ∧ t.health = .watching ∧
      ¬ (SoftDiskWatcher.after exampleLimits (· = ·) 0 .ok disturbedRun).Covered t.root := by
  refine ⟨_, rfl, rfl, ?_⟩
  rintro (⟨watches, hwatches, hmem⟩ | (hdegrades | hgate) | hflag)
  · obtain rfl := Option.some.inj hwatches
    revert hmem
    decide +kernel
  · revert hdegrades
    decide +kernel
  · revert hgate
    decide +kernel
  · revert hflag
    decide +kernel

end DatabasesEverywhere.Watcher
