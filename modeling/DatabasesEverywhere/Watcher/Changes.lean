import DatabasesEverywhere.Watcher.Dirty

/-!
# Watcher/Changes — the watcher loses no change

`Tracks` ties the record of what has happened to the state: for every event there is a generation
that no batch captured before it has reached, and until a batch captured after it is acknowledged
the target owes its path since that generation.  **No change is lost** (`watcher_loses_no_change`)
then says it of every run whose generations stay in range.
-/

open Foundations Relation

namespace DatabasesEverywhere.Watcher

open Shared

/-! ## Events that have just been routed -/

variable {limits : WatcherLimits} {id : String} {t t' : TargetState} {globalGeneration : ℕ}
  {batch : DirtyBatch}

namespace Shared

variable {watches : Prop} {shared after : Shared}
  {root : Root} {path : EventPath}

theorem Touches.owes (h : shared.Touches limits watches after)
    (ht : shared.targets.lookup id = some t) (ht' : after.targets.lookup id = some t') {since : ℕ}
    (hsince : since ≤ t.targetGeneration) (howes : Owes t since root path) :
    Owes t' since root path := by
  obtain ⟨found, hfound, htouch⟩ := h.targets id t ht
  obtain rfl := Option.some.inj (hfound.symm.trans ht')
  exact owes_of_touches htouch hsince howes

variable (kind : EventKind) (now : ℕ)

theorem markPath_owes (root : Root) (path : EventPath) (t : TargetState) :
    Owes (markPath .unbounded limits kind now root path t) t.targetGeneration root path := by
  have hfull : Owes (t.markFull .unbounded) t.targetGeneration root path :=
    .inl ⟨_, rfl, Nat.lt_succ_self _⟩
  unfold markPath
  split
  · split
    · exact hfull
    · exact hfull
  · cases hparent : safeRelativeParent root path with
    | none => exact hfull
    | some directory =>
      exact (markDirty_marked _ directory t).owes_new (safeRelativeParent_eq_some hparent)

/-- A path that is handled is owed after all paths are. -/
theorem handlePaths_owes {paths : List EventPath} (hpath : path ∈ paths)
    (step : Shared × List String) (hroute : routePath step.1.roots path = some (id, root))
    (ht : step.1.targets.lookup id = some t)
    (ht' : (run (handlePath .unbounded limits kind now) step paths).1.targets.lookup id = some t') :
    Owes t' t.targetGeneration root path := by
  obtain ⟨before, rest, rfl⟩ := List.append_of_mem hpath
  rw [run_append, run_cons] at ht'
  have hbefore := @handlePaths_touches limits False kind now before step
  obtain ⟨marked, hmarked, htouch⟩ := hbefore.targets id t ht
  have hgeneration := (follows_of_touches htouch).generation
  have hstep : handlePath .unbounded limits kind now
      (run (handlePath .unbounded limits kind now) step before) path =
      ({ (run (handlePath .unbounded limits kind now) step before).1 with
          targets := AList.insert id (markPath .unbounded limits kind now root path marked)
            (run (handlePath .unbounded limits kind now) step before).1.targets },
        (run (handlePath .unbounded limits kind now) step before).2.insert id) := by
    simp only [handlePath, hbefore.roots, hroute, hmarked]
  rw [hstep] at ht'
  have hfollows := (follows_of_touches
    (@markPath_touches limits False kind now root path marked)).generation
  refine (@handlePaths_touches limits False kind now rest _).owes (AList.lookup_insert _) ht'
    (hgeneration.trans hfollows) ?_
  exact (markPath_owes kind now root path marked).mono hgeneration

/-- **A routed event is owed** as soon as it is handled. -/
theorem handleEvent_owes {event : Event} {log : ChangeLog} {entry : RoutedEvent}
    (hentry : entry ∈ routedEvents event shared log)
    (ht : shared.targets.lookup entry.targetId = some t)
    (ht' : (shared.handleEvent .unbounded limits now event).targets.lookup entry.targetId =
      some t') : Owes t' t.targetGeneration entry.root entry.path := by
  unfold routedEvents at hentry
  split at hentry
  · cases hentry
  next hordinary =>
  simp only [Bool.or_eq_true, decide_eq_true_eq, not_or] at hordinary
  obtain ⟨path, hpath, hrouted⟩ := List.mem_filterMap.mp hentry
  simp only [Option.bind_eq_bind, Option.bind_eq_some_iff] at hrouted
  obtain ⟨⟨id, root⟩, hroute, serial, -, hentry⟩ := hrouted
  obtain rfl := Option.some.inj hentry
  have hpaths : event.paths.isEmpty = false := by
    cases hevent : event.paths with
    | nil => rw [hevent] at hpath; cases hpath
    | cons _ _ => rfl
  simp only [handleEvent, hordinary, hpaths, Bool.false_eq_true, if_false, decide_false,
    Bool.or_self] at ht'
  obtain ⟨marked, hmarked, htouch⟩ := (@enqueueTargetChanges_touches limits False _ _).before ht'
  have howes := handlePaths_owes event.kind now hpath (shared, []) hroute ht hmarked
  have htouches := @handlePaths_touches limits False event.kind now event.paths (shared, [])
  obtain ⟨found, hfound, htouch'⟩ := htouches.targets id t ht
  obtain rfl := Option.some.inj (hfound.symm.trans hmarked)
  exact owes_of_touches htouch (follows_of_touches htouch').generation howes

theorem owner_of_replace {fingerprint owner : String}
    (h : shared.unchangedRegistration id fingerprint root = .replace)
    (howner : shared.roots.lookup root = some owner) : owner = id := by
  unfold unchangedRegistration at h
  split at h
  · cases h
  · split at h
    · cases h
    · next hcollision => simpa [howner] using hcollision

theorem capture_eq_some (h : shared.capture globalGeneration id = some batch) :
    batch.targetId = id ∧ ∃ t, shared.targets.lookup id = some t ∧
      batch.registrationGeneration = t.registrationGeneration ∧
      batch.targetGeneration = t.targetGeneration := by
  unfold capture at h
  cases ht : shared.targets.lookup id with
  | none =>
    simp only [ht] at h
    cases h
  | some t =>
    simp only [ht] at h
    split at h
    · cases h
    · obtain rfl := Option.some.inj h
      exact ⟨rfl, t, rfl, rfl, rfl⟩

end Shared

/-! ## The record and the state -/

/-- The registration that an entry of the record is about is still there. -/
def ChangeLog.Current (log : ChangeLog) (id : String) (serial : ℕ) : Prop :=
  log.serials.lookup id = some serial

/-- Every batch of the registration that was acknowledged was captured before the event. -/
def ChangeLog.Unscanned (log : ChangeLog) (event : RoutedEvent) : Prop :=
  ∀ ack ∈ log.acknowledged, ack.batch.targetId = event.targetId → ack.serial = event.serial →
    ack.time < event.time

/-- A root that is about to be registered has no other owner. -/
def Gate.Entitled (gate : Gate) (shared : Shared) : Prop :=
  ∀ r, gate = .replacing r → ∀ id, shared.roots.lookup r.root = some id → id = r.targetId

/-- What the watcher's state and the record of its run have to do with each other. -/
structure SoftDiskWatcher.Tracks (limits : WatcherLimits) (w : SoftDiskWatcher) : Prop where
  tidy : ∀ id t, w.shared.targets.lookup id = some t → t.Tidy limits.maximumDirtyPaths
  roots : ∀ root id, w.shared.roots.lookup root = some id ↔
    ∃ t, w.shared.targets.lookup id = some t ∧ t.root = root
  gate : w.gate.Entitled w.shared
  registrations : w.shared.nextRegistrationGeneration = w.log.registrations
  serials : ∀ id, w.log.serials.lookup id =
    (w.shared.targets.lookup id).map (·.registrationGeneration)
  bounded : ∀ id serial, w.log.serials.lookup id = some serial → serial ≤ w.log.registrations
  captured : ∀ entry ∈ w.log.captured, entry.batch.registrationGeneration = entry.serial ∧
    entry.serial ≤ w.log.registrations ∧ entry.time < w.log.clock ∧
    ∀ t, w.shared.targets.lookup entry.batch.targetId = some t →
      t.registrationGeneration = entry.serial → entry.batch.targetGeneration ≤ t.targetGeneration
  acknowledged : ∀ entry ∈ w.log.acknowledged, entry ∈ w.log.captured
  events : ∀ event ∈ w.log.events, event.serial ≤ w.log.registrations ∧
    event.time < w.log.clock ∧
    ∀ t, w.shared.targets.lookup event.targetId = some t →
      t.registrationGeneration = event.serial →
      ∃ since, since ≤ t.targetGeneration ∧
        (∀ entry ∈ w.log.captured, entry.batch.targetId = event.targetId →
          entry.serial = event.serial → entry.time < event.time →
          entry.batch.targetGeneration ≤ since) ∧
        (w.log.Unscanned event → Owes t since event.root event.path)

variable {removes : Root → Root → Bool} {w : SoftDiskWatcher}

namespace SoftDiskWatcher.Tracks

theorem new (now : ℕ) (reply : BackendReply) : (new limits now reply).Tracks limits where
  tidy _ _ h := by cases h
  roots _ _ := ⟨fun h => (by cases h), fun ⟨_, h, _⟩ => (by cases h)⟩
  gate _ h := by cases h
  registrations := rfl
  serials _ := rfl
  bounded _ _ h := by cases h
  captured _ h := by cases h
  acknowledged _ h := by cases h
  events _ h := by cases h

/-- The flag of the backend has nothing to do with the record. -/
theorem flag (h : w.Tracks limits) (requested : Bool) :
    Tracks limits { w with shared := { w.shared with backendRebuildRequested := requested } } :=
  ⟨h.tidy, h.roots, h.gate, h.registrations, h.serials, h.bounded, h.captured, h.acknowledged,
    h.events⟩

/-- An event that is routed now. -/
structure Fresh (w : SoftDiskWatcher) (after : Shared) (event : RoutedEvent) : Prop where
  time : event.time = w.log.clock
  serial : w.log.serials.lookup event.targetId = some event.serial
  owes : ∀ t t', w.shared.targets.lookup event.targetId = some t →
    after.targets.lookup event.targetId = some t' →
    Owes t' t.targetGeneration event.root event.path

variable (h : w.Tracks limits)
include h

/-- **The targets are touched**, and events may be routed. -/
theorem touch {after : Shared} (htouch : w.shared.Touches limits True after) (gate : Gate)
    (hgate : gate.Entitled w.shared) {events : List RoutedEvent}
    (hevents : ∀ event ∈ events, Fresh w after event) (backend : BackendState) (degrades : ℕ) (loaded : Map ℕ ℕ) :
    Tracks limits ⟨after, backend, gate, degrades, loaded,
      { w.log with clock := w.log.clock + 1, events := events ++ w.log.events }⟩ := by
  have hbefore : ∀ {id t'}, after.targets.lookup id = some t' →
      ∃ t, w.shared.targets.lookup id = some t ∧ t.Follows t' ∧
        ReflTransGen (Touch limits True) t t' := by
    intro id t' ht'
    obtain ⟨t, ht, hchain⟩ := htouch.before ht'
    exact ⟨t, ht, follows_of_touches hchain, hchain⟩
  refine ⟨fun id t' ht' => ?_, fun root id => ?_, fun r hr id hid => ?_, ?_, fun id => ?_,
    h.bounded, fun entry hentry => ?_, h.acknowledged, fun event hevent => ?_⟩
  · obtain ⟨t, ht, -, hchain⟩ := hbefore ht'
    exact tidy_of_touches hchain (h.tidy id t ht)
  · rw [htouch.roots, h.roots]
    constructor
    · rintro ⟨t, ht, hroot⟩
      obtain ⟨t', ht', hchain⟩ := htouch.targets id t ht
      exact ⟨t', ht', (follows_of_touches hchain).root.trans hroot⟩
    · rintro ⟨t', ht', hroot⟩
      obtain ⟨t, ht, hfollows, -⟩ := hbefore ht'
      exact ⟨t, ht, hfollows.root.symm.trans hroot⟩
  · rw [htouch.roots] at hid
    exact hgate r hr id hid
  · exact htouch.registrations.trans h.registrations
  · rw [h.serials]
    cases ht : w.shared.targets.lookup id with
    | none => rw [htouch.absent id ht]
    | some t =>
      obtain ⟨t', ht', hchain⟩ := htouch.targets id t ht
      rw [ht', Option.map_some, Option.map_some, (follows_of_touches hchain).registration]
  · obtain ⟨hregistration, hserial, htime, hgeneration⟩ := h.captured entry hentry
    refine ⟨hregistration, hserial, Nat.lt_succ_of_lt htime, fun t' ht' hsame => ?_⟩
    obtain ⟨t, ht, hfollows, -⟩ := hbefore ht'
    exact (hgeneration t ht (hfollows.registration.symm.trans hsame)).trans hfollows.generation
  · rcases List.mem_append.mp hevent with hevent | hevent
    · -- no batch captured so far has reached the generation before the event
      obtain ⟨htime, hserial, howes⟩ := hevents event hevent
      refine ⟨h.bounded _ _ hserial, htime ▸ Nat.lt_succ_self _, fun t' ht' hsame => ?_⟩
      obtain ⟨t, ht, hfollows, -⟩ := hbefore ht'
      refine ⟨t.targetGeneration, hfollows.generation, fun entry hentry hid heq _ => ?_,
        fun _ => howes t t' ht ht'⟩
      obtain ⟨-, -, -, hgeneration⟩ := h.captured entry hentry
      rw [hid] at hgeneration
      exact hgeneration t ht (hfollows.registration.symm.trans (hsame.trans heq.symm))
    · obtain ⟨hserial, htime, howes⟩ := h.events event hevent
      refine ⟨hserial, Nat.lt_succ_of_lt htime, fun t' ht' hsame => ?_⟩
      obtain ⟨t, ht, hfollows, hchain⟩ := hbefore ht'
      obtain ⟨since, hsince, hcaptured, howed⟩ :=
        howes t ht (hfollows.registration.symm.trans hsame)
      exact ⟨since, hsince.trans hfollows.generation, hcaptured,
        fun hunscanned => owes_of_touches hchain hsince (howed hunscanned)⟩

/-- The targets are touched, and no event is routed. -/
theorem quiet {after : Shared} (htouch : w.shared.Touches limits True after) (gate : Gate)
    (hgate : gate.Entitled w.shared) (backend : BackendState) (degrades : ℕ) (loaded : Map ℕ ℕ) :
    Tracks limits ⟨after, backend, gate, degrades, loaded,
      { w.log with clock := w.log.clock + 1 }⟩ :=
  @touch _ _ h _ htouch gate hgate [] (fun _ hevent => by cases hevent) backend degrades loaded

/-- Nothing happens that the record is about. -/
theorem pass (gate : Gate) (hgate : gate.Entitled w.shared) (backend : BackendState)
    (degrades : ℕ) (loaded : Map ℕ ℕ) :
    Tracks limits ⟨w.shared, backend, gate, degrades, loaded,
      { w.log with clock := w.log.clock + 1 }⟩ :=
  h.quiet (.refl _) gate hgate backend degrades loaded

theorem tick : Tracks limits { w with log := { w.log with clock := w.log.clock + 1 } } :=
  h.pass w.gate h.gate w.backend w.degrades w.loaded

/-- What is recorded of other registrations stays as it is, if their targets do. -/
theorem rewrite (after : Shared) {serials : Map String ℕ} {registrations : ℕ}
    (hle : w.log.registrations ≤ registrations)
    (htargets : ∀ id t, after.targets.lookup id = some t →
      w.shared.targets.lookup id = some t ∨
        t.Tidy limits.maximumDirtyPaths ∧ w.log.registrations < t.registrationGeneration)
    (hroots : ∀ root id, after.roots.lookup root = some id ↔
      ∃ t, after.targets.lookup id = some t ∧ t.root = root)
    (hregistrations : after.nextRegistrationGeneration = registrations)
    (hserials : ∀ id, serials.lookup id =
      (after.targets.lookup id).map (·.registrationGeneration))
    (hbounded : ∀ id serial, serials.lookup id = some serial → serial ≤ registrations) (gate : Gate)
    (hgate : gate.Entitled after) :
    Tracks limits { w with
      shared := after
      gate := gate
      log := { w.log with registrations := registrations, serials := serials } } := by
  have hsame : ∀ {id t serial}, after.targets.lookup id = some t →
      t.registrationGeneration = serial → serial ≤ w.log.registrations →
      w.shared.targets.lookup id = some t := by
    intro id t serial ht hregistration hserial
    rcases htargets id t ht with hold | ⟨-, hlt⟩
    · exact hold
    · omega
  refine ⟨fun id t ht => ?_, hroots, hgate, hregistrations, hserials, hbounded,
    fun entry hentry => ?_, h.acknowledged, fun event hevent => ?_⟩
  · rcases htargets id t ht with hold | ⟨htidy, -⟩
    · exact h.tidy id t hold
    · exact htidy
  · obtain ⟨hregistration, hserial, htime, hgeneration⟩ := h.captured entry hentry
    exact ⟨hregistration, hserial.trans hle, htime, fun t ht hcurrent =>
      hgeneration t (hsame ht hcurrent hserial) hcurrent⟩
  · obtain ⟨hserial, htime, howes⟩ := h.events event hevent
    exact ⟨hserial.trans hle, htime, fun t ht hcurrent =>
      howes t (hsame ht hcurrent hserial) hcurrent⟩

/-- The owner of a root is the target that has it. -/
theorem owner_eq {other : String} (ht : w.shared.targets.lookup id = some t)
    (ht' : w.shared.targets.lookup other = some t') (hroot : t.root = t'.root) : id = other := by
  have hid := (h.roots t.root id).mpr ⟨t, ht, rfl⟩
  have hother := (h.roots t.root other).mpr ⟨t', ht', hroot.symm⟩
  exact Option.some.inj (hid.symm.trans hother)

/-- The roots without those of a target. -/
theorem roots_without {roots : Map Root String}
    (hroots : ∀ root other, roots.lookup root = some other ↔
      w.shared.roots.lookup root = some other ∧ other ≠ id) (root : Root) (other : String) :
    roots.lookup root = some other ↔
      ∃ t, (w.shared.targets.erase id).lookup other = some t ∧ t.root = root := by
  rw [hroots, h.roots]
  constructor
  · rintro ⟨⟨t, ht, hroot⟩, hne⟩
    exact ⟨t, by rwa [AList.lookup_erase_ne hne], hroot⟩
  rintro ⟨t, ht, hroot⟩
  have hne : other ≠ id := by
    rintro rfl
    rw [AList.lookup_erase] at ht
    cases ht
  exact ⟨⟨t, Map.lookup_of_erase ht, hroot⟩, hne⟩

/-- After the root of a target is erased, the others are left. -/
theorem erase_root (ht : w.shared.targets.lookup id = some t) (root : Root) (other : String) :
    (w.shared.roots.erase t.root).lookup root = some other ↔
      w.shared.roots.lookup root = some other ∧ other ≠ id := by
  by_cases hroot : root = t.root
  · subst hroot
    rw [AList.lookup_erase, (h.roots t.root id).mpr ⟨t, ht, rfl⟩]
    constructor
    · rintro ⟨⟩
    · rintro ⟨heq, hne⟩
      exact absurd (Option.some.inj heq).symm hne
  · rw [AList.lookup_erase_ne hroot]
    refine ⟨fun hother => ⟨hother, ?_⟩, And.left⟩
    rintro rfl
    obtain ⟨t', ht', rfl⟩ := (h.roots root other).mp hother
    exact hroot (congrArg _ (Option.some.inj (ht'.symm.trans ht)))

theorem retire (id : String) : ((w.step .unbounded limits removes (.retire id))).Tracks limits := by
  cases ht : w.shared.targets.lookup id with
  | none =>
    have hserials : ∀ other, (w.log.serials.erase id).lookup other =
        (w.shared.targets.lookup other).map (·.registrationGeneration) := by
      intro other
      rw [← h.serials]
      by_cases hother : other = id
      · subst hother
        rw [AList.lookup_erase, h.serials, ht]
        rfl
      · exact AList.lookup_erase_ne hother
    have hrest := h.rewrite w.shared le_rfl (fun _ _ h => .inl h) h.roots h.registrations hserials
      (fun other serial hserial => h.bounded other serial (Map.lookup_of_erase hserial)) w.gate h.gate
    have hpass := hrest.tick
    simp only [step, act, Shared.retire, ht]
    exact hpass
  | some t =>
    have hroots := h.roots_without (h.erase_root ht)
    have hserials : ∀ other, (w.log.serials.erase id).lookup other =
        ((w.shared.targets.erase id).lookup other).map (·.registrationGeneration) := by
      intro other
      by_cases hother : other = id
      · subst hother
        rw [AList.lookup_erase, AList.lookup_erase]
        rfl
      · rw [AList.lookup_erase_ne hother, AList.lookup_erase_ne hother, h.serials]
    have hgate : ∀ r, w.gate = .replacing r → ∀ other,
        (w.shared.roots.erase t.root).lookup r.root = some other → other = r.targetId :=
      fun r hr other hother => h.gate r hr other (Map.lookup_of_erase hother)
    have hrest := h.rewrite
      { w.shared with
        targets := w.shared.targets.erase id
        roots := w.shared.roots.erase t.root
        changedTargets := w.shared.changedTargets.erase id }
      le_rfl (fun _ _ h => .inl (Map.lookup_of_erase h)) hroots h.registrations hserials
      (fun other serial hserial => h.bounded other serial (Map.lookup_of_erase hserial)) w.gate hgate
    have hquiet := hrest.quiet (enqueueTargetChange_touches id _) w.gate hgate w.backend
      w.degrades w.loaded
    simp only [step, act, Shared.retire, ht]
    exact hquiet

theorem lookup_rootsWithout (id : String) (root : Root) (other : String) :
    (w.shared.rootsWithout id).lookup root = some other ↔
      w.shared.roots.lookup root = some other ∧ other ≠ id := by
  unfold Shared.rootsWithout
  cases ht : w.shared.targets.lookup id with
  | none =>
    refine ⟨fun hother => ⟨hother, ?_⟩, And.left⟩
    rintro rfl
    obtain ⟨t, ht', -⟩ := (h.roots root other).mp hother
    cases ht.symm.trans ht'
  | some t => exact h.erase_root ht root other

/-- **A registration replaces the one before it.** -/
theorem replace {r : Registration} (hgate : w.gate = .replacing r) (now : ℕ)
    (reply : BackendReply) :
    (w.step .unbounded limits removes (.advance now reply)).Tracks limits := by
  have hwithout := h.roots_without (h.lookup_rootsWithout r.targetId)
  let generation := w.shared.nextRegistrationGeneration + 1
  let target := (TargetState.new r.fingerprint r.root generation w.shared.globalGeneration
    now).markFull .unbounded
  have htargets : ∀ id t, (w.shared.targets.insert r.targetId target).lookup id = some t →
      w.shared.targets.lookup id = some t ∨
        t.Tidy limits.maximumDirtyPaths ∧ w.log.registrations < t.registrationGeneration := by
    intro id t ht
    rcases Map.lookup_insert_eq ht with ⟨-, rfl⟩ | ⟨-, hold⟩
    · exact .inr ⟨.of_empty rfl, h.registrations ▸ Nat.lt_succ_self _⟩
    · exact .inl hold
  have hroots : ∀ root id,
      ((w.shared.rootsWithout r.targetId).insert r.root r.targetId).lookup root = some id ↔
        ∃ t, (w.shared.targets.insert r.targetId target).lookup id = some t ∧ t.root = root := by
    intro root id
    by_cases hid : id = r.targetId
    · subst hid
      rw [AList.lookup_insert, Map.lookup_insert_ite]
      constructor
      · intro hroot
        split at hroot
        · next heq => exact ⟨target, rfl, heq.symm⟩
        · exact absurd rfl ((h.lookup_rootsWithout _ _ _).mp hroot).2
      · rintro ⟨t, ht, rfl⟩
        rw [← Option.some.inj ht]
        exact if_pos rfl
    · rw [AList.lookup_insert_ne hid, Map.lookup_insert_ite]
      have hold := hwithout root id
      rw [AList.lookup_erase_ne hid] at hold
      split
      · next hroot =>
        subst hroot
        constructor
        · intro heq
          exact absurd (Option.some.inj heq).symm hid
        · rintro ⟨t, ht, hroot⟩
          exact absurd (h.gate r hgate id ((h.roots _ id).mpr ⟨t, ht, hroot⟩)) hid
      · exact hold
  have hserials : ∀ id, (w.log.serials.insert r.targetId (w.log.registrations + 1)).lookup id =
      ((w.shared.targets.insert r.targetId target).lookup id).map (·.registrationGeneration) := by
    intro id
    rw [Map.lookup_insert_ite, Map.lookup_insert_ite]
    split
    · rw [← h.registrations]
      rfl
    · exact h.serials id
  have hbounded : ∀ id serial,
      (w.log.serials.insert r.targetId (w.log.registrations + 1)).lookup id = some serial →
        serial ≤ w.log.registrations + 1 := by
    intro id serial hserial
    rcases Map.lookup_insert_eq hserial with ⟨-, rfl⟩ | ⟨-, hold⟩
    · exact le_rfl
    · exact (h.bounded id serial hold).trans (Nat.le_succ _)
  have hreplaced := h.rewrite
    { w.shared with
      changedTargets := w.shared.changedTargets.erase r.targetId
      nextRegistrationGeneration := generation
      roots := (w.shared.rootsWithout r.targetId).insert r.root r.targetId
      targets := w.shared.targets.insert r.targetId target }
    (Nat.le_succ _) htargets hroots (congrArg (· + 1) h.registrations) hserials hbounded
    .free nofun
  have hquiet := hreplaced.quiet (enqueueTargetChange_touches r.targetId _)
    (.checkingFlag r ((w.shared.targets.lookup r.targetId).map (·.root)) generation) nofun
    w.backend w.degrades w.loaded
  simp only [step, act, advance, hgate]
  exact hquiet

theorem event (now : ℕ) (event : Event) :
    (w.step .unbounded limits removes (.event now event)).Tracks limits := by
  refine h.touch (handleEvent_touches now event w.shared) w.gate h.gate
    (fun entry hentry => ⟨?_, ?_, fun t t' => handleEvent_owes now hentry⟩) w.backend
    w.degrades w.loaded
  all_goals
    unfold routedEvents at hentry
    split at hentry
    · cases hentry
    obtain ⟨path, -, hrouted⟩ := List.mem_filterMap.mp hentry
    simp only [Option.bind_eq_bind, Option.bind_eq_some_iff] at hrouted
    obtain ⟨_, -, serial, hserial, hentry⟩ := hrouted
    obtain rfl := Option.some.inj hentry
    first | rfl | exact hserial

/-- A batch is captured. -/
theorem record {serial : ℕ} (hserial : w.log.serials.lookup id = some serial)
    (hcapture : w.shared.capture globalGeneration id = some batch) :
    Tracks limits { w with
      log := { w.log with
        clock := w.log.clock + 1
        captured := ⟨batch, serial, w.log.clock⟩ :: w.log.captured } } := by
  have hpass := h.tick
  obtain ⟨hid, t, ht, hregistration, hgeneration⟩ := capture_eq_some hcapture
  have hcurrent := h.serials id
  rw [hserial, ht, Option.map_some, Option.some.injEq] at hcurrent
  refine ⟨hpass.tidy, hpass.roots, hpass.gate, hpass.registrations, hpass.serials,
    hpass.bounded, List.forall_mem_cons.mpr ⟨⟨?_, ?_, Nat.lt_succ_self _, ?_⟩, hpass.captured⟩,
    fun entry hentry => List.mem_cons_of_mem _ (h.acknowledged entry hentry),
    fun event hevent => ?_⟩
  · rw [hregistration, hcurrent]
  · exact h.bounded id serial hserial
  · intro t' ht' _
    rw [hid] at ht'
    exact hgeneration.trans_le (Option.some.inj (ht.symm.trans ht') ▸ le_rfl)
  -- the batch is no earlier than the event
  obtain ⟨hle, htime, howes⟩ := hpass.events event hevent
  refine ⟨hle, htime, fun t' ht' hsame => ?_⟩
  obtain ⟨since, hsince, hcaptured, howed⟩ := howes t' ht' hsame
  have hpast := (h.events event hevent).2.1
  exact ⟨since, hsince, List.forall_mem_cons.mpr
    ⟨fun _ _ hearlier => absurd hearlier (Nat.not_lt_of_gt hpast), hcaptured⟩, howed⟩

theorem capture (reader : ℕ) (id : String) :
    (w.step .unbounded limits removes (.capture reader id)).Tracks limits := by
  have hpass := h.tick
  cases hloaded : w.loaded.lookup reader with
  | none =>
    simp only [step, act, hloaded]
    exact hpass
  | some globalGeneration =>
    cases hserial : w.log.serials.lookup id with
    | none =>
      simp only [step, act, hloaded, hserial]
      exact hpass
    | some serial =>
      cases hcapture : w.shared.capture globalGeneration id with
      | none =>
        simp only [step, act, hloaded, hserial, hcapture]
        exact hpass
      | some batch =>
        simp only [step, act, hloaded, hserial, hcapture]
        exact h.record hserial hcapture

variable {entry : CapturedBatch}

/-- A batch of a registration that is gone is acknowledged. -/
theorem acknowledge_stale (hentry : entry ∈ w.log.captured) :
    Tracks limits { w with
      log := { w.log with
        clock := w.log.clock + 1
        acknowledged := entry :: w.log.acknowledged } } := by
  have hpass := h.tick
  refine ⟨hpass.tidy, hpass.roots, hpass.gate, hpass.registrations, hpass.serials,
    hpass.bounded, hpass.captured, List.forall_mem_cons.mpr ⟨hentry, h.acknowledged⟩,
    fun event hevent => ?_⟩
  obtain ⟨hle, htime, howes⟩ := hpass.events event hevent
  refine ⟨hle, htime, fun t ht hsame => ?_⟩
  obtain ⟨since, hsince, hcaptured, howed⟩ := howes t ht hsame
  exact ⟨since, hsince, hcaptured,
    fun hunscanned => howed fun ack hack => hunscanned ack (List.mem_cons_of_mem _ hack)⟩

/-- **A batch is acknowledged**: what is still owed after it was owed since it was captured. -/
theorem acknowledge_current (hentry : entry ∈ w.log.captured) {target : TargetState}
    (htarget : w.shared.targets.lookup entry.batch.targetId = some target)
    (hcurrent : target.registrationGeneration = entry.batch.registrationGeneration) :
    Tracks limits { w with
      shared := { w.shared with
        targets := w.shared.targets.insert entry.batch.targetId
          (Shared.acknowledged entry.batch target) }
      log := { w.log with
        clock := w.log.clock + 1
        acknowledged := entry :: w.log.acknowledged } } := by
  have hstale := h.acknowledge_stale hentry
  have hcases : ∀ {id t'}, (w.shared.targets.insert entry.batch.targetId
      (Shared.acknowledged entry.batch target)).lookup id = some t' →
      w.shared.targets.lookup id = some t' ∨
        id = entry.batch.targetId ∧ t' = Shared.acknowledged entry.batch target := by
    intro id t' ht'
    rcases Map.lookup_insert_eq ht' with hnew | ⟨-, hold⟩
    · exact .inr hnew
    · exact .inl hold
  refine ⟨fun id t' ht' => ?_, fun root id => ?_, h.gate, h.registrations, fun id => ?_, h.bounded,
    fun other hother => ?_, hstale.acknowledged, fun event hevent => ?_⟩
  · rcases hcases ht' with hold | ⟨rfl, rfl⟩
    · exact h.tidy id t' hold
    · exact acknowledged_tidy (h.tidy _ _ htarget)
  · rw [h.roots, Map.lookup_insert_ite]
    split
    · subst id
      rw [htarget]
      simp [Shared.acknowledged]
    · rfl
  · rw [h.serials, Map.lookup_insert_ite]
    split
    · subst id
      rw [htarget]
      rfl
    · rfl
  · obtain ⟨hregistration, hserial, htime, hgeneration⟩ := hstale.captured other hother
    refine ⟨hregistration, hserial, htime, fun t' ht' hsame => ?_⟩
    rcases hcases ht' with hold | ⟨hid, rfl⟩
    · exact hgeneration t' hold hsame
    · exact hgeneration target (hid ▸ htarget) hsame
  · obtain ⟨hle, htime, howes⟩ := hstale.events event hevent
    refine ⟨hle, htime, fun t' ht' hsame => ?_⟩
    rcases hcases ht' with hold | ⟨hid, rfl⟩
    · exact howes t' hold hsame
    obtain ⟨since, hsince, hcaptured, howed⟩ := howes target (hid ▸ htarget) hsame
    refine ⟨since, hsince, hcaptured, fun hunscanned => acknowledged_owes ?_ (howed hunscanned)⟩
    -- the batch is one of this registration, so it is older than the event
    have hserial : entry.serial = event.serial := by
      rw [← (h.captured entry hentry).1, ← hcurrent]
      exact hsame
    exact hcaptured entry hentry hid.symm hserial
      (hunscanned entry List.mem_cons_self hid.symm hserial)

theorem acknowledge (index : ℕ) :
    (w.step .unbounded limits removes (.acknowledge index)).Tracks limits := by
  cases hindex : w.log.captured[index]? with
  | none =>
    simp only [step, act, hindex]
    exact h.tick
  | some entry =>
    have hentry := List.mem_of_getElem? hindex
    simp only [step, act, hindex, Shared.acknowledge]
    split
    · exact h.acknowledge_stale hentry
    · next target hmatching =>
      obtain ⟨htarget, hcurrent⟩ := Option.filter_eq_some_iff.mp hmatching
      simp only [Bool.and_eq_true, decide_eq_true_eq] at hcurrent
      exact h.acknowledge_current hentry htarget hcurrent.2

end SoftDiskWatcher.Tracks

/-! ## The holder of the gate -/

/-- The targets are touched, the flag may change, and the record does not. -/
structure SoftDiskWatcher.Quiet (limits : WatcherLimits) (w w' : SoftDiskWatcher) : Prop where
  touches : ∃ requested, Shared.Touches limits True
    { w.shared with backendRebuildRequested := requested } w'.shared
  gate : ∀ r, w'.gate ≠ .replacing r
  log : w'.log = w.log

namespace SoftDiskWatcher

variable {gate : Gate}

theorem quiet_of_gate (hgate : ∀ r, gate ≠ .replacing r) (backend : BackendState) :
    w.Quiet limits { w with backend := backend, gate := gate } :=
  ⟨⟨_, .refl _⟩, hgate, rfl⟩

theorem quiet_of_touches {after : Shared} (htouch : w.shared.Touches limits True after)
    (hgate : ∀ r, gate ≠ .replacing r) : w.Quiet limits { w with shared := after, gate := gate } :=
  ⟨⟨_, htouch⟩, hgate, rfl⟩

theorem quiet_of_flag (requested : Bool) (hgate : ∀ r, gate ≠ .replacing r)
    (backend : BackendState) :
    w.Quiet limits { w with
      shared := { w.shared with backendRebuildRequested := requested }
      backend := backend
      gate := gate } :=
  ⟨⟨requested, .refl _⟩, hgate, rfl⟩

theorem advance_quiet (hgate : ∀ r, w.gate ≠ .replacing r) (now : ℕ) (reply : BackendReply) :
    w.Quiet limits (w.advance .unbounded limits removes now reply) := by
  unfold advance
  cases hw : w.gate with
  | free => exact ⟨⟨_, .refl _⟩, hgate, rfl⟩
  | replacing r => exact absurd hw (hgate r)
  | checkingFlag | unwatchingOld | ensuring | watching | undoing | dropping | rebuilding
  | undoingRetry | abandoning =>
    -- a call of the backend, after which the gate moves on
    dsimp only
    repeat' split
    all_goals exact quiet_of_gate (by simp) _
  | finishing r generation began succeeded =>
    refine quiet_of_touches (finishRegistration_touches _ _ _ _ _ _ _) fun r' => ?_
    repeat' split
    all_goals simp
  | takingFlag candidates began =>
    dsimp only
    split
    · exact quiet_of_flag false (by simp) _
    · exact quiet_of_gate (by simp) _
  | retrying candidates began =>
    cases candidates with
    | nil => exact quiet_of_gate (by simp) _
    | cons candidate rest =>
      dsimp only
      repeat' split
      all_goals exact quiet_of_gate (by simp) _
  | settling candidate rest began succeeded =>
    exact quiet_of_touches (settleRetry_touches candidate succeeded began w.shared)
      (by simp)
  | requesting unfinished began => exact quiet_of_flag true (by simp) _
  | degrading unfinished began =>
    refine quiet_of_touches (degradeAll_touches now w.shared) fun r => ?_
    cases unfinished <;> simp [Gate.afterDegrade]

namespace Tracks

theorem advance (h : w.Tracks limits) (now : ℕ) (reply : BackendReply) :
    (w.step .unbounded limits removes (.advance now reply)).Tracks limits := by
  by_cases hgate : ∃ r, w.gate = .replacing r
  · obtain ⟨r, hr⟩ := hgate
    exact h.replace hr now reply
  obtain ⟨⟨requested, htouch⟩, hnext, hlog⟩ :=
    @advance_quiet limits removes w (fun r hr => hgate ⟨r, hr⟩) now reply
  have hquiet := (h.flag requested).quiet htouch _ (fun r hr => absurd hr (hnext r))
    (w.advance .unbounded limits removes now reply).backend
    (w.advance .unbounded limits removes now reply).degrades
    (w.advance .unbounded limits removes now reply).loaded
  simp only [step, act, hlog]
  exact hquiet

/-- **Every step keeps the record and the state together.** -/
theorem step (h : w.Tracks limits) (action : WatcherAction) :
    (w.step .unbounded limits removes action).Tracks limits := by
  have hpass := h.tick
  cases action with
  | event now event => exact h.event now event
  | backendError =>
    exact (h.flag true).pass w.gate h.gate w.backend (w.degrades + 1) w.loaded
  | degrade now =>
    cases hdegrades : w.degrades with
    | zero =>
      simp only [SoftDiskWatcher.step, act, hdegrades]
      exact h.pass w.gate h.gate w.backend 0 w.loaded
    | succ degrades =>
      simp only [SoftDiskWatcher.step, act, hdegrades]
      exact h.quiet (degradeAll_touches now w.shared) w.gate h.gate w.backend degrades
        w.loaded
  | register id fingerprint root =>
    simp only [SoftDiskWatcher.step, act]
    split
    · split
      · next hcheck =>
        simp only [Bool.and_eq_true, decide_eq_true_eq] at hcheck
        refine h.pass _ (fun r hr owner howner => ?_) w.backend w.degrades w.loaded
        obtain rfl := Gate.replacing.inj hr
        exact owner_of_replace hcheck.2 howner
      · exact hpass
    · exact hpass
  | retry now =>
    simp only [SoftDiskWatcher.step, act]
    split
    · exact h.pass _ (by simp [Gate.Entitled]) w.backend w.degrades w.loaded
    · exact hpass
  | unwatchRetired root now =>
    simp only [SoftDiskWatcher.step, act]
    split
    · split
      · exact hpass
      · exact h.pass _ (by simp [Gate.Entitled]) w.backend w.degrades w.loaded
    · exact hpass
  | advance now reply => exact h.advance now reply
  | retire id => exact h.retire id
  | load reader => exact h.pass w.gate h.gate w.backend w.degrades _
  | capture reader id => exact h.capture reader id
  | acknowledge index => exact h.acknowledge index
  | drain =>
    exact h.quiet (drainChanges_touches w.shared) w.gate h.gate w.backend w.degrades
      w.loaded

end Tracks

end SoftDiskWatcher

/-! ## Every run -/

/-- The target with the deepest root that the path lies under. -/
def Shared.OwnsDeepest (shared : Shared) (path : EventPath) (id : String) (root : Root) : Prop :=
  root <+: path.parts ∧ (∃ t, shared.targets.lookup id = some t ∧ t.root = root) ∧
    ∀ other t, shared.targets.lookup other = some t → t.root <+: path.parts → t.root <+: root

theorem SoftDiskWatcher.Tracks.routePath_iff
    (h : w.Tracks limits) (path : EventPath) (id : String) (root : Root) :
    routePath w.shared.roots path = some (id, root) ↔
      path.absolute = true ∧ w.shared.OwnsDeepest path id root := by
  unfold routePath Shared.OwnsDeepest
  split
  swap
  · next habsolute => simp [habsolute]
  next habsolute =>
  rw [findSome?_ancestors_eq_some]
  simp only [Option.map_eq_some_iff, Prod.mk.injEq, Option.isSome_map,
    Option.isSome_iff_exists, h.roots]
  constructor
  · rintro ⟨deepest, hprefix, ⟨owner, howner, rfl, rfl⟩, hothers⟩
    exact ⟨habsolute, hprefix, howner, fun other t ht hroot => hothers _ hroot ⟨other, t, ht, rfl⟩⟩
  · rintro ⟨-, hprefix, howner, hothers⟩
    refine ⟨root, hprefix, ⟨id, howner, rfl, rfl⟩, ?_⟩
    rintro other hother ⟨owner, t, ht, rfl⟩
    exact hothers owner t ht hother

/-- The watcher after a run, counted by the machine. -/
def SoftDiskWatcher.after (limits : WatcherLimits) (removes : Root → Root → Bool) (now : ℕ)
    (reply : BackendReply) (actions : List WatcherAction) : SoftDiskWatcher :=
  run (SoftDiskWatcher.step .machine limits removes) (.new limits now reply) actions

/-- No generation passes the machine's words during the run. -/
def GenerationsInRange (limits : WatcherLimits) (removes : Root → Root → Bool) (now : ℕ)
    (reply : BackendReply) (actions : List WatcherAction) : Prop :=
  RunsWithin (SoftDiskWatcher.step .machine limits removes)
    (fun w action => (w.step .unbounded limits removes action).shared.InRange)
    (.new limits now reply) actions

/-- **The watcher loses no change**, in every run whose generations stay in range: a change is routed
to the deepest root; until a batch captured after it is acknowledged every capture covers it; the
directories are few and apart; and a batch of an older registration changes nothing. -/
theorem watcher_loses_no_change (limits : WatcherLimits) (removes : Root → Root → Bool) (now : ℕ)
    (reply : BackendReply) (actions : List WatcherAction)
    (h : GenerationsInRange limits removes now reply actions) (w : SoftDiskWatcher)
    (hw : w = .after limits removes now reply actions) :
    (∀ path id root, routePath w.shared.roots path = some (id, root) ↔
      path.absolute = true ∧ w.shared.OwnsDeepest path id root) ∧
    (∀ event ∈ w.log.events, w.log.Current event.targetId event.serial → w.log.Unscanned event →
      ∀ globalGeneration, ∃ batch,
        w.shared.capture globalGeneration event.targetId = some batch ∧
        batch.Covers event.root event.path) ∧
    (∀ id t, w.shared.targets.lookup id = some t →
      t.dirtyPaths.entries.length ≤ limits.maximumDirtyPaths ∧
      ∀ above ∈ t.dirtyPaths.keys, ∀ below ∈ t.dirtyPaths.keys, above <+: below → above = below) ∧
    ∀ entry ∈ w.log.captured, ¬ w.log.Current entry.batch.targetId entry.serial →
      w.shared.acknowledge entry.batch = (w.shared, false) := by
  have hstep : ∀ (w : SoftDiskWatcher) action, w.Tracks limits →
      (w.step .unbounded limits removes action).Tracks limits := fun _ action h => h.step action
  have htracks := run_invariant hstep actions (.new now reply)
  obtain ⟨hrun, -⟩ := h.congr (fun _ _ => SoftDiskWatcher.step_machine)
  rw [← hrun, ← SoftDiskWatcher.after, ← hw] at htracks
  refine ⟨htracks.routePath_iff, fun event hevent hcurrent hunscanned globalGeneration => ?_,
    fun id t ht => ⟨(htracks.tidy id t ht).few, fun above habove below hbelow => ?_⟩,
    fun entry hentry hgone => ?_⟩
  · rw [ChangeLog.Current, htracks.serials, Option.map_eq_some_iff] at hcurrent
    obtain ⟨t, ht, hregistration⟩ := hcurrent
    obtain ⟨-, -, howes⟩ := htracks.events event hevent
    obtain ⟨since, -, -, howed⟩ := howes t ht hregistration
    exact capture_covers ht (howed hunscanned) globalGeneration
  · obtain ⟨_, habove⟩ := Option.isSome_iff_exists.mp (AList.lookup_isSome.mpr habove)
    obtain ⟨_, hbelow⟩ := Option.isSome_iff_exists.mp (AList.lookup_isSome.mpr hbelow)
    exact (htracks.tidy id t ht).apart above below _ _ habove hbelow
  · rw [ChangeLog.Current, htracks.serials, ← (htracks.captured entry hentry).1] at hgone
    unfold Shared.acknowledge
    have hnone : (w.shared.targets.lookup entry.batch.targetId).filter (fun target =>
        target.fingerprint = entry.batch.fingerprint &&
          target.registrationGeneration = entry.batch.registrationGeneration) = none := by
      cases ht : w.shared.targets.lookup entry.batch.targetId with
      | none => rfl
      | some t =>
        rw [ht, Option.map_some, Option.some.injEq] at hgone
        exact Option.filter_some_neg (by simp [hgone])
    simp only [hnone]

/-! ## A run with one change -/

def exampleLimits : WatcherLimits := .new 2 10 5 300

/-- A registration whose watch is installed. -/
def registerSteps (id : String) (root : EventPath) : List WatcherAction :=
  .register id "f" root :: List.replicate 6 (.advance 0 .ok)

/-- The first batch is acknowledged, and a file changes after it. -/
def changedRun : List WatcherAction :=
  registerSteps "t" ⟨true, [.normal "a"]⟩ ++
    [.load 0, .capture 0 "t", .acknowledge 0,
      .event 0 ⟨false, .change, [⟨true, [.normal "a", .normal "b", .normal "c"]⟩]⟩]

theorem changedRun_captured :
    ∃ batch,
      (SoftDiskWatcher.after exampleLimits (· = ·) 0 .ok changedRun).shared.capture 0 "t" =
        some batch ∧
      batch.Covers [.normal "a"] ⟨true, [.normal "a", .normal "b", .normal "c"]⟩ := by
  have hrange : GenerationsInRange exampleLimits (· = ·) 0 .ok changedRun := by
    unfold GenerationsInRange
    decide +kernel
  have hevents : (SoftDiskWatcher.after exampleLimits (· = ·) 0 .ok changedRun).log.events =
      [⟨"t", 1, [.normal "a"], ⟨true, [.normal "a", .normal "b", .normal "c"]⟩, 10⟩] := rfl
  have hcurrent : (SoftDiskWatcher.after exampleLimits (· = ·) 0 .ok changedRun).log.Current "t" 1 :=
    rfl
  obtain ⟨-, hcaptures, -⟩ :=
    watcher_loses_no_change exampleLimits (· = ·) 0 .ok changedRun hrange _ rfl
  refine hcaptures _ (hevents ▸ List.mem_singleton_self _) hcurrent ?_ 0
  unfold ChangeLog.Unscanned
  decide +kernel

end DatabasesEverywhere.Watcher
