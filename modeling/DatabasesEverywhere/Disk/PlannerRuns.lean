import DatabasesEverywhere.Disk.Planner
import DatabasesEverywhere.Foundations.Runs

/-!
# Disk/PlannerRuns — the planner and what has happened to it

A run of the planner keeps a history, newest event first.  One action touches one entry and says so
in one event; `Touch` lists what can happen to an entry, and everything that holds along the runs is
proved from it.

    actions ──observe──▸ planner × history          history = e₃ :: e₂ :: e₁ :: []

A worker may report any candidate that was dispatched, as often as it likes.
-/

open Foundations

namespace DatabasesEverywhere.Disk

/-! ## Actions and events -/

inductive PlannerAction
  | upsertTarget (now : PlannerTick) (spec : TargetSpec)
  | removeTarget (targetId : String)
  | setWatcherTrusted (targetId : String) (trusted : Bool) (now : PlannerTick)
  | markDirty (targetId : String) (now : PlannerTick) (watcherGeneration : ℕ)
  | markOverflow (targetId : String) (now : PlannerTick) (watcherGeneration : ℕ)
  | nextCandidate (now : PlannerTick)
  | complete (candidate : ScanCandidate) (now : PlannerTick) (completion : ScanCompletion)
  | shutdown
  deriving DecidableEq

/-- The time of an action. -/
def PlannerAction.now : PlannerAction → Option PlannerTick
  | upsertTarget now _ | setWatcherTrusted _ _ now | markDirty _ now _ | markOverflow _ now _
  | nextCandidate now | complete _ now _ => some now
  | removeTarget _ | shutdown => none

/-- What an action did.  An overflow is recorded with the revision and the dirty generation it left
in the entry; a call that was refused is `quiet`. -/
inductive PlannerEvent
  | inserted (id : String)
  | reset (id : String)
  | removed (id : String)
  | marked (id : String) (generation : ℕ)
  | overflowed (id : String) (revision generation : ℕ)
  | dispatched (candidate : ScanCandidate)
  | completed (candidate : ScanCandidate) (completion : ScanCompletion)
      (disposition : CompletionDisposition)
  | quiet
  deriving DecidableEq

variable {id : String}

namespace PlannerEvent

/-- The entry an event is about. -/
def target : PlannerEvent → Option String
  | inserted id | reset id | removed id | marked id _ | overflowed id _ _ => some id
  | dispatched candidate | completed candidate _ _ => some candidate.targetId
  | quiet => none

/-- The candidate a worker reports. -/
def reported : PlannerEvent → Option ScanCandidate
  | completed candidate _ _ => some candidate
  | _ => none

/-- The candidate that is handed out. -/
def handedOut : PlannerEvent → Option ScanCandidate
  | dispatched candidate => some candidate
  | _ => none

/-- The entry that is reset. -/
def resetEntry : PlannerEvent → Option String
  | reset id => some id
  | _ => none

/-- The entry starts anew. -/
def Disturbs (id : String) (event : PlannerEvent) : Prop :=
  event = inserted id ∨ event = reset id ∨ event = removed id

instance (id : String) (event : PlannerEvent) : Decidable (event.Disturbs id) :=
  inferInstanceAs (Decidable (_ ∨ _ ∨ _))

variable {event : PlannerEvent}

theorem not_disturbs (hinserted : event ≠ inserted id)
    (hreset : event ≠ reset id) (hremoved : event ≠ removed id) : ¬ event.Disturbs id :=
  fun h => h.elim hinserted (Or.rec hreset hremoved)

theorem Disturbs.target (h : event.Disturbs id) : event.target = some id := by
  rcases h with rfl | rfl | rfl <;> rfl

end PlannerEvent

namespace HybridScanPlanner

def step (planner : HybridScanPlanner) : PlannerAction → HybridScanPlanner × PlannerEvent
  | .upsertTarget now spec =>
    match planner.upsertTarget now spec with
    | (after, .inserted) => (after, .inserted spec.id)
    | (after, .reset) => (after, .reset spec.id)
    | (after, .unchanged) => (after, .quiet)
  | .removeTarget targetId =>
    match planner.removeTarget targetId with
    | (after, true) => (after, .removed targetId)
    | (after, false) => (after, .quiet)
  | .setWatcherTrusted targetId trusted now =>
    match planner.setWatcherTrusted targetId trusted now with
    | (after, true) => (after, .reset targetId)
    | (after, false) => (after, .quiet)
  | .markDirty targetId now watcherGeneration =>
    match planner.markDirty targetId now watcherGeneration with
    | (after, true) => (after, .marked targetId watcherGeneration)
    | (after, false) => (after, .quiet)
  | .markOverflow targetId now watcherGeneration =>
    match planner.markOverflow targetId now watcherGeneration with
    | (after, true) =>
      (after, ((after.targets.lookup targetId).map fun target =>
        .overflowed targetId target.revision target.dirtyGeneration).getD .quiet)
    | (after, false) => (after, .quiet)
  | .nextCandidate now =>
    match planner.nextCandidate now with
    | (after, some candidate) => (after, .dispatched candidate)
    | (after, none) => (after, .quiet)
  | .complete candidate now completion =>
    let (after, disposition) := planner.complete candidate now completion
    (after, .completed candidate completion disposition)
  | .shutdown => (planner.shutdown, .quiet)

end HybridScanPlanner

/-- A planner with everything that has happened to it. -/
structure ObservedPlanner where
  planner : HybridScanPlanner
  history : List PlannerEvent

variable {observed : ObservedPlanner} {action : PlannerAction} {candidate : ScanCandidate}
  {completion : ScanCompletion}

namespace ObservedPlanner

def start (config : PlannerConfig) : ObservedPlanner := ⟨.new config, []⟩

def observe (observed : ObservedPlanner) (action : PlannerAction) : ObservedPlanner :=
  ⟨(observed.planner.step action).1, (observed.planner.step action).2 :: observed.history⟩

/-- The event of an action. -/
abbrev event (observed : ObservedPlanner) (action : PlannerAction) : PlannerEvent :=
  (observed.planner.step action).2

/-- Only candidates that were dispatched are reported. -/
def Issued (observed : ObservedPlanner) (action : PlannerAction) : Prop :=
  ∀ candidate ∈ (observed.event action).reported, .dispatched candidate ∈ observed.history

/-- No candidate is dispatched when the token counter has reached its bound. -/
def TokensLeft (observed : ObservedPlanner) (action : PlannerAction) : Prop :=
  (observed.event action).handedOut.isSome = true → observed.planner.nextToken < u64Max

/-- No entry is reset when its revision has reached its bound. -/
def RevisionsLeft (observed : ObservedPlanner) (action : PlannerAction) : Prop :=
  ∀ id ∈ (observed.event action).resetEntry, ∀ target ∈ observed.planner.targets.lookup id,
    target.revision < u64Max

instance (observed : ObservedPlanner) (action : PlannerAction) :
    Decidable (observed.Issued action) :=
  inferInstanceAs (Decidable (∀ _ ∈ _, _))

instance (observed : ObservedPlanner) (action : PlannerAction) :
    Decidable (observed.TokensLeft action) :=
  inferInstanceAs (Decidable (_ → _))

instance (observed : ObservedPlanner) (action : PlannerAction) :
    Decidable (observed.RevisionsLeft action) :=
  inferInstanceAs (Decidable (∀ _ ∈ _, ∀ _ ∈ _, _))

theorem Issued.mem (h : observed.Issued action) {disposition : CompletionDisposition}
    (hevent : observed.event action = .completed candidate completion disposition) :
    .dispatched candidate ∈ observed.history :=
  h candidate (by rw [hevent]; rfl)

theorem TokensLeft.lt (h : observed.TokensLeft action)
    (hevent : observed.event action = .dispatched candidate) :
    observed.planner.nextToken < u64Max :=
  h (by rw [hevent]; rfl)

end ObservedPlanner

/-! ## What an action does to an entry -/

/-- One event in the life of one entry, at a time. -/
inductive Touch (config : PlannerConfig) (now : PlannerTick) (id : String) :
    Option TargetState → PlannerEvent → Option TargetState → Prop
  | inserted (spec : TargetSpec) : Touch config now id none (.inserted id) (some (.new spec now))
  | reset (target : TargetState) (spec : TargetSpec) (reason : ScanReason) :
      Touch config now id (some target) (.reset id)
        (some (TargetState.reset { target with spec := spec } now reason))
  | removed (target : TargetState) : Touch config now id (some target) (.removed id) none
  | marked (target : TargetState) (generation : ℕ) (henabled : target.spec.enabled = true)
      (hlt : target.dirtyGeneration < generation) :
      Touch config now id (some target) (.marked id generation)
        (some (target.recordDirty config now generation))
  | overflowed (target : TargetState) (generation : ℕ)
      (haccepted : (target.markOverflow config now generation).2 = true) :
      Touch config now id (some target)
        (.overflowed id (target.markOverflow config now generation).1.revision
          (target.markOverflow config now generation).1.dirtyGeneration)
        (some (target.markOverflow config now generation).1)
  | merged (target : TargetState) (generation : ℕ)
      (hrefused : (target.markOverflow config now generation).2 = false) :
      Touch config now id (some target) .quiet (some (target.markOverflow config now generation).1)
  | dispatched (target : TargetState) (work : TargetState.DueWork) (token dispatchOrder : ℕ)
      (hdue : target.dueWork config = some work) (hnow : work.dueAt ≤ now) :
      Touch config now id (some target) (.dispatched (target.candidate id work token))
        (some (target.dispatch now token dispatchOrder))
  | completed {target after : TargetState} {candidate : ScanCandidate}
      {completion : ScanCompletion} {disposition : CompletionDisposition}
      (hid : candidate.targetId = id)
      (hcompletes : target.Completes config candidate now completion after disposition) :
      Touch config now id (some target) (.completed candidate completion disposition) (some after)
  | missing (candidate : ScanCandidate) (completion : ScanCompletion)
      (hid : candidate.targetId = id) :
      Touch config now id none (.completed candidate completion .missing) none
  | quiet (entry : Option TargetState) : Touch config now id entry .quiet entry

variable {event : PlannerEvent} {config : PlannerConfig} {now : PlannerTick}
  {before after : Option TargetState}

theorem Touch.target (h : Touch config now id before event after) :
    event = .quiet ∨ event.target = some id := by
  cases h with
  | merged | quiet => exact .inl rfl
  | completed hid | missing _ _ hid => exact .inr (congrArg some hid)
  | _ => exact .inr rfl

/-- **One action touches one entry.** -/
structure PlannerStep (planner : HybridScanPlanner) (now : PlannerTick) (event : PlannerEvent)
    (after : HybridScanPlanner) : Prop where
  config : after.config = planner.config
  touch : ∃ id, Touch planner.config now id (planner.targets.lookup id) event
    (after.targets.lookup id) ∧
    ∀ other, other ≠ id → after.targets.lookup other = planner.targets.lookup other
  /-- A dispatch draws the next token; nothing else does. -/
  token : (∀ candidate, event = .dispatched candidate → candidate.token = after.nextToken ∧
      after.nextToken = max (saturatingAdd u64Max planner.nextToken 1) 1) ∧
    ((∀ candidate, event ≠ .dispatched candidate) → after.nextToken = planner.nextToken)

variable {planner : HybridScanPlanner} {target : TargetState}

/-- What a step does to an entry: it is touched, or left alone by an event about another one. -/
theorem PlannerStep.entry {after : HybridScanPlanner} (h : PlannerStep planner now event after)
    (id : String) :
    Touch planner.config now id (planner.targets.lookup id) event (after.targets.lookup id) ∨
      event.target ≠ some id ∧ planner.targets.lookup id = after.targets.lookup id := by
  obtain ⟨touched, htouch, hothers⟩ := h.touch
  by_cases hid : id = touched
  · exact .inl (hid ▸ htouch)
  refine .inr ⟨fun htarget => ?_, (hothers id hid).symm⟩
  rcases htouch.target with rfl | hother
  · cases htarget
  · exact hid (Option.some.inj (htarget.symm.trans hother))

namespace HybridScanPlanner

theorem lookup_setTarget (planner : HybridScanPlanner) (id : String) (target : TargetState) :
    (planner.setTarget id target).targets.lookup id = some target :=
  AList.lookup_insert _

theorem lookup_setTarget_ne {other : String} (h : other ≠ id) (target : TargetState) :
    (planner.setTarget id target).targets.lookup other = planner.targets.lookup other :=
  AList.lookup_insert_ne h

/-- An action that leaves the entries and the tokens alone. -/
theorem plannerStep_quiet {after : HybridScanPlanner} (hconfig : after.config = planner.config)
    (htargets : after.targets = planner.targets) (htoken : after.nextToken = planner.nextToken) :
    PlannerStep planner now .quiet after where
  config := hconfig
  touch := ⟨"", by rw [htargets]; exact .quiet _, fun _ _ => by rw [htargets]⟩
  token := ⟨nofun, fun _ => htoken⟩

/-- An action that writes one entry back and dispatches nothing. -/
theorem plannerStep_setTarget {event : PlannerEvent} (hbefore : planner.targets.lookup id = before)
    (htouch : Touch planner.config now id before event (some target))
    (hevent : ∀ candidate, event ≠ .dispatched candidate) :
    PlannerStep planner now event (planner.setTarget id target) where
  config := rfl
  touch := ⟨id, by rwa [lookup_setTarget, hbefore], fun _ hother => lookup_setTarget_ne hother _⟩
  token := ⟨fun candidate h => absurd h (hevent candidate), fun _ => rfl⟩

theorem selected_due {due : Due} (h : planner.selected now = some due) :
    planner.targets.lookup due.id = some due.target ∧
      due.target.dueWork planner.config = some due.work ∧ due.work.dueAt ≤ now := by
  obtain ⟨⟨id, target⟩, hmem, hdue⟩ := List.mem_filterMap.mp (List.argmin_mem h)
  simp only [dueEntry, bind, Option.bind_eq_some_iff, Option.ite_none_right_eq_some,
    Option.some.injEq] at hdue
  obtain ⟨work, hwork, hle, rfl⟩ := hdue
  exact ⟨AList.mem_lookup_iff.mpr hmem, hwork, hle⟩

/-- **The wait of `next_wakeup` is exact**: a candidate is ready from its end on, not before. -/
theorem nextWakeup_exact (planner : HybridScanPlanner) (now elapsed : PlannerTick) :
    (planner.nextCandidate (now + elapsed)).2.isSome = true ↔
      ∃ wait ∈ planner.nextWakeup now, wait ≤ elapsed := by
  rw [nextCandidate, nextWakeup]
  split
  · simp
  simp only [Option.mem_map, exists_exists_and_eq_and, Nat.sub_le_iff_le_add']
  split
  next hnone =>
    refine iff_of_false Bool.false_ne_true ?_
    rintro ⟨dueAt, hmin, hle⟩
    obtain ⟨entry, hentry, hdue⟩ := List.mem_filterMap.mp (List.min?_mem hmin)
    obtain ⟨work, hwork, rfl⟩ := Option.map_eq_some_iff.mp hdue
    have hlate := List.filterMap_eq_nil_iff.mp (List.argmin_eq_none.mp hnone) entry hentry
    simp [dueEntry, hwork, hle] at hlate
  next due hselected =>
    obtain ⟨htarget, hdue, hle⟩ := selected_due hselected
    have hmem : due.work.dueAt ∈ planner.targets.entries.filterMap fun entry =>
        (entry.2.dueWork planner.config).map (·.dueAt) :=
      List.mem_filterMap.mpr ⟨_, AList.mem_lookup_iff.mp htarget, by rw [hdue]; rfl⟩
    obtain ⟨dueAt, hmin⟩ := Option.isSome_iff_exists.mp (List.isSome_min?_of_mem hmem)
    exact iff_of_true rfl ⟨dueAt, hmin, ((List.min?_eq_some_iff.mp hmin).2 _ hmem).trans hle⟩

variable (planner)

/-- What `step_spec` says of every action; one without a time happens at any. -/
def Steps (action : PlannerAction) : Prop :=
  ∀ clock, PlannerStep planner (action.now.getD clock) (planner.step action).2
    (planner.step action).1

theorem upsertTarget_step (now : PlannerTick) (spec : TargetSpec) :
    planner.Steps (.upsertTarget now spec) := by
  intro clock
  rw [step]
  cases htarget : planner.targets.lookup spec.id with
  | none =>
    simp only [upsertTarget, htarget]
    exact plannerStep_setTarget htarget (.inserted spec) nofun
  | some target =>
    by_cases hspec : target.spec = spec
    · simp only [upsertTarget, htarget, if_pos hspec]
      exact plannerStep_quiet rfl rfl rfl
    · simp only [upsertTarget, htarget, if_neg hspec]
      exact plannerStep_setTarget htarget (.reset target spec .targetChanged) nofun

variable (targetId : String)

theorem removeTarget_step : planner.Steps (.removeTarget targetId) := by
  have hothers : ∀ other, other ≠ targetId →
      (planner.targets.erase targetId).lookup other = planner.targets.lookup other :=
    fun other hother => AList.lookup_erase_ne hother
  intro clock
  rw [step]
  cases htarget : planner.targets.lookup targetId with
  | none =>
    have hmem : targetId ∉ planner.targets := AList.lookup_eq_none.mp htarget
    simp only [removeTarget, hmem, decide_false]
    refine ⟨rfl, ⟨targetId, ?_, hothers⟩, ⟨nofun, fun _ => rfl⟩⟩
    rw [AList.lookup_erase, htarget]
    exact .quiet none
  | some target =>
    have hmem : targetId ∈ planner.targets := AList.lookup_isSome.mp (by simp [htarget])
    simp only [removeTarget, hmem, decide_true]
    refine ⟨rfl, ⟨targetId, ?_, hothers⟩, ⟨nofun, fun _ => rfl⟩⟩
    rw [AList.lookup_erase, htarget]
    exact .removed target

theorem setWatcherTrusted_step (trusted : Bool) (now : PlannerTick) :
    planner.Steps (.setWatcherTrusted targetId trusted now) := by
  intro clock
  rw [step]
  cases htarget : planner.targets.lookup targetId with
  | none =>
    simp only [setWatcherTrusted, htarget]
    exact plannerStep_quiet rfl rfl rfl
  | some target =>
    by_cases htrusted : target.spec.watcherTrusted = trusted
    · simp only [setWatcherTrusted, htarget, if_pos htrusted]
      exact plannerStep_quiet rfl rfl rfl
    · simp only [setWatcherTrusted, htarget, if_neg htrusted]
      exact plannerStep_setTarget htarget (.reset target _ .targetChanged) nofun

theorem markDirty_step (now : PlannerTick) (watcherGeneration : ℕ) :
    planner.Steps (.markDirty targetId now watcherGeneration) := by
  intro clock
  rw [step]
  cases htarget : planner.targets.lookup targetId with
  | none =>
    simp only [markDirty, htarget]
    exact plannerStep_quiet rfl rfl rfl
  | some target =>
    cases hmarked : target.markDirty planner.config now watcherGeneration with
    | none =>
      simp only [markDirty, htarget, hmarked]
      exact plannerStep_quiet rfl rfl rfl
    | some marked =>
      simp only [markDirty, htarget, hmarked]
      obtain ⟨henabled, hlt, rfl⟩ := TargetState.markDirty_eq_some hmarked
      exact plannerStep_setTarget htarget (.marked target watcherGeneration henabled hlt) nofun

theorem markOverflow_step (now : PlannerTick) (watcherGeneration : ℕ) :
    planner.Steps (.markOverflow targetId now watcherGeneration) := by
  intro clock
  rw [step]
  cases htarget : planner.targets.lookup targetId with
  | none =>
    simp only [markOverflow, htarget]
    exact plannerStep_quiet rfl rfl rfl
  | some target =>
    cases haccepted : (target.markOverflow planner.config now watcherGeneration).2 with
    | false =>
      simp only [markOverflow, htarget, haccepted]
      exact plannerStep_setTarget htarget (.merged target watcherGeneration haccepted) nofun
    | true =>
      simp only [markOverflow, htarget, haccepted, lookup_setTarget]
      exact plannerStep_setTarget htarget (.overflowed target watcherGeneration haccepted) nofun

theorem nextCandidate_step (now : PlannerTick) : planner.Steps (.nextCandidate now) := by
  intro clock
  rw [step]
  cases hshutdown : planner.isShutdown with
  | true =>
    simp only [nextCandidate, hshutdown, if_true]
    exact plannerStep_quiet rfl rfl rfl
  | false =>
    cases hselected : planner.selected now with
    | none =>
      simp only [nextCandidate, hshutdown, hselected]
      exact plannerStep_quiet rfl rfl rfl
    | some due =>
      obtain ⟨htarget, hdue, hnow⟩ := selected_due hselected
      simp only [nextCandidate, hshutdown, hselected, Bool.false_eq_true, if_false]
      refine ⟨rfl, ⟨due.id, ?_, fun _ hother => lookup_setTarget_ne hother _⟩, ?_, ?_⟩
      · rw [htarget, lookup_setTarget]
        exact .dispatched due.target due.work _ _ hdue hnow
      · rintro candidate h
        cases h
        exact ⟨rfl, rfl⟩
      · exact fun h => absurd rfl (h _)

theorem complete_step (candidate : ScanCandidate) (now : PlannerTick)
    (completion : ScanCompletion) : planner.Steps (.complete candidate now completion) := by
  intro clock
  rw [step]
  cases htarget : planner.targets.lookup candidate.targetId with
  | none =>
    simp only [complete, htarget]
    refine ⟨rfl, ⟨candidate.targetId, ?_, fun _ _ => rfl⟩, ⟨nofun, fun _ => rfl⟩⟩
    rw [htarget]
    exact .missing candidate completion rfl
  | some target =>
    simp only [complete, htarget]
    refine plannerStep_setTarget htarget (.completed rfl ?_) nofun
    exact target.complete_spec planner.config candidate now completion

theorem step_spec (action : PlannerAction) : planner.Steps action := by
  cases action with
  | upsertTarget now spec => exact upsertTarget_step planner now spec
  | removeTarget targetId => exact removeTarget_step planner targetId
  | setWatcherTrusted targetId trusted now => exact setWatcherTrusted_step planner targetId trusted now
  | markDirty targetId now generation => exact markDirty_step planner targetId now generation
  | markOverflow targetId now generation => exact markOverflow_step planner targetId now generation
  | nextCandidate now => exact nextCandidate_step planner now
  | complete candidate now completion => exact complete_step planner candidate now completion
  | shutdown => exact fun _ => plannerStep_quiet rfl rfl rfl

end HybridScanPlanner

namespace ObservedPlanner

variable (observed : ObservedPlanner) (action : PlannerAction)

theorem observe_step (clock : PlannerTick) :
    PlannerStep observed.planner (action.now.getD clock) (observed.event action)
      (observed.observe action).planner :=
  observed.planner.step_spec action clock

theorem observe_history :
    (observed.observe action).history = observed.event action :: observed.history :=
  rfl

end ObservedPlanner

/-! ## Overflows -/

/-- A full scan of the entry that had captured the generation. -/
def PlannerEvent.Covers (id : String) (revision generation : ℕ) (event : PlannerEvent) : Prop :=
  ∃ candidate, event = .completed candidate (.succeeded .full) .applied ∧
    candidate.targetId = id ∧ candidate.revision = revision ∧
    generation ≤ candidate.capturedGeneration

/-- The entry still has to be scanned in full. -/
def RequiresFull (revision generation : ℕ) (entry : Option TargetState) : Prop :=
  ∃ target required, entry = some target ∧ target.revision = revision ∧
    generation ≤ target.dirtyGeneration ∧ target.fullRequirement = some required ∧
    generation ≤ required.generation

/-- One event: the requirement stands, or the entry starts anew, or a full scan covers it. -/
theorem Touch.requiresFull {revision generation : ℕ}
    (h : Touch config now id before event after) (hbefore : RequiresFull revision generation before)
    (hdisturbs : ¬ event.Disturbs id) (hcovers : ¬ event.Covers id revision generation) :
    RequiresFull revision generation after := by
  obtain ⟨target, required, rfl, hrevision, hdirty, hrequired, hgeneration⟩ := hbefore
  cases h with
  | reset => exact absurd (.inr (.inl rfl)) hdisturbs
  | removed => exact absurd (.inr (.inr rfl)) hdisturbs
  | marked _ marked henabled hlt =>
    exact ⟨_, required, rfl, hrevision, hdirty.trans (Nat.le_of_lt hlt), hrequired, hgeneration⟩
  | overflowed _ marked | merged _ marked =>
    have hspec := target.markOverflow_spec config now marked
    obtain ⟨expanded, hexpanded, hle⟩ := hspec.kept required hrequired
    exact ⟨_, expanded, rfl, hspec.revision.trans hrevision, hdirty.trans hspec.dirty, hexpanded,
      hgeneration.trans hle⟩
  | dispatched | quiet => exact ⟨_, required, rfl, hrevision, hdirty, hrequired, hgeneration⟩
  | @completed _ _ candidate completion _ hid hcompletes =>
    cases hcompletes with
    | foreign | released => exact ⟨_, required, rfl, hrevision, hdirty, hrequired, hgeneration⟩
    | applied hlease hcurrent =>
      have hfinished := target.finish_spec config candidate now completion
      rcases hfinished.kept required hrequired with ⟨renewed, hrenewed, hle⟩ | ⟨rfl, hcovered⟩
      · exact ⟨_, renewed, rfl, hfinished.revision.trans hrevision, hfinished.dirty ▸ hdirty,
          hrenewed, (Nat.le_min.mpr ⟨hgeneration, hdirty⟩).trans hle⟩
      · exact absurd ⟨candidate, rfl, hid, hcurrent.symm.trans hrevision,
          hgeneration.trans hcovered⟩ hcovers

/-- While a full scan is required no other is dispatched. -/
theorem Touch.dispatched_full {revision generation : ℕ}
    (h : Touch config now id before (.dispatched candidate) after)
    (hbefore : RequiresFull revision generation before) : candidate.kind = .full := by
  obtain ⟨target, required, rfl, -, -, hrequired, -⟩ := hbefore
  cases h with
  | dispatched _ work token order hdue => exact TargetState.dueWork_required hdue hrequired

/-- An overflow that was accepted and since then neither covered nor overtaken by a new start. -/
def OverflowOpen (id : String) (revision generation : ℕ) (history later : List PlannerEvent) :
    Prop :=
  (∃ earlier, history = later ++ .overflowed id revision generation :: earlier) ∧
    ∀ event ∈ later, ¬ event.Disturbs id ∧ ¬ event.Covers id revision generation

/-- What an open overflow means for its entry. -/
def OverflowKept (history : List PlannerEvent) (id : String) (entry : Option TargetState) : Prop :=
  ∀ revision generation later, OverflowOpen id revision generation history later →
    RequiresFull revision generation entry ∧
      ∀ candidate, .dispatched candidate ∈ later → candidate.targetId = id → candidate.kind = .full

variable {revision generation : ℕ} {later history : List PlannerEvent}
  {entry : Option TargetState}

theorem OverflowOpen.head
    (h : OverflowOpen id revision generation (event :: history) later) :
    later = [] ∧ event = .overflowed id revision generation ∨
      ∃ rest, later = event :: rest ∧ OverflowOpen id revision generation history rest := by
  obtain ⟨earlier, hearlier⟩ := h.1
  rcases List.cons_eq_append_iff.mp hearlier with ⟨rfl, heq⟩ | ⟨rest, rfl, hrest⟩
  · exact .inl ⟨rfl, (List.cons.inj heq).1.symm⟩
  · exact .inr ⟨rest, rfl, ⟨earlier, hrest⟩, fun e he => h.2 e (List.mem_cons_of_mem _ he)⟩

theorem Touch.overflowKept (h : Touch config now id before event after)
    (hbefore : OverflowKept history id before) : OverflowKept (event :: history) id after := by
  intro revision generation later hopen
  rcases hopen.head with ⟨rfl, rfl⟩ | ⟨rest, rfl, hrest⟩
  · refine ⟨?_, nofun⟩
    cases h with
    | overflowed target marked haccepted =>
      have hspec := target.markOverflow_spec config now marked
      obtain ⟨required, hrequired, hle⟩ := hspec.required haccepted
      exact ⟨_, required, rfl, rfl, Nat.le_refl _, hrequired, hle⟩
  obtain ⟨hfull, hdispatched⟩ := hbefore revision generation rest hrest
  obtain ⟨hdisturbs, hcovers⟩ := hopen.2 _ List.mem_cons_self
  refine ⟨h.requiresFull hfull hdisturbs hcovers, fun candidate hmem hid => ?_⟩
  rcases List.mem_cons.mp hmem with rfl | hmem
  · exact h.dispatched_full hfull
  · exact hdispatched candidate hmem hid

theorem OverflowKept.frame (htarget : event.target ≠ some id)
    (h : OverflowKept history id entry) : OverflowKept (event :: history) id entry := by
  intro revision generation later hopen
  rcases hopen.head with ⟨-, rfl⟩ | ⟨rest, rfl, hrest⟩
  · exact absurd rfl htarget
  obtain ⟨hfull, hdispatched⟩ := h revision generation rest hrest
  refine ⟨hfull, fun candidate hmem hid => ?_⟩
  rcases List.mem_cons.mp hmem with rfl | hmem
  · exact absurd (congrArg some hid) htarget
  · exact hdispatched candidate hmem hid

theorem observe_overflowKept (observed : ObservedPlanner) (action : PlannerAction)
    (h : ∀ id, OverflowKept observed.history id (observed.planner.targets.lookup id)) (id : String) :
    OverflowKept (observed.observe action).history id
      ((observed.observe action).planner.targets.lookup id) := by
  rcases (observed.observe_step action 0).entry id with htouch | ⟨htarget, hsame⟩
  · exact htouch.overflowKept (h id)
  · exact hsame ▸ (h id).frame htarget

/-- **An overflow gets its full scan.**  Along every run, as long as the entry has not started anew
and no full scan has covered the generation of an accepted overflow, the requirement stands and
every candidate for the entry is a full one. -/
theorem overflow_requires_full (config : PlannerConfig) (actions : List PlannerAction) (id : String)
    (revision generation : ℕ) (later : List PlannerEvent)
    (hopen : OverflowOpen id revision generation
      (run ObservedPlanner.observe (.start config) actions).history later) :
    RequiresFull revision generation
        ((run ObservedPlanner.observe (.start config) actions).planner.targets.lookup id) ∧
      ∀ candidate, .dispatched candidate ∈ later → candidate.targetId = id →
        candidate.kind = .full := by
  have hkept : ∀ id, OverflowKept (run ObservedPlanner.observe (.start config) actions).history id
      ((run ObservedPlanner.observe (.start config) actions).planner.targets.lookup id) := by
    refine run_invariant observe_overflowKept actions ?_
    rintro id revision generation later ⟨⟨earlier, hearlier⟩, -⟩
    simp [ObservedPlanner.start] at hearlier
  exact hkept id revision generation later hopen

/-- A target that was scanned once and then overflowed. -/
def exampleConfig : PlannerConfig where
  scanInterval := 10
  fullScanInterval := 100
  debounce := 1
  watcherEnabled := true

def exampleSpec : TargetSpec where
  id := "data"
  fingerprint := "generation-1"
  rootIdentity := none
  enabled := true
  watcherTrusted := true
  forcePeriodicFull := false

def firstScan : ScanCandidate where
  targetId := "data"
  kind := .full
  reason := .initial
  fingerprint := "generation-1"
  rootIdentity := none
  capturedGeneration := 0
  revision := 1
  token := 1
  dueAt := 0

def overflowScan : ScanCandidate :=
  { firstScan with reason := .overflow, capturedGeneration := 3, token := 2, dueAt := 2 }

def overflowRun : List PlannerAction :=
  [.upsertTarget 0 exampleSpec, .nextCandidate 0, .complete firstScan 1 (.succeeded .full),
    .markOverflow "data" 2 3, .nextCandidate 2]

theorem overflowRun_requires_full :
    OverflowOpen "data" 1 3 (run ObservedPlanner.observe (.start exampleConfig) overflowRun).history
        [.dispatched overflowScan] ∧
      RequiresFull 1 3 ((run ObservedPlanner.observe (.start exampleConfig)
        overflowRun).planner.targets.lookup "data") := by
  have hopen : OverflowOpen "data" 1 3
      (run ObservedPlanner.observe (.start exampleConfig) overflowRun).history
      [.dispatched overflowScan] := by
    refine ⟨⟨[.completed firstScan (.succeeded .full) .applied, .dispatched firstScan,
      .inserted "data"], by decide +kernel⟩, fun event hmem => ?_⟩
    obtain rfl := List.mem_singleton.mp hmem
    exact ⟨by decide, nofun⟩
  exact ⟨hopen, (overflow_requires_full exampleConfig overflowRun "data" 1 3 _ hopen).1⟩

/-! ## Tokens and leases -/

namespace ObservedPlanner

/-- What the tokens in a history say. -/
structure TokensFresh (observed : ObservedPlanner) : Prop where
  bounded : ∀ candidate, .dispatched candidate ∈ observed.history →
    candidate.token ≤ observed.planner.nextToken
  unique : ∀ candidate other, .dispatched candidate ∈ observed.history →
    .dispatched other ∈ observed.history → candidate.token = other.token → candidate = other
  issued : ∀ candidate completion disposition,
    .completed candidate completion disposition ∈ observed.history →
      .dispatched candidate ∈ observed.history

/-- The token of a dispatch is the successor of the counter. -/
theorem dispatched_token (htokens : observed.TokensLeft action)
    (h : observed.event action = .dispatched candidate) :
    candidate.token = observed.planner.nextToken + 1 ∧
      (observed.observe action).planner.nextToken = observed.planner.nextToken + 1 := by
  obtain ⟨htoken, hnext⟩ := (observed.observe_step action 0).token.1 candidate h
  have hleft := htokens.lt h
  rw [saturatingAdd, Nat.min_eq_left (by omega), Nat.max_eq_left (by omega)] at hnext
  exact ⟨htoken.trans hnext, hnext⟩

theorem nextToken_mono (htokens : observed.TokensLeft action) :
    observed.planner.nextToken ≤ (observed.observe action).planner.nextToken := by
  by_cases h : ∃ candidate, observed.event action = .dispatched candidate
  · obtain ⟨candidate, h⟩ := h
    rw [(dispatched_token htokens h).2]
    exact Nat.le_succ _
  · rw [(observed.observe_step action 0).token.2 fun candidate hevent => h ⟨candidate, hevent⟩]

/-- A dispatch brings a token that no earlier one had. -/
theorem TokensFresh.lt {other : ScanCandidate} (h : observed.TokensFresh)
    (htokens : observed.TokensLeft action) (hevent : observed.event action = .dispatched candidate)
    (hother : .dispatched other ∈ observed.history) : other.token < candidate.token := by
  rw [(dispatched_token htokens hevent).1]
  exact Nat.lt_succ_of_le (h.bounded other hother)

theorem TokensFresh.observe (h : observed.TokensFresh) (hissued : observed.Issued action)
    (htokens : observed.TokensLeft action) : (observed.observe action).TokensFresh where
  bounded candidate hmem := by
    rcases List.mem_cons.mp hmem with hevent | hmem
    · rw [(dispatched_token htokens hevent.symm).2]
      exact Nat.le_of_eq (dispatched_token htokens hevent.symm).1
    · exact (h.bounded candidate hmem).trans (nextToken_mono htokens)
  unique candidate other hmem hother htoken := by
    rcases List.mem_cons.mp hmem with hevent | hmem <;>
      rcases List.mem_cons.mp hother with hevent' | hother
    · exact PlannerEvent.dispatched.inj (hevent.trans hevent'.symm)
    · exact absurd htoken (Nat.ne_of_gt (h.lt htokens hevent.symm hother))
    · exact absurd htoken (Nat.ne_of_lt (h.lt htokens hevent'.symm hmem))
    · exact h.unique candidate other hmem hother htoken
  issued candidate completion disposition hmem := by
    rcases List.mem_cons.mp hmem with hevent | hmem
    · exact List.mem_cons_of_mem _ (hissued.mem hevent.symm)
    · exact List.mem_cons_of_mem _ (h.issued candidate completion disposition hmem)

end ObservedPlanner

/-- The lease of an entry belongs to a candidate that was dispatched for it and has not been
applied. -/
def LeaseOwned (history : List PlannerEvent) (id : String) (entry : Option TargetState) : Prop :=
  ∀ target lease, entry = some target → target.inFlight = some lease →
    ∃ candidate, .dispatched candidate ∈ history ∧ candidate.targetId = id ∧
      lease = ⟨candidate.token, candidate.revision⟩ ∧
      ∀ completion, .completed candidate completion .applied ∉ history

/-- A candidate that was dispatched, not reported since, and whose entry is still there. -/
def Outstanding (id : String) (candidate : ScanCandidate) (history later : List PlannerEvent) :
    Prop :=
  (∃ earlier, history = later ++ .dispatched candidate :: earlier) ∧ candidate.targetId = id ∧
    .removed id ∉ later ∧
    ∀ completion disposition, .completed candidate completion disposition ∉ later

/-- An outstanding candidate holds the lease of its entry, and no other is dispatched for it. -/
def LeaseExclusive (history : List PlannerEvent) (id : String) (entry : Option TargetState) :
    Prop :=
  ∀ candidate later, Outstanding id candidate history later →
    (∃ target, entry = some target ∧
      target.inFlight = some ⟨candidate.token, candidate.revision⟩) ∧
    ∀ other, .dispatched other ∈ later → other.targetId ≠ id

theorem Touch.leaseOwned
    (h : Touch config now id before event after) (hbefore : LeaseOwned history id before)
    (hfresh : ∀ candidate, event = .dispatched candidate →
      ∀ completion, .completed candidate completion .applied ∉ history) :
    LeaseOwned (event :: history) id after := by
  -- A lease that stays is still owned unless this event applies its candidate.
  have hkeep : ∀ (target kept : TargetState), before = some target →
      (∀ lease, kept.inFlight = some lease → target.inFlight = some lease ∧
        ∀ candidate completion, event = .completed candidate completion .applied →
          lease ≠ ⟨candidate.token, candidate.revision⟩) →
      LeaseOwned (event :: history) id (some kept) := by
    rintro target kept hsome hleases _ lease ⟨rfl⟩ hlease
    obtain ⟨hold, hother⟩ := hleases lease hlease
    obtain ⟨candidate, hmem, hid, rfl, hunapplied⟩ := hbefore target lease hsome hold
    refine ⟨candidate, List.mem_cons_of_mem _ hmem, hid, rfl, fun completion happlied => ?_⟩
    rcases List.mem_cons.mp happlied with hevent | happlied
    · exact hother candidate completion hevent.symm rfl
    · exact hunapplied completion happlied
  cases h with
  | inserted => rintro _ lease ⟨rfl⟩ hlease; cases hlease
  | reset target | marked target =>
    exact hkeep target _ rfl fun lease hlease => ⟨hlease, nofun⟩
  | removed | missing => rintro _ lease hnone; cases hnone
  | overflowed target generation | merged target generation =>
    have hinFlight := (target.markOverflow_spec config now generation).inFlight
    exact hkeep target _ rfl fun lease hlease => ⟨hinFlight ▸ hlease, nofun⟩
  | dispatched =>
    rintro _ lease ⟨rfl⟩ hlease
    obtain rfl := Option.some.inj hlease
    refine ⟨_, List.mem_cons_self, rfl, rfl, fun completion happlied => ?_⟩
    rcases List.mem_cons.mp happlied with hevent | happlied
    · cases hevent
    · exact hfresh _ rfl completion happlied
  | @completed target _ candidate completion _ hid hcompletes =>
    cases hcompletes with
    | foreign hlease => exact hkeep target _ rfl fun lease hown => ⟨hown, nofun⟩
    | released hlease => exact hkeep target _ rfl nofun
    | applied hlease =>
      have hnone := (target.finish_spec config candidate now completion).inFlight
      exact hkeep target _ rfl fun lease hown => absurd (hnone.symm.trans hown) nofun
  | quiet =>
    rintro target lease rfl hlease
    exact hkeep target target rfl (fun lease hown => ⟨hown, nofun⟩) target lease rfl hlease

theorem Outstanding.head (h : Outstanding id candidate (event :: history) later) :
    later = [] ∧ event = .dispatched candidate ∨
      ∃ rest, later = event :: rest ∧ Outstanding id candidate history rest := by
  obtain ⟨⟨earlier, hearlier⟩, hid, hremoved, hcompleted⟩ := h
  rcases List.cons_eq_append_iff.mp hearlier with ⟨rfl, heq⟩ | ⟨rest, rfl, hrest⟩
  · exact .inl ⟨rfl, (List.cons.inj heq).1.symm⟩
  · exact .inr ⟨rest, rfl, ⟨earlier, hrest⟩, hid,
      fun hmem => hremoved (List.mem_cons_of_mem _ hmem),
      fun completion disposition hmem =>
        hcompleted completion disposition (List.mem_cons_of_mem _ hmem)⟩

/-- A lease stays in its entry until it is reported or the entry is removed. -/
theorem Touch.keeps_lease {lease : InFlight} (h : Touch config now id (some target) event after)
    (hlease : target.inFlight = some lease) (hremoved : event ≠ .removed id)
    (hreported : ∀ candidate completion disposition,
      event = .completed candidate completion disposition →
        lease ≠ ⟨candidate.token, candidate.revision⟩) :
    ∃ kept, after = some kept ∧ kept.inFlight = some lease := by
  cases h with
  | reset | marked | quiet => exact ⟨_, rfl, hlease⟩
  | removed => exact absurd rfl hremoved
  | overflowed _ generation | merged _ generation =>
    exact ⟨_, rfl, (target.markOverflow_spec config now generation).inFlight.trans hlease⟩
  | dispatched _ work token order hdue =>
    exact absurd (hlease.symm.trans (TargetState.dueWork_inFlight hdue)) nofun
  | completed hid hcompletes =>
    have hother := hreported _ _ _ rfl
    cases hcompletes with
    | foreign => exact ⟨_, rfl, hlease⟩
    | released hown | applied hown => exact absurd (Option.some.inj (hlease.symm.trans hown)) hother

theorem Touch.leaseExclusive
    (h : Touch config now id before event after) (hbefore : LeaseExclusive history id before)
    (hunique : ∀ candidate reported completion disposition,
      event = .completed reported completion disposition → .dispatched candidate ∈ history →
      candidate.token = reported.token → candidate = reported) :
    LeaseExclusive (event :: history) id after := by
  intro candidate later hout
  rcases hout.head with ⟨rfl, rfl⟩ | ⟨rest, rfl, hrest⟩
  · refine ⟨?_, nofun⟩
    cases h with
    | dispatched => exact ⟨_, rfl, rfl⟩
  obtain ⟨⟨target, rfl, hlease⟩, hothers⟩ := hbefore candidate rest hrest
  obtain ⟨-, -, hremoved, hcompleted⟩ := hout
  have hmem : .dispatched candidate ∈ history := by
    obtain ⟨earlier, rfl⟩ := hrest.1
    exact List.mem_append_right _ List.mem_cons_self
  obtain ⟨kept, rfl, hkept⟩ := h.keeps_lease hlease
    (fun hevent => hremoved (hevent ▸ List.mem_cons_self))
    (fun reported completion disposition hevent hsame => by
      obtain rfl := hunique candidate reported completion disposition hevent hmem
        (InFlight.mk.inj hsame).1
      exact hcompleted completion disposition (hevent ▸ List.mem_cons_self))
  refine ⟨⟨kept, rfl, hkept⟩, fun other hother => ?_⟩
  rcases List.mem_cons.mp hother with hevent | hother
  · subst hevent
    cases h with
    | dispatched _ work token order hdue =>
      exact absurd (hlease.symm.trans (TargetState.dueWork_inFlight hdue)) nofun
  · exact hothers other hother

theorem LeaseOwned.frame (htarget : event.target ≠ some id) (h : LeaseOwned history id entry) :
    LeaseOwned (event :: history) id entry := by
  intro target lease hentry hlease
  obtain ⟨candidate, hmem, hid, hown, hunapplied⟩ := h target lease hentry hlease
  refine ⟨candidate, List.mem_cons_of_mem _ hmem, hid, hown, fun completion happlied => ?_⟩
  rcases List.mem_cons.mp happlied with hevent | happlied
  · exact htarget (hevent ▸ congrArg some hid)
  · exact hunapplied completion happlied

theorem LeaseExclusive.frame (htarget : event.target ≠ some id)
    (h : LeaseExclusive history id entry) : LeaseExclusive (event :: history) id entry := by
  intro candidate later hout
  rcases hout.head with ⟨-, hevent⟩ | ⟨rest, rfl, hrest⟩
  · exact absurd (hevent ▸ congrArg some hout.2.1) htarget
  obtain ⟨hlease, hothers⟩ := h candidate rest hrest
  refine ⟨hlease, fun other hother hid => ?_⟩
  rcases List.mem_cons.mp hother with hevent | hother
  · exact htarget (hevent ▸ congrArg some hid)
  · exact hothers other hother hid

/-- The tokens of the completions that were applied. -/
def appliedTokens (history : List PlannerEvent) : List ℕ :=
  history.filterMap fun
    | .completed candidate _ .applied => some candidate.token
    | _ => none

theorem mem_appliedTokens {token : ℕ} (h : token ∈ appliedTokens history) :
    ∃ candidate completion, .completed candidate completion .applied ∈ history ∧
      candidate.token = token := by
  obtain ⟨event, hmem, hevent⟩ := List.mem_filterMap.mp h
  cases event with
  | completed candidate completion disposition =>
    cases disposition with
    | applied => exact ⟨candidate, completion, hmem, Option.some.inj hevent⟩
    | stale => cases hevent
    | missing => cases hevent
  | _ => cases hevent

namespace HybridScanPlanner

/-- The same planner, whatever order its entries are kept in. -/
structure Same (planner after : HybridScanPlanner) : Prop where
  config : after.config = planner.config
  targets : ∀ id, after.targets.lookup id = planner.targets.lookup id
  nextToken : after.nextToken = planner.nextToken
  dispatchOrder : after.dispatchOrder = planner.dispatchOrder
  isShutdown : after.isShutdown = planner.isShutdown

theorem same_setTarget (h : planner.targets.lookup id = some target) :
    planner.Same (planner.setTarget id target) where
  config := rfl
  targets other := by
    by_cases hother : other = id
    · rw [hother, lookup_setTarget, h]
    · exact lookup_setTarget_ne hother target
  nextToken := rfl
  dispatchOrder := rfl
  isShutdown := rfl

/-- The entry is the one the candidate was dispatched for. -/
def Current (candidate : ScanCandidate) (target : TargetState) : Prop :=
  target.inFlight = some ⟨candidate.token, candidate.revision⟩ ∧
    target.revision = candidate.revision ∧ target.spec.fingerprint = candidate.fingerprint ∧
    target.spec.rootIdentity = candidate.rootIdentity

theorem current_of_applied (h : (target.complete config candidate now completion).2 = .applied) :
    Current candidate target := by
  have hcompletes := target.complete_spec config candidate now completion
  rw [h] at hcompletes
  generalize (target.complete config candidate now completion).1 = completed at hcompletes
  cases hcompletes with
  | applied hlease hrevision hfingerprint hroot =>
    exact ⟨hlease, hrevision, hfingerprint, hroot⟩

theorem complete_applied (h : (planner.complete candidate now completion).2 = .applied) :
    ∃ target, planner.targets.lookup candidate.targetId = some target ∧
      Current candidate target := by
  cases htarget : planner.targets.lookup candidate.targetId with
  | none => simp [complete, htarget] at h
  | some target =>
    simp only [complete, htarget] at h
    exact ⟨target, rfl, current_of_applied h⟩

end HybridScanPlanner

theorem Touch.applied
    (h : Touch config now id before (.completed candidate completion .applied) after) :
    ∃ target, before = some target ∧ candidate.targetId = id ∧
      HybridScanPlanner.Current candidate target := by
  cases h with
  | completed hid hcompletes =>
    cases hcompletes with
    | applied hlease hrevision hfingerprint hroot =>
      exact ⟨_, rfl, hid, hlease, hrevision, hfingerprint, hroot⟩

namespace HybridScanPlanner

/-- **A stale completion** changes nothing, or gives its own lease back. -/
theorem complete_stale (h : (planner.complete candidate now completion).2 = .stale) :
    planner.Same (planner.complete candidate now completion).1 ∨
      ∃ target, planner.targets.lookup candidate.targetId = some target ∧
        target.inFlight = some ⟨candidate.token, candidate.revision⟩ ∧
        (planner.complete candidate now completion).1 =
          planner.setTarget candidate.targetId { target with inFlight := none } := by
  cases htarget : planner.targets.lookup candidate.targetId with
  | none => simp [complete, htarget] at h
  | some target =>
    simp only [complete, htarget] at h ⊢
    have hcompletes := target.complete_spec planner.config candidate now completion
    rw [h] at hcompletes
    generalize (target.complete planner.config candidate now completion).1 = completed at *
    cases hcompletes with
    | foreign => exact .inl (same_setTarget htarget)
    | released hlease => exact .inr ⟨target, rfl, hlease, rfl⟩

/-- A candidate carries what its entry was when it was dispatched. -/
theorem nextCandidate_captures (h : (planner.nextCandidate now).2 = some candidate) :
    ∃ target, planner.targets.lookup candidate.targetId = some target ∧ target.inFlight = none ∧
      candidate.revision = target.revision ∧ candidate.fingerprint = target.spec.fingerprint ∧
      candidate.rootIdentity = target.spec.rootIdentity ∧
      candidate.capturedGeneration = target.dirtyGeneration := by
  unfold nextCandidate at h
  split at h
  · cases h
  split at h
  · cases h
  next due hselected =>
    obtain ⟨htarget, hdue, -⟩ := selected_due hselected
    obtain rfl := Option.some.inj h
    exact ⟨due.target, htarget, TargetState.dueWork_inFlight hdue, rfl, rfl, rfl, rfl⟩

end HybridScanPlanner

namespace ObservedPlanner

/-- Everything that holds of the leases of a planner. -/
structure Leases (observed : ObservedPlanner) : Prop where
  tokens : observed.TokensFresh
  owned : ∀ id, LeaseOwned observed.history id (observed.planner.targets.lookup id)
  exclusive : ∀ id, LeaseExclusive observed.history id (observed.planner.targets.lookup id)
  applied : (appliedTokens observed.history).Nodup

theorem leases_start (config : PlannerConfig) : (start config).Leases where
  tokens :=
    { bounded := fun _ h => absurd h List.not_mem_nil
      unique := fun _ _ h => absurd h List.not_mem_nil
      issued := fun _ _ _ h => absurd h List.not_mem_nil }
  owned id target lease h := absurd h (by simp [start, HybridScanPlanner.new])
  exclusive id := by
    rintro candidate later ⟨⟨earlier, hearlier⟩, -⟩
    simp [start] at hearlier
  applied := List.nodup_nil

/-- A token that is applied was not applied before. -/
theorem Leases.unapplied (h : observed.Leases) (hmem : .dispatched candidate ∈ observed.history)
    (htarget : observed.planner.targets.lookup candidate.targetId = some target)
    (hlease : target.inFlight = some ⟨candidate.token, candidate.revision⟩) :
    candidate.token ∉ appliedTokens observed.history := by
  intro happlied
  obtain ⟨owner, howner, -, hown, hunapplied⟩ := h.owned candidate.targetId target _ htarget hlease
  obtain rfl := h.tokens.unique candidate owner hmem howner (InFlight.mk.inj hown).1
  obtain ⟨other, completion, hother, htoken⟩ := mem_appliedTokens happlied
  obtain rfl := h.tokens.unique other candidate (h.tokens.issued _ _ _ hother) hmem htoken
  exact hunapplied completion hother

theorem Leases.observe (h : observed.Leases)
    (hissued : observed.Issued action) (htokens : observed.TokensLeft action) :
    (observed.observe action).Leases where
  tokens := h.tokens.observe hissued htokens
  owned id := by
    rcases (observed.observe_step action 0).entry id with htouch | ⟨htarget, hsame⟩
    · refine htouch.leaseOwned (h.owned id) fun candidate hevent completion happlied => ?_
      have hmem := h.tokens.issued _ _ _ happlied
      exact Nat.lt_irrefl _ (h.tokens.lt htokens hevent hmem)
    · exact hsame ▸ (h.owned id).frame htarget
  exclusive id := by
    rcases (observed.observe_step action 0).entry id with htouch | ⟨htarget, hsame⟩
    · exact htouch.leaseExclusive (h.exclusive id) fun candidate reported _ _ hevent hmem =>
        h.tokens.unique candidate reported hmem (hissued.mem hevent)
    · exact hsame ▸ (h.exclusive id).frame htarget
  applied := by
    rw [observe_history, appliedTokens, List.filterMap_cons]
    split
    · exact h.applied
    rename_i token htoken
    refine List.nodup_cons.mpr ⟨?_, h.applied⟩
    split at htoken
    next candidate completion hevent =>
      obtain rfl := Option.some.inj htoken
      obtain ⟨id, htouch, -⟩ := (observed.observe_step action 0).touch
      rw [hevent] at htouch
      obtain ⟨target, htarget, rfl, hcurrent⟩ := htouch.applied
      exact h.unapplied (hissued.mem hevent) htarget hcurrent.1
    · cases htoken

theorem run_leases {actions : List PlannerAction} (h : RunsWithin observe (fun observed action =>
      observed.Issued action ∧ observed.TokensLeft action) (start config) actions) :
    (run observe (start config) actions).Leases :=
  RunsWithin.invariant (fun _ _ hleases hguard => hleases.observe hguard.1 hguard.2) actions
    (leases_start config) h

end ObservedPlanner

/-- **Completions are exclusive.**  In every run that does not run out of tokens: an outstanding
candidate keeps the lease of its entry and no other is dispatched for it; every lease belongs to one
candidate, which carries what its entry was at its dispatch; a token is applied at most once, and
only to the entry it was dispatched for; a stale completion changes nothing but its own lease. -/
theorem completions_exclusive (config : PlannerConfig) (actions : List PlannerAction)
    (hrun : RunsWithin ObservedPlanner.observe
      (fun observed action => observed.Issued action ∧ observed.TokensLeft action)
      (.start config) actions) :
    let observed := run ObservedPlanner.observe (.start config) actions
    (∀ candidate later, Outstanding candidate.targetId candidate observed.history later →
      (∃ target, observed.planner.targets.lookup candidate.targetId = some target ∧
        target.inFlight = some ⟨candidate.token, candidate.revision⟩) ∧
      ∀ other, .dispatched other ∈ later → other.targetId ≠ candidate.targetId) ∧
    (∀ id target lease, observed.planner.targets.lookup id = some target →
      target.inFlight = some lease →
      ∃ candidate, .dispatched candidate ∈ observed.history ∧ candidate.targetId = id ∧
        lease = ⟨candidate.token, candidate.revision⟩ ∧
        ∀ other, .dispatched other ∈ observed.history → other.token = lease.token →
          other = candidate) ∧
    (∀ now candidate, (observed.planner.nextCandidate now).2 = some candidate →
      ∃ target, observed.planner.targets.lookup candidate.targetId = some target ∧
        target.inFlight = none ∧ candidate.revision = target.revision ∧
        candidate.fingerprint = target.spec.fingerprint ∧
        candidate.rootIdentity = target.spec.rootIdentity ∧
        candidate.capturedGeneration = target.dirtyGeneration) ∧
    (appliedTokens observed.history).Nodup ∧
    ∀ candidate now completion, .dispatched candidate ∈ observed.history →
      ((observed.planner.complete candidate now completion).2 = .applied →
        candidate.token ∉ appliedTokens observed.history ∧
        ∃ target, observed.planner.targets.lookup candidate.targetId = some target ∧
          HybridScanPlanner.Current candidate target) ∧
      ((observed.planner.complete candidate now completion).2 = .stale →
        observed.planner.Same (observed.planner.complete candidate now completion).1 ∨
        ∃ target, observed.planner.targets.lookup candidate.targetId = some target ∧
          target.inFlight = some ⟨candidate.token, candidate.revision⟩ ∧
          (observed.planner.complete candidate now completion).1 =
            observed.planner.setTarget candidate.targetId { target with inFlight := none }) := by
  have hleases := ObservedPlanner.run_leases hrun
  refine ⟨fun candidate later => hleases.exclusive candidate.targetId candidate later, ?_,
    fun _ _ => HybridScanPlanner.nextCandidate_captures, hleases.applied,
    fun candidate now completion hmem => ⟨fun happlied => ?_, HybridScanPlanner.complete_stale⟩⟩
  · intro id target lease htarget hlease
    obtain ⟨candidate, hmem, hid, rfl, -⟩ := hleases.owned id target lease htarget hlease
    exact ⟨candidate, hmem, hid, rfl, fun other hother htoken =>
      hleases.tokens.unique other candidate hother hmem htoken⟩
  · obtain ⟨target, htarget, hcurrent⟩ := HybridScanPlanner.complete_applied happlied
    exact ⟨hleases.unapplied hmem htarget hcurrent.1, target, htarget, hcurrent⟩

/-- The second scan holds the lease, and the first one may not be applied again. -/
theorem overflowRun_exclusive :
    (∃ target, (run ObservedPlanner.observe (.start exampleConfig)
      overflowRun).planner.targets.lookup "data" = some target ∧ target.inFlight = some ⟨2, 1⟩) ∧
    (appliedTokens (run ObservedPlanner.observe (.start exampleConfig) overflowRun).history).Nodup := by
  obtain ⟨houtstanding, -, -, happlied, -⟩ :=
    completions_exclusive exampleConfig overflowRun (by decide +kernel)
  refine ⟨(houtstanding overflowScan [] ⟨⟨_, rfl⟩, rfl, nofun, nofun⟩).1, happlied⟩

end DatabasesEverywhere.Disk
