import DatabasesEverywhere.Foundations.Maps
import DatabasesEverywhere.Foundations.Saturating

/-!
# Disk/Planner — which directory is scanned next, and how

The planner keeps one entry per watched directory.  Notifications raise its dirty generation, a
dispatch captures that generation and leaves a lease in the entry, and a completion that still
matches the lease acknowledges what the scan had captured.

    mark_dirty g ─▸ dirty = g, due          next_candidate ─▸ lease, captured = dirty
    mark_overflow g ─▸ a full scan is required      complete ─▸ acknowledged = captured

A change of the target resets the entry: the revision moves on and the generations start again,
but the lease stays until the worker that holds it reports.  Times are nanoseconds.
-/

open Foundations

namespace DatabasesEverywhere.Disk

/-- A directory as the file system knows it, whatever its path. -/
structure DirectoryIdentity where
  device : ℕ
  inode : ℕ
  deriving DecidableEq

abbrev RootIdentity := DirectoryIdentity

/-! ## Times -/

abbrev PlannerTick := ℕ

/-- `Duration::MAX`. -/
def tickMax : PlannerTick := 2 ^ 64 * 1000000000 - 1

def addTick (left right : PlannerTick) : PlannerTick := saturatingAdd tickMax left right

structure PlannerConfig where
  scanInterval : PlannerTick
  fullScanInterval : PlannerTick
  debounce : PlannerTick
  watcherEnabled : Bool
  deriving DecidableEq

def PlannerConfig.normalized (config : PlannerConfig) : PlannerConfig :=
  let scanInterval := if config.scanInterval = 0 then 1 else config.scanInterval
  { config with
    scanInterval := scanInterval
    fullScanInterval := max config.fullScanInterval scanInterval }

def debouncedCadenceDue (now debounce scanInterval : PlannerTick) : PlannerTick :=
  max (addTick now debounce) (addTick now scanInterval)

/-! ## Targets and candidates -/

structure TargetSpec where
  id : String
  fingerprint : String
  rootIdentity : Option RootIdentity
  enabled : Bool
  watcherTrusted : Bool
  forcePeriodicFull : Bool
  deriving DecidableEq

inductive ScanKind
  | full | partly
  deriving DecidableEq

inductive ScanReason
  | initial | targetChanged | dirty | overflow | watcherFallback | periodicFull | fullDeadline
  | partialFallback | retryAfterFailure
  deriving DecidableEq

structure ScanCandidate where
  targetId : String
  kind : ScanKind
  reason : ScanReason
  fingerprint : String
  rootIdentity : Option RootIdentity
  capturedGeneration : ℕ
  revision : ℕ
  token : ℕ
  dueAt : PlannerTick
  deriving DecidableEq

inductive ScanCompletion
  | succeeded (performed : ScanKind)
  | failed
  deriving DecidableEq

inductive CompletionDisposition
  | applied | stale | missing
  deriving DecidableEq

inductive UpsertDisposition
  | inserted | reset | unchanged
  deriving DecidableEq

structure FullRequirement where
  dueAt : PlannerTick
  generation : ℕ
  reason : ScanReason
  deriving DecidableEq

structure InFlight where
  token : ℕ
  revision : ℕ
  deriving DecidableEq

structure TargetState where
  spec : TargetSpec
  revision : ℕ
  dirtyGeneration : ℕ
  acknowledgedGeneration : ℕ
  dirtyDue : Option PlannerTick
  baselineAvailable : Bool
  fullRequirement : Option FullRequirement
  lastDispatchAt : Option PlannerTick
  lastScanAt : Option PlannerTick
  lastFullAt : Option PlannerTick
  nextPeriodicDue : PlannerTick
  fullDeadline : PlannerTick
  inFlight : Option InFlight
  lastDispatchOrder : ℕ
  deriving DecidableEq

namespace TargetState

/-- The requirement of an entry that has never been scanned. -/
def firstRequirement (spec : TargetSpec) (now : PlannerTick) (reason : ScanReason) :
    Option FullRequirement :=
  if spec.enabled then some { dueAt := now, generation := 0, reason := reason } else none

def new (spec : TargetSpec) (now : PlannerTick) : TargetState where
  spec := spec
  revision := 1
  dirtyGeneration := 0
  acknowledgedGeneration := 0
  dirtyDue := none
  baselineAvailable := false
  fullRequirement := firstRequirement spec now .initial
  lastDispatchAt := none
  lastScanAt := none
  lastFullAt := none
  nextPeriodicDue := now
  fullDeadline := now
  inFlight := none
  lastDispatchOrder := 0

variable (target : TargetState)

/-- The lease stays until its worker, stale by then, completes. -/
def reset (now : PlannerTick) (reason : ScanReason) : TargetState :=
  { target with
    revision := saturatingAdd u64Max target.revision 1
    dirtyGeneration := 0
    acknowledgedGeneration := 0
    dirtyDue := none
    baselineAvailable := false
    fullRequirement := firstRequirement target.spec now reason
    lastDispatchAt := target.inFlight.bind fun _ => target.lastDispatchAt
    lastScanAt := none
    lastFullAt := none
    nextPeriodicDue := now
    fullDeadline := now }

/-- The greater of two optional times; no time is the least. -/
def laterTick : Option PlannerTick → Option PlannerTick → Option PlannerTick
  | some left, some right => some (max left right)
  | left, none => left
  | none, right => right

def nextDirtyDue (now : PlannerTick) (config : PlannerConfig) : PlannerTick :=
  let debounceDue := addTick now config.debounce
  let lastActivity := laterTick target.lastScanAt target.lastDispatchAt
  let cadenceDue := (lastActivity.map fun activity => addTick activity config.scanInterval).getD 0
  max debounceDue cadenceDue

variable (config : PlannerConfig)

/-- The debounce is on its leading edge: a due time that stands is kept. -/
def recordDirty (now : PlannerTick) (watcherGeneration : ℕ) : TargetState :=
  let marked := { target with dirtyGeneration := watcherGeneration }
  { marked with dirtyDue := some (marked.dirtyDue.getD (marked.nextDirtyDue now config)) }

/-- `none` where the source returns `false`. -/
def markDirty (now : PlannerTick) (watcherGeneration : ℕ) : Option TargetState :=
  if !target.spec.enabled || watcherGeneration = 0 || watcherGeneration ≤ target.dirtyGeneration
  then none
  else some (target.recordDirty config now watcherGeneration)

variable {target} {now : PlannerTick}

theorem markDirty_eq_some {marked : TargetState} {config : PlannerConfig} {generation : ℕ}
    (h : target.markDirty config now generation = some marked) :
    target.spec.enabled = true ∧ target.dirtyGeneration < generation ∧
      target.recordDirty config now generation = marked := by
  simp only [markDirty, Option.ite_none_left_eq_some, Option.some.injEq] at h
  obtain ⟨hrefused, hmarked⟩ := h
  simp only [Bool.or_eq_true, Bool.not_eq_true', decide_eq_true_eq, not_or, Nat.not_le,
    Bool.not_eq_false] at hrefused
  exact ⟨hrefused.1.1, hrefused.2, hmarked⟩

/-- Merges an overflow into the requirement that stands, or makes one. -/
def requireOverflow (target : TargetState) (now : PlannerTick) (generationAdvanced : Bool) :
    TargetState × Bool :=
  match target.fullRequirement with
  | some required =>
    let expanded := max required.generation target.dirtyGeneration
    if required.reason = .retryAfterFailure then
      -- A new generation may expand, but never erase, a failed scan's backoff.
      ({ target with fullRequirement := some { required with generation := expanded } },
        generationAdvanced)
    else if !generationAdvanced then (target, false)
    else
      let reason := if required.dueAt ≤ now then .overflow else required.reason
      ({ target with
          fullRequirement := some { required with generation := expanded, reason := reason } },
        true)
  | none =>
    ({ target with
        fullRequirement := some
          { dueAt := now, generation := target.dirtyGeneration, reason := .overflow } },
      true)

def markOverflow (target : TargetState) (config : PlannerConfig) (now : PlannerTick)
    (watcherGeneration : ℕ) : TargetState × Bool :=
  if !target.spec.enabled then (target, false)
  else
    let generationAdvanced : Bool := target.dirtyGeneration < watcherGeneration
    let marked :=
      if generationAdvanced then target.recordDirty config now watcherGeneration else target
    marked.requireOverflow now generationAdvanced

/-! ## Completions -/

def recordFullScan (target : TargetState) (now : PlannerTick) (candidate : ScanCandidate)
    (config : PlannerConfig) : TargetState :=
  let scanned :=
    { target with
      baselineAvailable := true
      lastFullAt := some now
      fullDeadline := addTick now config.fullScanInterval }
  match scanned.fullRequirement with
  | none => scanned
  | some required =>
    if required.generation ≤ candidate.capturedGeneration then
      { scanned with fullRequirement := none }
    else
      -- An overflow the scan did not cover stays pending, at the base cadence.
      let reason := if required.reason = .retryAfterFailure then .overflow else required.reason
      let cadenceDue := addTick now config.scanInterval
      { scanned with
        fullRequirement := some
          { required with
            reason := reason
            dueAt := min (max required.dueAt cadenceDue) scanned.fullDeadline } }

def requireFullAfter (target : TargetState) (now : PlannerTick) (candidate : ScanCandidate)
    (reason : ScanReason) (debounce scanInterval : PlannerTick) : TargetState :=
  { target with
    fullRequirement := some
      { dueAt := debouncedCadenceDue now debounce scanInterval
        generation := max target.dirtyGeneration candidate.capturedGeneration
        reason := reason } }

def acknowledgeGeneration (target : TargetState) (capturedGeneration : ℕ)
    (now debounce scanInterval : PlannerTick) : TargetState :=
  { target with
    acknowledgedGeneration := max target.acknowledgedGeneration capturedGeneration
    dirtyDue :=
      if target.dirtyGeneration ≤ capturedGeneration then none
      else some (debouncedCadenceDue now debounce scanInterval) }

/-- The lease is given back and the scan is noted. -/
def release (target : TargetState) (config : PlannerConfig) (now : PlannerTick) : TargetState :=
  { target with
    inFlight := none
    lastScanAt := some now
    nextPeriodicDue := addTick now config.scanInterval }

/-- What a completion that still matches its entry leaves there. -/
def finish (target : TargetState) (config : PlannerConfig) (candidate : ScanCandidate)
    (now : PlannerTick) (completion : ScanCompletion) : TargetState :=
  let released := target.release config now
  match completion with
  | .succeeded performed =>
    if candidate.kind = .full ∧ performed ≠ .full then
      released.requireFullAfter now candidate .partialFallback config.debounce config.scanInterval
    else
      let acknowledged := released.acknowledgeGeneration candidate.capturedGeneration now
        config.debounce config.scanInterval
      if performed = .full then acknowledged.recordFullScan now candidate config else acknowledged
  | .failed =>
    { released with
      fullRequirement := some
        { dueAt := addTick now config.scanInterval
          generation := max released.dirtyGeneration candidate.capturedGeneration
          reason := .retryAfterFailure } }

def complete (target : TargetState) (config : PlannerConfig) (candidate : ScanCandidate)
    (now : PlannerTick) (completion : ScanCompletion) : TargetState × CompletionDisposition :=
  match target.inFlight with
  | none => (target, .stale)
  | some inFlight =>
    if inFlight.token ≠ candidate.token ∨ inFlight.revision ≠ candidate.revision then
      (target, .stale)
    else if target.revision ≠ candidate.revision ∨ target.spec.fingerprint ≠ candidate.fingerprint ∨
        target.spec.rootIdentity ≠ candidate.rootIdentity then
      -- A worker from before the reset only releases its lease.
      ({ target with inFlight := none }, .stale)
    else (target.finish config candidate now completion, .applied)

/-! ## Work that is due -/

structure DueWork where
  dueAt : PlannerTick
  kind : ScanKind
  reason : ScanReason
  deriving DecidableEq

def dueWork (target : TargetState) (config : PlannerConfig) : Option DueWork :=
  if !target.spec.enabled || target.inFlight.isSome then none
  else
    match target.fullRequirement with
    | some required => some ⟨required.dueAt, .full, required.reason⟩
    | none =>
      if !target.baselineAvailable then some ⟨target.nextPeriodicDue, .full, .initial⟩
      else if !config.watcherEnabled || !target.spec.watcherTrusted then
        some ⟨target.nextPeriodicDue, .full, .watcherFallback⟩
      else if target.spec.forcePeriodicFull then
        some ⟨target.nextPeriodicDue, .full, .periodicFull⟩
      else
        match target.dirtyDue with
        | none => some ⟨target.fullDeadline, .full, .fullDeadline⟩
        | some dirtyDue =>
          if dirtyDue < target.fullDeadline then some ⟨dirtyDue, .partly, .dirty⟩
          else some ⟨target.fullDeadline, .full, .fullDeadline⟩

def dispatch (target : TargetState) (now : PlannerTick) (token dispatchOrder : ℕ) : TargetState :=
  { target with
    lastDispatchOrder := dispatchOrder
    lastDispatchAt := some now
    inFlight := some { token := token, revision := target.revision } }

def candidate (target : TargetState) (id : String) (work : DueWork) (token : ℕ) :
    ScanCandidate where
  targetId := id
  kind := work.kind
  reason := work.reason
  fingerprint := target.spec.fingerprint
  rootIdentity := target.spec.rootIdentity
  capturedGeneration := target.dirtyGeneration
  revision := target.revision
  token := token
  dueAt := work.dueAt

/-! ## What an entry keeps -/

/-- What an overflow does to an entry. -/
structure Overflowed (target after : TargetState) (accepted : Bool) : Prop where
  spec : after.spec = target.spec
  revision : after.revision = target.revision
  inFlight : after.inFlight = target.inFlight
  acknowledged : after.acknowledgedGeneration = target.acknowledgedGeneration
  dirty : target.dirtyGeneration ≤ after.dirtyGeneration
  due : after.dirtyGeneration = target.dirtyGeneration ∧ after.dirtyDue = target.dirtyDue ∨
    after.dirtyDue.isSome = true ∧ after.spec.enabled = true
  /-- A requirement never shrinks … -/
  kept : ∀ required, target.fullRequirement = some required →
    ∃ expanded, after.fullRequirement = some expanded ∧ required.generation ≤ expanded.generation
  /-- … and an overflow that is accepted is covered by one. -/
  required : accepted = true → ∃ required, after.fullRequirement = some required ∧
    after.dirtyGeneration ≤ required.generation
  baseline : after.baselineAvailable = target.baselineAvailable
  scanned : after.lastScanAt = target.lastScanAt
  dispatched : after.lastDispatchAt = target.lastDispatchAt
  deadline : after.fullDeadline = target.fullDeadline
  unrequired : after.fullRequirement = none →
    target.fullRequirement = none ∧ after.dirtyDue = target.dirtyDue

/-- An overflow that changes the requirement only. -/
theorem Overflowed.of_requirement {requirement : Option FullRequirement} {accepted : Bool}
    (hkept : ∀ required, target.fullRequirement = some required →
      ∃ expanded, requirement = some expanded ∧ required.generation ≤ expanded.generation)
    (hrequired : accepted = true → ∃ required, requirement = some required ∧
      target.dirtyGeneration ≤ required.generation) :
    Overflowed target { target with fullRequirement := requirement } accepted := by
  refine ⟨rfl, rfl, rfl, rfl, Nat.le_refl _, .inl ⟨rfl, rfl⟩, hkept, hrequired, rfl, rfl, rfl, rfl,
    fun hnone => ⟨?_, rfl⟩⟩
  by_contra hsome
  obtain ⟨required, hsome⟩ := Option.ne_none_iff_exists'.mp hsome
  obtain ⟨expanded, hexpanded, -⟩ := hkept required hsome
  exact absurd (hexpanded.symm.trans hnone) nofun

theorem requireOverflow_spec (target : TargetState) (now : PlannerTick) (advanced : Bool) :
    Overflowed target (target.requireOverflow now advanced).1
      (target.requireOverflow now advanced).2 := by
  cases hrequired : target.fullRequirement with
  | none =>
    simp only [requireOverflow, hrequired]
    exact .of_requirement (by simp [hrequired]) fun _ => ⟨_, rfl, Nat.le_refl _⟩
  | some required =>
    have hdirty := Nat.le_max_right required.generation target.dirtyGeneration
    simp only [requireOverflow, hrequired]
    split
    case isTrue => exact .of_requirement (by simp [hrequired]) fun _ => ⟨_, rfl, hdirty⟩
    case isFalse =>
      split
      case isTrue => exact .of_requirement (fun r hr => ⟨r, hr, Nat.le_refl _⟩) nofun
      case isFalse => exact .of_requirement (by simp [hrequired]) fun _ => ⟨_, rfl, hdirty⟩

theorem markOverflow_spec (target : TargetState) (config : PlannerConfig) (now : PlannerTick)
    (generation : ℕ) :
    Overflowed target (target.markOverflow config now generation).1
      (target.markOverflow config now generation).2 := by
  cases henabled : target.spec.enabled with
  | false =>
    simp only [markOverflow, henabled, Bool.not_false, if_true]
    exact .of_requirement (fun r hr => ⟨r, hr, Nat.le_refl _⟩) nofun
  | true =>
    simp only [markOverflow, henabled, Bool.not_true, Bool.false_eq_true, if_false]
    by_cases hlt : target.dirtyGeneration < generation
    · simp only [hlt, decide_true, if_true]
      have hmarked := requireOverflow_spec (target.recordDirty config now generation) now true
      obtain ⟨required, hsome, -⟩ := hmarked.required (by
        unfold requireOverflow
        repeat' split
        all_goals simp_all)
      refine { hmarked with
        dirty := Nat.le_trans (Nat.le_of_lt hlt) hmarked.dirty
        due := .inr ?_
        unrequired := fun hnone => absurd (hsome.symm.trans hnone) nofun }
      rcases hmarked.due with ⟨-, hdue⟩ | hdue
      · exact ⟨by rw [hdue]; rfl, by rw [hmarked.spec]; exact henabled⟩
      · exact hdue
    · simp only [hlt, decide_false, Bool.false_eq_true, if_false]
      exact requireOverflow_spec target now false

/-- A scan that succeeded as it was asked for. -/
def Acknowledges (candidate : ScanCandidate) (completion : ScanCompletion) : Prop :=
  ∃ performed, completion = .succeeded performed ∧
    (candidate.kind = .full → performed = .full)

/-- What a completion that is applied does to an entry. -/
structure Finished (target : TargetState) (config : PlannerConfig) (candidate : ScanCandidate)
    (now : PlannerTick) (completion : ScanCompletion) (after : TargetState) : Prop where
  spec : after.spec = target.spec
  revision : after.revision = target.revision
  inFlight : after.inFlight = none
  dirty : after.dirtyGeneration = target.dirtyGeneration
  generations :
    Acknowledges candidate completion ∧
        after.acknowledgedGeneration =
          max target.acknowledgedGeneration candidate.capturedGeneration ∧
        (candidate.capturedGeneration < target.dirtyGeneration → after.dirtyDue.isSome = true) ∨
      after.acknowledgedGeneration = target.acknowledgedGeneration ∧
        after.dirtyDue = target.dirtyDue
  /-- A requirement falls only to a full scan that covers it. -/
  kept : ∀ required, target.fullRequirement = some required →
    (∃ renewed, after.fullRequirement = some renewed ∧
      min required.generation target.dirtyGeneration ≤ renewed.generation) ∨
    completion = .succeeded .full ∧ required.generation ≤ candidate.capturedGeneration
  scanned : after.lastScanAt = some now
  /-- Notifications that came in flight wait for an interval. -/
  due : after.fullRequirement = none → ∀ due, after.dirtyDue = some due →
    addTick now config.scanInterval ≤ due
  /-- The deadline moves with a full scan only. -/
  deadline :
    completion = .succeeded .full ∧ after.fullDeadline = addTick now config.fullScanInterval ∨
      after.fullDeadline = target.fullDeadline ∧
        after.baselineAvailable = target.baselineAvailable

variable {required : FullRequirement}

theorem recordFullScan_requirement {candidate : ScanCandidate} {config : PlannerConfig}
    (h : target.fullRequirement = some required) :
    (∃ renewed, (target.recordFullScan now candidate config).fullRequirement = some renewed ∧
      required.generation = renewed.generation) ∨
    required.generation ≤ candidate.capturedGeneration := by
  by_cases hcovered : required.generation ≤ candidate.capturedGeneration
  · exact .inr hcovered
  · simp only [recordFullScan, h, if_neg hcovered]
    exact .inl ⟨_, rfl, rfl⟩

theorem recordFullScan_keeps (target : TargetState) (now : PlannerTick) (candidate : ScanCandidate)
    (config : PlannerConfig) :
    let scanned := target.recordFullScan now candidate config
    scanned.spec = target.spec ∧ scanned.revision = target.revision ∧
      scanned.inFlight = target.inFlight ∧ scanned.dirtyGeneration = target.dirtyGeneration ∧
      scanned.acknowledgedGeneration = target.acknowledgedGeneration ∧
      scanned.dirtyDue = target.dirtyDue ∧ scanned.lastScanAt = target.lastScanAt ∧
      scanned.fullDeadline = addTick now config.fullScanInterval := by
  cases hrequired : target.fullRequirement with
  | none => simp [recordFullScan, hrequired]
  | some required =>
    simp only [recordFullScan, hrequired]
    split <;> simp

theorem acknowledgeGeneration_due {captured : ℕ} {debounce scanInterval : PlannerTick}
    (h : captured < target.dirtyGeneration) :
    (target.acknowledgeGeneration captured now debounce scanInterval).dirtyDue.isSome = true := by
  simp [acknowledgeGeneration, Nat.not_le.mpr h]

theorem acknowledgeGeneration_le {captured : ℕ} {debounce scanInterval due : PlannerTick}
    (h : (target.acknowledgeGeneration captured now debounce scanInterval).dirtyDue = some due) :
    addTick now scanInterval ≤ due := by
  simp only [acknowledgeGeneration, Option.ite_none_left_eq_some, Option.some.injEq] at h
  exact h.2 ▸ le_max_right _ _

theorem finish_spec (target : TargetState) (config : PlannerConfig) (candidate : ScanCandidate)
    (now : PlannerTick) (completion : ScanCompletion) :
    Finished target config candidate now completion
      (target.finish config candidate now completion) := by
  have hrenewed : ∀ generation,
      min generation target.dirtyGeneration ≤
        max target.dirtyGeneration candidate.capturedGeneration := fun _ =>
    (Nat.min_le_right _ _).trans (Nat.le_max_left _ _)
  cases completion with
  | failed =>
    exact ⟨rfl, rfl, rfl, rfl, .inr ⟨rfl, rfl⟩, fun r _ => .inl ⟨_, rfl, hrenewed _⟩, rfl, nofun,
      .inr ⟨rfl, rfl⟩⟩
  | succeeded performed =>
    by_cases hdowngraded : candidate.kind = .full ∧ performed ≠ .full
    · simp only [finish, if_pos hdowngraded]
      exact ⟨rfl, rfl, rfl, rfl, .inr ⟨rfl, rfl⟩, fun r _ => .inl ⟨_, rfl, hrenewed _⟩, rfl, nofun,
        .inr ⟨rfl, rfl⟩⟩
    have hacknowledges : Acknowledges candidate (.succeeded performed) :=
      ⟨performed, rfl, fun hkind => not_not.mp fun h => hdowngraded ⟨hkind, h⟩⟩
    by_cases hperformed : performed = .full
    swap
    · simp only [finish, if_neg hdowngraded, if_neg hperformed]
      exact ⟨rfl, rfl, rfl, rfl,
        .inl ⟨hacknowledges, rfl, fun hlt => acknowledgeGeneration_due hlt⟩,
        fun r hr => .inl ⟨r, hr, Nat.min_le_left _ _⟩, rfl,
        fun _ due h => acknowledgeGeneration_le h, .inr ⟨rfl, rfl⟩⟩
    simp only [finish, if_neg hdowngraded, if_pos hperformed]
    obtain ⟨hspec, hrevision, hinFlight, hdirty, hack, hdue, hscanned, hdeadline⟩ := recordFullScan_keeps
      ((target.release config now).acknowledgeGeneration candidate.capturedGeneration now
        config.debounce config.scanInterval) now candidate config
    refine ⟨hspec, hrevision, hinFlight, hdirty, .inl ⟨hacknowledges, hack, ?_⟩, ?_, hscanned,
      fun _ due h => acknowledgeGeneration_le (hdue ▸ h), .inl ⟨congrArg _ hperformed, hdeadline⟩⟩
    · exact fun hlt => hdue ▸ acknowledgeGeneration_due hlt
    intro required hrequired
    have hscan := @recordFullScan_requirement
      ((target.release config now).acknowledgeGeneration candidate.capturedGeneration now
        config.debounce config.scanInterval) now required candidate config hrequired
    rcases hscan with ⟨renewed, hrenew, heq⟩ | hcovered
    · exact .inl ⟨renewed, hrenew, heq ▸ Nat.min_le_left _ _⟩
    · exact .inr ⟨congrArg _ hperformed, hcovered⟩

/-- The three ways a completion ends. -/
inductive Completes (target : TargetState) (config : PlannerConfig) (candidate : ScanCandidate)
    (now : PlannerTick) (completion : ScanCompletion) : TargetState → CompletionDisposition → Prop
  /-- The lease is not the worker's, or there is none. -/
  | foreign (h : target.inFlight ≠ some ⟨candidate.token, candidate.revision⟩) :
      Completes target config candidate now completion target .stale
  /-- The lease is the worker's, but the entry has moved on. -/
  | released (h : target.inFlight = some ⟨candidate.token, candidate.revision⟩)
      (hmoved : target.revision ≠ candidate.revision ∨
        target.spec.fingerprint ≠ candidate.fingerprint ∨
        target.spec.rootIdentity ≠ candidate.rootIdentity) :
      Completes target config candidate now completion { target with inFlight := none } .stale
  | applied (h : target.inFlight = some ⟨candidate.token, candidate.revision⟩)
      (hrevision : target.revision = candidate.revision)
      (hfingerprint : target.spec.fingerprint = candidate.fingerprint)
      (hroot : target.spec.rootIdentity = candidate.rootIdentity) :
      Completes target config candidate now completion
        (target.finish config candidate now completion) .applied

theorem complete_spec (target : TargetState) (config : PlannerConfig) (candidate : ScanCandidate)
    (now : PlannerTick) (completion : ScanCompletion) :
    Completes target config candidate now completion
      (target.complete config candidate now completion).1
      (target.complete config candidate now completion).2 := by
  unfold complete
  cases hinFlight : target.inFlight with
  | none => exact .foreign (by simp [hinFlight])
  | some inFlight =>
    simp only
    split
    case isTrue hlease =>
      refine .foreign fun h => ?_
      obtain rfl := Option.some.inj (hinFlight.symm.trans h)
      exact hlease.elim (absurd rfl) (absurd rfl)
    case isFalse hlease =>
      simp only [not_or, not_not] at hlease
      have hown : target.inFlight = some ⟨candidate.token, candidate.revision⟩ := by
        rw [hinFlight, ← hlease.1, ← hlease.2]
      split
      case isTrue hmoved => exact .released hown hmoved
      case isFalse hentry =>
        simp only [not_or, not_not] at hentry
        exact .applied hown hentry.1 hentry.2.1 hentry.2.2

variable {config} {work : DueWork}

theorem dueWork_inFlight (h : target.dueWork config = some work) : target.inFlight = none:= by
  cases hinFlight : target.inFlight with
  | none => rfl
  | some lease => simp [dueWork, hinFlight] at h

theorem dueWork_required (h : target.dueWork config = some work)
    (hrequired : target.fullRequirement = some required) : work.kind = .full := by
  simp only [dueWork, hrequired, Option.ite_none_left_eq_some, Option.some.injEq] at h
  rw [← h.2]

/-- An enabled entry that no worker holds always has work to come. -/
theorem dueWork_isSome
    (henabled : target.spec.enabled = true) (hinFlight : target.inFlight = none) :
    (target.dueWork config).isSome = true := by
  simp only [dueWork, henabled, hinFlight, Bool.not_true, Option.isSome_none, Bool.or_self,
    Bool.false_eq_true, if_false]
  repeat' split
  all_goals rfl

end TargetState

/-! ## The planner -/

structure HybridScanPlanner where
  config : PlannerConfig
  targets : Map String TargetState := ∅
  nextToken : ℕ := 0
  dispatchOrder : ℕ := 0
  isShutdown : Bool := false

namespace HybridScanPlanner

def new (config : PlannerConfig) : HybridScanPlanner := { config := config.normalized }

variable (planner : HybridScanPlanner)

/-- Writes an entry back. -/
def setTarget (id : String) (target : TargetState) : HybridScanPlanner :=
  { planner with targets := planner.targets.insert id target }

variable (targetId : String) (now : PlannerTick)

def upsertTarget (spec : TargetSpec) : HybridScanPlanner × UpsertDisposition :=
  match planner.targets.lookup spec.id with
  | none => (planner.setTarget spec.id (.new spec now), .inserted)
  | some target =>
    if target.spec = spec then (planner, .unchanged)
    else
      (planner.setTarget spec.id (TargetState.reset { target with spec := spec } now .targetChanged),
        .reset)

def removeTarget : HybridScanPlanner × Bool :=
  ({ planner with targets := planner.targets.erase targetId }, targetId ∈ planner.targets)

def setWatcherTrusted (trusted : Bool) (now : PlannerTick) : HybridScanPlanner × Bool :=
  match planner.targets.lookup targetId with
  | none => (planner, false)
  | some target =>
    if target.spec.watcherTrusted = trusted then (planner, false)
    else
      let spec := { target.spec with watcherTrusted := trusted }
      (planner.setTarget targetId (TargetState.reset { target with spec := spec } now .targetChanged),
        true)

def markDirty (watcherGeneration : ℕ) : HybridScanPlanner × Bool :=
  match planner.targets.lookup targetId with
  | none => (planner, false)
  | some target =>
    match target.markDirty planner.config now watcherGeneration with
    | none => (planner, false)
    | some marked => (planner.setTarget targetId marked, true)

def markOverflow (watcherGeneration : ℕ) : HybridScanPlanner × Bool :=
  match planner.targets.lookup targetId with
  | none => (planner, false)
  | some target =>
    let (marked, accepted) := target.markOverflow planner.config now watcherGeneration
    (planner.setTarget targetId marked, accepted)

/-- An entry with work that is due. -/
structure Due where
  id : String
  target : TargetState
  work : TargetState.DueWork

/-- The order of dispatch: the due time, then the longest wait, then the name. -/
def Due.rank (due : Due) : Lex (PlannerTick × Lex (ℕ × String)) :=
  toLex (due.work.dueAt, toLex (due.target.lastDispatchOrder, due.id))

def dueEntry (entry : Sigma fun _ : String => TargetState) : Option Due := do
  let work ← entry.2.dueWork planner.config
  if work.dueAt ≤ now then some { id := entry.1, target := entry.2, work := work } else none

def selected : Option Due :=
  (planner.targets.entries.filterMap (planner.dueEntry now)).argmin Due.rank

def nextCandidate : HybridScanPlanner × Option ScanCandidate :=
  if planner.isShutdown then (planner, none)
  else
    match planner.selected now with
    | none => (planner, none)
    | some due =>
      let token := max (saturatingAdd u64Max planner.nextToken 1) 1
      let dispatchOrder := max (saturatingAdd u64Max planner.dispatchOrder 1) 1
      let dispatching := { planner with nextToken := token, dispatchOrder := dispatchOrder }
      (dispatching.setTarget due.id (due.target.dispatch now token dispatchOrder),
        some (due.target.candidate due.id due.work token))

def nextWakeup : Option PlannerTick :=
  if planner.isShutdown then none
  else
    ((planner.targets.entries.filterMap fun entry =>
      (entry.2.dueWork planner.config).map TargetState.DueWork.dueAt).min?).map fun dueAt => dueAt - now

def complete (candidate : ScanCandidate) (now : PlannerTick) (completion : ScanCompletion)
    : HybridScanPlanner × CompletionDisposition :=
  match planner.targets.lookup candidate.targetId with
  | none => (planner, .missing)
  | some target =>
    let (completed, disposition) := target.complete planner.config candidate now completion
    (planner.setTarget candidate.targetId completed, disposition)

def shutdown : HybridScanPlanner := { planner with isShutdown := true }

end HybridScanPlanner

end DatabasesEverywhere.Disk
