import DatabasesEverywhere.Foundations.Maps
import DatabasesEverywhere.Foundations.Paths
import DatabasesEverywhere.Foundations.Saturating

/-!
# Watcher/State — what the disk watcher remembers of every target

A target is a directory that is watched.  For each one the watcher keeps which directories below it
have changed, each with the generation of its last change:

    event ──▸ route to the deepest root ──▸ mark_full / mark_dirty ──▸ capture ──▸ acknowledge

Every definition here is one section of code that holds the lock of the state.  How generations are
counted is a parameter: by the machine's words, or by numbers that never wrap.
-/

open Foundations

namespace DatabasesEverywhere.Watcher

/-! ## Generations -/

/-- `next_nonzero` and `fetch_add(1)`. -/
structure Counting where
  next : ℕ → ℕ
  fetchAdd : ℕ → ℕ

def nextNonzero (value : ℕ) : ℕ :=
  let next := (value + 1) % 2 ^ 64
  if next = 0 then 1 else next

/-- The counters of the machine. -/
def Counting.machine : Counting := ⟨nextNonzero, fun value => (value + 1) % 2 ^ 64⟩

/-- Counters that never wrap. -/
def Counting.unbounded : Counting := ⟨(· + 1), (· + 1)⟩

/-! ## Paths -/

inductive PathPart
  | normal (name : String)
  | parentDir
  deriving DecidableEq

def PathPart.name? : PathPart → Option String
  | normal name => some name
  | parentDir => none

/-- A path of an event, as `Path::components` gives it. -/
structure EventPath where
  absolute : Bool
  parts : List PathPart
  deriving DecidableEq

/-- The components of an absolute path. -/
abbrev Root := List PathPart

/-- A directory below a root. -/
abbrev Directory := List String

/-- The deepest root that the path lies under. -/
def routePath (roots : Map Root String) (path : EventPath) : Option (String × Root) :=
  if path.absolute then
    (ancestors path.parts).findSome? fun root => (roots.lookup root).map fun id => (id, root)
  else none

def safeRelativeParent (root : Root) (path : EventPath) : Option Directory :=
  if root.isPrefixOf path.parts then
    let relative := path.parts.drop root.length
    if relative.isEmpty then none else relative.dropLast.mapM PathPart.name?
  else none

def nearestRecordedAncestor (paths : Map Directory ℕ) (path : Directory) : Option Directory :=
  (ancestors path).findSome? fun directory => (paths.lookup directory).map fun _ => directory

def isStrictDescendant (path ancestor : Directory) : Bool :=
  path ≠ ancestor && ancestor.isPrefixOf path

/-! ## Targets -/

inductive WatchHealth
  | watching | degraded
  deriving DecidableEq

/-- Times and delays are numbers of one unit. -/
structure RetryPolicy where
  initial : ℕ
  maximum : ℕ

def RetryPolicy.delay (policy : RetryPolicy) (attempts : ℕ) : ℕ :=
  min (policy.initial * 2 ^ min attempts 16) policy.maximum

structure WatcherLimits where
  maximumDirtyPaths : ℕ
  maximumPendingTargets : ℕ
  retryPolicy : RetryPolicy

/-- `new_with_limits` -/
def WatcherLimits.new (maximumDirtyPaths maximumPendingTargets initial maximum : ℕ) :
    WatcherLimits where
  maximumDirtyPaths := max maximumDirtyPaths 1
  maximumPendingTargets := max maximumPendingTargets 1
  retryPolicy := ⟨initial, max maximum initial⟩

structure TargetState where
  fingerprint : String
  root : Root
  registrationGeneration : ℕ
  targetGeneration : ℕ
  fullGeneration : Option ℕ
  dirtyPaths : Map Directory ℕ
  acknowledgedGlobalGeneration : ℕ
  health : WatchHealth
  healthGeneration : ℕ
  retryAttempts : ℕ
  retryAt : ℕ

namespace TargetState

/-- A target as it is registered, before it is marked. -/
def new (fingerprint : String) (root : Root) (registrationGeneration globalGeneration now : ℕ) :
    TargetState where
  fingerprint := fingerprint
  root := root
  registrationGeneration := registrationGeneration
  targetGeneration := 0
  fullGeneration := none
  dirtyPaths := ∅
  acknowledgedGlobalGeneration := globalGeneration
  health := .degraded
  healthGeneration := 0
  retryAttempts := 0
  retryAt := now

variable (c : Counting)

def markFull (target : TargetState) : TargetState :=
  let generation := c.next target.targetGeneration
  { target with
    targetGeneration := generation
    fullGeneration := some generation
    dirtyPaths := ∅ }

def markDirty (maximumPaths : ℕ) (relativeDirectory : Directory) (target : TargetState) :
    TargetState :=
  let generation := c.next target.targetGeneration
  let target := { target with targetGeneration := generation }
  if target.fullGeneration.isSome then
    { target with fullGeneration := some generation }
  else
    match nearestRecordedAncestor target.dirtyPaths relativeDirectory with
    | some ancestor => { target with dirtyPaths := target.dirtyPaths.insert ancestor generation }
    | none =>
      let kept := target.dirtyPaths.retain fun path _ => !isStrictDescendant path relativeDirectory
      let dirtyPaths := kept.insert relativeDirectory generation
      if dirtyPaths.entries.length > maximumPaths then
        { target with dirtyPaths := ∅, fullGeneration := some generation }
      else
        { target with dirtyPaths := dirtyPaths }

def degrade (policy : RetryPolicy) (now : ℕ) (target : TargetState) : TargetState :=
  { target with
    health := .degraded
    healthGeneration := c.next target.healthGeneration
    retryAt := now + policy.delay target.retryAttempts
    retryAttempts := saturatingAdd (2 ^ 32 - 1) target.retryAttempts 1 }

def needsFullReconcile (globalGeneration : ℕ) (target : TargetState) : Bool :=
  target.fullGeneration.isSome || target.acknowledgedGlobalGeneration ≠ globalGeneration

def pending (globalGeneration : ℕ) (target : TargetState) : Bool :=
  target.fullGeneration.isSome || !target.dirtyPaths.entries.isEmpty ||
    globalGeneration ≠ target.acknowledgedGlobalGeneration

end TargetState

/-! ## Shared state -/

structure WatchState where
  targets : Map String TargetState
  roots : Map Root String
  changedTargets : Finset String
  globalChangePending : Bool
  nextRegistrationGeneration : ℕ

structure Shared extends WatchState where
  globalGeneration : ℕ
  backendRebuildRequested : Bool

def Shared.new : Shared := ⟨⟨∅, ∅, ∅, false, 0⟩, 0, false⟩

structure RetryCandidate where
  targetId : String
  fingerprint : String
  registrationGeneration : ℕ
  healthGeneration : ℕ
  root : Root

structure DirtyBatch where
  targetId : String
  fingerprint : String
  registrationGeneration : ℕ
  targetGeneration : ℕ
  globalGeneration : ℕ
  relativePaths : List Directory
  fullReconcile : Bool
  watcherActive : Bool
  deriving DecidableEq

/-- The kinds of events that are told apart. -/
inductive EventKind
  | access | other | remove | rename | change
  deriving DecidableEq

structure Event where
  needRescan : Bool
  kind : EventKind
  paths : List EventPath

def rootWatchMayBeLost (kind : EventKind) : Bool := kind = .remove || kind = .rename

/-- `validate_registration` -/
def validRegistration (targetId fingerprint : String) (root : EventPath) : Bool :=
  targetId ≠ "" && fingerprint ≠ "" && root.absolute &&
    root.parts.all fun part => part.name?.isSome

namespace Shared

variable (c : Counting) (limits : WatcherLimits)

def enqueueGlobalChange (shared : Shared) : Shared :=
  { shared with
    globalChangePending := true
    changedTargets := ∅
    globalGeneration := c.fetchAdd shared.globalGeneration
    targets := shared.targets.mapValues (·.markFull c) }

variable (targetId : String)

def enqueueTargetChange (shared : Shared) : Shared :=
  if shared.globalChangePending then shared
  else
    let shared := { shared with changedTargets := insert targetId shared.changedTargets }
    if shared.changedTargets.card > limits.maximumPendingTargets then shared.enqueueGlobalChange c
    else shared

/-- `degrade_all` after it has taken the lock. -/
def degradeAll (now : ℕ) (shared : Shared) : Shared :=
  enqueueGlobalChange c
    { shared with targets := shared.targets.mapValues (·.degrade c limits.retryPolicy now) }

/-- What an event at a path below the root does to the target. -/
def markPath (kind : EventKind) (now : ℕ) (root : Root) (path : EventPath) (target : TargetState) :
    TargetState :=
  if path.parts = root then
    let target := target.markFull c
    if rootWatchMayBeLost kind then target.degrade c limits.retryPolicy now else target
  else
    match safeRelativeParent root path with
    | none => target.markFull c
    | some relativeDirectory => target.markDirty c limits.maximumDirtyPaths relativeDirectory

def handlePath (kind : EventKind) (now : ℕ) (step : Shared × List String) (path : EventPath) :
    Shared × List String :=
  let (shared, changed) := step
  match routePath shared.roots path with
  | none => step
  | some (targetId, root) =>
    match shared.targets.lookup targetId with
    | none => step
    | some target =>
      ({ shared with
          targets := shared.targets.insert targetId (markPath c limits kind now root path target) },
        changed.insert targetId)

/-- `handle_callback`, for an event. -/
def handleEvent (now : ℕ) (event : Event) (shared : Shared) : Shared :=
  if event.needRescan then shared.enqueueGlobalChange c
  else if event.kind = .access || event.kind = .other then shared
  else if event.paths.isEmpty then shared.enqueueGlobalChange c
  else
    let (shared, changed) := event.paths.foldl (handlePath c limits event.kind now) (shared, [])
    changed.foldl (fun shared targetId => shared.enqueueTargetChange c limits targetId) shared

/-! ## Registration -/

inductive RegistrationCheck
  | unchanged | rootCollision | replace
  deriving DecidableEq

variable (fingerprint : String)

def unchangedRegistration (root : Root) (shared : Shared) : RegistrationCheck :=
  if (shared.targets.lookup targetId).any fun target =>
      target.fingerprint = fingerprint && target.root = root then .unchanged
  else if (shared.roots.lookup root).any fun owner => owner ≠ targetId then .rootCollision
  else .replace

/-- The roots without that of a target. -/
def rootsWithout (shared : Shared) : Map Root String :=
  match shared.targets.lookup targetId with
  | none => shared.roots
  | some target => shared.roots.erase target.root

/-- Also the old root and the generation of the registration. -/
def replaceTargetState (root : Root) (now : ℕ) (shared : Shared) : Shared × Option Root × ℕ :=
  let oldRoot := (shared.targets.lookup targetId).map (·.root)
  let generation := c.next shared.nextRegistrationGeneration
  let target := TargetState.new fingerprint root generation shared.globalGeneration now
  let replaced :=
    { shared with
      changedTargets := shared.changedTargets.erase targetId
      nextRegistrationGeneration := generation
      roots := (shared.rootsWithout targetId).insert root targetId
      targets := shared.targets.insert targetId (target.markFull c) }
  (replaced.enqueueTargetChange c limits targetId, oldRoot, generation)

/-- Also whether a watch was installed for a registration that is gone. -/
def finishRegistration (root : Root) (generation : ℕ) (watchSucceeded : Bool) (now : ℕ)
    (shared : Shared) : Shared × Bool :=
  let matching := (shared.targets.lookup targetId).filter fun target =>
    target.registrationGeneration = generation && target.fingerprint = fingerprint &&
      target.root = root
  match matching with
  | some target =>
    let target :=
      if watchSucceeded then { target with health := .watching, retryAttempts := 0 }
      else target.degrade c limits.retryPolicy now
    ({ shared with targets := shared.targets.insert targetId target }.enqueueTargetChange c limits
      targetId, false)
  | none => (shared.enqueueTargetChange c limits targetId, watchSucceeded)

def retire (shared : Shared) : Shared :=
  match shared.targets.lookup targetId with
  | none => shared
  | some target =>
    enqueueTargetChange c limits targetId
      { shared with
        targets := shared.targets.erase targetId
        roots := shared.roots.erase target.root
        changedTargets := shared.changedTargets.erase targetId }

/-! ## Retries -/

def retryCandidates (now : ℕ) (shared : Shared) : List RetryCandidate :=
  let due := shared.targets.entries.filter fun entry =>
    entry.2.health = .degraded && entry.2.retryAt ≤ now
  due.map fun entry =>
    { targetId := entry.1
      fingerprint := entry.2.fingerprint
      registrationGeneration := entry.2.registrationGeneration
      healthGeneration := entry.2.healthGeneration
      root := entry.2.root }

/-- The end of a retry of one target. -/
def settleRetry (candidate : RetryCandidate) (succeeded : Bool) (now : ℕ) (shared : Shared) :
    Shared :=
  let matching := (shared.targets.lookup candidate.targetId).filter fun target =>
    target.fingerprint = candidate.fingerprint &&
      target.registrationGeneration = candidate.registrationGeneration &&
      target.healthGeneration = candidate.healthGeneration
  match matching with
  | none => shared
  | some target =>
    let target :=
      if succeeded then { target with health := .watching, retryAttempts := 0 }.markFull c
      else target.degrade c limits.retryPolicy now
    { shared with targets := shared.targets.insert candidate.targetId target }.enqueueTargetChange c
      limits candidate.targetId

/-! ## Changes -/

/-- `capture` with the global generation that it has loaded before it took the lock. -/
def capture (globalGeneration : ℕ) (targetId : String) (shared : Shared) : Option DirtyBatch :=
  match shared.targets.lookup targetId with
  | none => none
  | some target =>
    if !target.pending globalGeneration then none
    else
      let fullReconcile := target.needsFullReconcile globalGeneration
      some
        { targetId
          fingerprint := target.fingerprint
          registrationGeneration := target.registrationGeneration
          targetGeneration := target.targetGeneration
          globalGeneration
          relativePaths := if fullReconcile then [] else target.dirtyPaths.keys
          fullReconcile
          watcherActive := target.health = .watching }

/-- What an acknowledgement leaves of a target. -/
def acknowledged (batch : DirtyBatch) (target : TargetState) : TargetState :=
  { target with
    dirtyPaths := target.dirtyPaths.retain fun _ generation => batch.targetGeneration < generation
    fullGeneration := target.fullGeneration.filter fun generation =>
      batch.targetGeneration < generation
    acknowledgedGlobalGeneration :=
      max target.acknowledgedGlobalGeneration batch.globalGeneration }

def acknowledge (batch : DirtyBatch) (shared : Shared) : Shared × Bool :=
  let matching := (shared.targets.lookup batch.targetId).filter fun target =>
    target.fingerprint = batch.fingerprint &&
      target.registrationGeneration = batch.registrationGeneration
  match matching with
  | none => (shared, false)
  | some target =>
    ({ shared with targets := shared.targets.insert batch.targetId (acknowledged batch target) },
      true)

/-- Also the targets to look at, or `none` for all of them. -/
def drainChanges (shared : Shared) : Shared × Option (Finset String) :=
  ({ shared with globalChangePending := false, changedTargets := ∅ },
    if shared.globalChangePending then none else some shared.changedTargets)

end Shared

end DatabasesEverywhere.Watcher
