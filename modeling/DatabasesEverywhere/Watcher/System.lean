import DatabasesEverywhere.Foundations.Runs
import DatabasesEverywhere.Watcher.State

/-!
# Watcher/System — the watcher, its backend and everyone who calls it

Registrations, retries and the clean-up of retired watches hold the registration gate for as long
as they run, so one of them is under way at a time; it moves from one lock or backend call to the
next while events, errors, captures and retirements come in between:

    register   check ▸ replace ▸ flag? ▸ unwatch old ▸ ensure ▸ watch (▸ undo) ▸ finish (▸ drop)
    retry      collect ▸ take flag ▸ ensure ▸ for each: watch (▸ undo) ▸ settle
    abandon    drop backend ▸ set flag ▸ degrade all

A failed call of the backend may leave nothing of the watch it was about.
-/

open Foundations

namespace DatabasesEverywhere.Watcher

/-! ## The backend -/

/-- What a call of the backend answers: a path or a watch that is not found is told apart. -/
inductive BackendReply
  | ok | notFound | failed
  deriving DecidableEq

/-- The backend with the roots that it watches. -/
structure BackendState where
  watcher : Option (Finset Root)
  retryAttempts : ℕ
  retryAt : ℕ

/-- `ensure_backend`, where the reply is that of `create_backend`. -/
def ensureBackend (policy : RetryPolicy) (now : ℕ) (reply : BackendReply) (backend : BackendState) :
    BackendState :=
  if backend.watcher.isSome || backend.retryAt > now then backend
  else if reply = .ok then ⟨some ∅, 0, now⟩
  else
    ⟨none, saturatingAdd (2 ^ 32 - 1) backend.retryAttempts 1,
      now + policy.delay backend.retryAttempts⟩

/-- The watches after `unwatch`, which also ends those that it `removes` with the root. -/
def unwatch (removes : Root → Root → Bool) (root : Root) (watches : Finset Root) : Finset Root :=
  watches.filter fun other => other ≠ root && !removes root other

/-! ## The holder of the gate -/

structure Registration where
  targetId : String
  fingerprint : String
  root : Root
  deriving DecidableEq

/-- Where the holder of the registration gate is: each names the call that comes next. -/
inductive Gate
  | free
  | replacing (registration : Registration)
  | checkingFlag (registration : Registration) (oldRoot : Option Root) (generation : ℕ)
  | unwatchingOld (registration : Registration) (oldRoot : Option Root) (generation now : ℕ)
  | ensuring (registration : Registration) (generation now : ℕ)
  | watching (registration : Registration) (generation now : ℕ)
  | undoing (registration : Registration) (generation now : ℕ) (pathNotFound : Bool)
  | finishing (registration : Registration) (generation now : ℕ) (watchSucceeded : Bool)
  | dropping (root : Root) (now : ℕ)
  | takingFlag (candidates : List RetryCandidate) (now : ℕ)
  | rebuilding (candidates : List RetryCandidate) (now : ℕ)
  | retrying (candidates : List RetryCandidate) (now : ℕ)
  | undoingRetry (candidate : RetryCandidate) (rest : List RetryCandidate) (now : ℕ)
      (pathNotFound : Bool)
  | settling (candidate : RetryCandidate) (rest : List RetryCandidate) (now : ℕ)
      (succeeded : Bool)
  | abandoning (unfinished : Option (Registration × ℕ)) (now : ℕ)
  | requesting (unfinished : Option (Registration × ℕ)) (now : ℕ)
  | degrading (unfinished : Option (Registration × ℕ)) (now : ℕ)

/-- After a degrade a registration is finished as failed, and anything else is over. -/
def Gate.afterDegrade (now : ℕ) : Option (Registration × ℕ) → Gate
  | none => free
  | some (registration, generation) => finishing registration generation now false

/-! ## The record of changes -/

/-- An event that was routed to a registration. -/
structure RoutedEvent where
  targetId : String
  serial : ℕ
  root : Root
  path : EventPath
  time : ℕ

/-- A batch and the registration it was captured from. -/
structure CapturedBatch where
  batch : DirtyBatch
  serial : ℕ
  time : ℕ

/-- What has happened; `serials` numbers the registrations that there have been. -/
structure ChangeLog where
  clock : ℕ
  registrations : ℕ
  serials : Map String ℕ
  events : List RoutedEvent
  captured : List CapturedBatch
  acknowledged : List CapturedBatch

/-! ## The system -/

structure SoftDiskWatcher where
  shared : Shared
  backend : BackendState
  gate : Gate
  /-- calls of `degrade_all` that have set the flag and not yet taken the lock -/
  degrades : ℕ
  /-- the global generations that captures have loaded -/
  loaded : Map ℕ ℕ
  log : ChangeLog

inductive WatcherAction
  | event (now : ℕ) (event : Event)
  | backendError
  | degrade (now : ℕ)
  | register (targetId fingerprint : String) (root : EventPath)
  | retry (now : ℕ)
  | unwatchRetired (root : Root) (now : ℕ)
  | advance (now : ℕ) (reply : BackendReply)
  | retire (targetId : String)
  | load (reader : ℕ)
  | capture (reader : ℕ) (targetId : String)
  | acknowledge (index : ℕ)
  | drain

/-- The events that `handle_callback` routes. -/
def routedEvents (event : Event) (shared : Shared) (log : ChangeLog) : List RoutedEvent :=
  if event.needRescan || event.kind = .access || event.kind = .other then []
  else event.paths.filterMap fun path => do
    let (targetId, root) ← routePath shared.roots path
    let serial ← log.serials.lookup targetId
    some ⟨targetId, serial, root, path, log.clock⟩

namespace SoftDiskWatcher

/-- `SoftDiskWatcher::new`, where the reply is that of `create_backend`. -/
def new (limits : WatcherLimits) (now : ℕ) (reply : BackendReply) : SoftDiskWatcher where
  shared := .new
  backend := if reply = .ok then ⟨some ∅, 0, now⟩ else ⟨none, 1, now + limits.retryPolicy.delay 0⟩
  gate := .free
  degrades := 0
  loaded := ∅
  log := ⟨0, 0, ∅, [], [], []⟩

variable (c : Counting) (limits : WatcherLimits) (removes : Root → Root → Bool)

/-- The holder of the gate makes its next call, and the backend answers. -/
def advance (now : ℕ) (reply : BackendReply) (w : SoftDiskWatcher) : SoftDiskWatcher :=
  match w.gate with
  | .free => w
  | .replacing r =>
    let (shared, oldRoot, generation) :=
      w.shared.replaceTargetState c limits r.targetId r.fingerprint r.root now
    { w with
      shared
      gate := .checkingFlag r oldRoot generation
      log := { w.log with
        registrations := w.log.registrations + 1
        serials := w.log.serials.insert r.targetId (w.log.registrations + 1) } }
  | .checkingFlag r oldRoot generation =>
    if w.shared.backendRebuildRequested then { w with gate := .finishing r generation now false }
    else { w with gate := .unwatchingOld r oldRoot generation now }
  | .unwatchingOld r oldRoot generation now =>
    match w.backend.watcher, oldRoot with
    | some watches, some oldRoot =>
      if reply = .ok then
        { w with
          backend := { w.backend with watcher := some (unwatch removes oldRoot watches) }
          gate := .ensuring r generation now }
      else
        { w with
          backend := { w.backend with watcher := some (watches.erase oldRoot) }
          gate := .abandoning (some (r, generation)) now }
    | _, _ => { w with gate := .ensuring r generation now }
  | .ensuring r generation now =>
    { w with
      backend := ensureBackend limits.retryPolicy now reply w.backend
      gate := .watching r generation now }
  | .watching r generation now =>
    match w.backend.watcher with
    | none => { w with gate := .finishing r generation now false }
    | some watches =>
      if reply = .ok then
        { w with
          backend := { w.backend with watcher := some (insert r.root watches) }
          gate := .finishing r generation now true }
      else
        { w with
          backend := { w.backend with watcher := some (watches.erase r.root) }
          gate := .undoing r generation now (reply = .notFound) }
  | .undoing r generation now pathNotFound =>
    match w.backend.watcher with
    | none => { w with gate := .finishing r generation now false }
    | some watches =>
      if reply = .ok then
        { w with
          backend := { w.backend with watcher := some (unwatch removes r.root watches) }
          gate := .finishing r generation now false }
      else if pathNotFound && reply = .notFound then
        { w with gate := .finishing r generation now false }
      else { w with gate := .abandoning (some (r, generation)) now }
  | .finishing r generation now watchSucceeded =>
    let (shared, staleWatchInstalled) := w.shared.finishRegistration c limits r.targetId
      r.fingerprint r.root generation watchSucceeded now
    { w with
      shared
      gate := if staleWatchInstalled then .dropping r.root now else .free }
  | .dropping root now =>
    match w.backend.watcher with
    | none => { w with gate := .free }
    | some watches =>
      if reply = .ok then
        { w with
          backend := { w.backend with watcher := some (unwatch removes root watches) }
          gate := .free }
      else
        { w with
          backend := { w.backend with watcher := some (watches.erase root) }
          gate := .abandoning none now }
  | .takingFlag candidates now =>
    if w.shared.backendRebuildRequested then
      { w with
        shared := { w.shared with backendRebuildRequested := false }
        backend := { w.backend with watcher := none, retryAt := now }
        gate := .rebuilding candidates now }
    else { w with gate := .rebuilding candidates now }
  | .rebuilding candidates now =>
    { w with
      backend := ensureBackend limits.retryPolicy now reply w.backend
      gate := .retrying candidates now }
  | .retrying [] _ => { w with gate := .free }
  | .retrying (candidate :: rest) now =>
    match w.backend.watcher with
    | none => { w with gate := .settling candidate rest now false }
    | some watches =>
      if reply = .ok then
        { w with
          backend := { w.backend with watcher := some (insert candidate.root watches) }
          gate := .settling candidate rest now true }
      else
        { w with
          backend := { w.backend with watcher := some (watches.erase candidate.root) }
          gate := .undoingRetry candidate rest now (reply = .notFound) }
  | .undoingRetry candidate rest now pathNotFound =>
    match w.backend.watcher with
    | none => { w with gate := .settling candidate rest now false }
    | some watches =>
      if reply = .ok then
        { w with
          backend := { w.backend with watcher := some (unwatch removes candidate.root watches) }
          gate := .settling candidate rest now false }
      else if pathNotFound && reply = .notFound then
        { w with gate := .settling candidate rest now false }
      else { w with gate := .abandoning none now }
  | .settling candidate rest now succeeded =>
    { w with
      shared := w.shared.settleRetry c limits candidate succeeded now
      gate := .retrying rest now }
  | .abandoning unfinished now =>
    { w with backend := ⟨none, 0, now⟩, gate := .requesting unfinished now }
  | .requesting unfinished now =>
    { w with
      shared := { w.shared with backendRebuildRequested := true }
      gate := .degrading unfinished now }
  | .degrading unfinished began =>
    { w with
      shared := w.shared.degradeAll c limits now
      gate := .afterDegrade began unfinished }

/-- One step, but for the clock. -/
def act (w : SoftDiskWatcher) : WatcherAction → SoftDiskWatcher
  | .event now event =>
    { w with
      shared := w.shared.handleEvent c limits now event
      log := { w.log with events := routedEvents event w.shared w.log ++ w.log.events } }
  | .backendError =>
    { w with
      shared := { w.shared with backendRebuildRequested := true }
      degrades := w.degrades + 1 }
  | .degrade now =>
    match w.degrades with
    | 0 => w
    | degrades + 1 => { w with shared := w.shared.degradeAll c limits now, degrades }
  | .register targetId fingerprint root =>
    match w.gate with
    | .free =>
      if validRegistration targetId fingerprint root &&
          w.shared.unchangedRegistration targetId fingerprint root.parts = .replace then
        { w with gate := .replacing ⟨targetId, fingerprint, root.parts⟩ }
      else w
    | _ => w
  | .retry now =>
    match w.gate with
    | .free => { w with gate := .takingFlag (w.shared.retryCandidates now) now }
    | _ => w
  | .unwatchRetired root now =>
    match w.gate with
    | .free => if (w.shared.roots.lookup root).isSome then w else { w with gate := .dropping root now }
    | _ => w
  | .advance now reply => w.advance c limits removes now reply
  | .retire targetId =>
    { w with
      shared := w.shared.retire c limits targetId
      log := { w.log with serials := w.log.serials.erase targetId } }
  | .load reader => { w with loaded := w.loaded.insert reader w.shared.globalGeneration }
  | .capture reader targetId =>
    match w.loaded.lookup reader, w.log.serials.lookup targetId with
    | some globalGeneration, some serial =>
      match w.shared.capture globalGeneration targetId with
      | none => w
      | some batch =>
        { w with
          log := { w.log with captured := ⟨batch, serial, w.log.clock⟩ :: w.log.captured } }
    | _, _ => w
  | .acknowledge index =>
    match w.log.captured[index]? with
    | none => w
    | some captured =>
      { w with
        shared := (w.shared.acknowledge captured.batch).1
        log := { w.log with acknowledged := captured :: w.log.acknowledged } }
  | .drain => { w with shared := w.shared.drainChanges.1 }

def step (w : SoftDiskWatcher) (action : WatcherAction) : SoftDiskWatcher :=
  let next := w.act c limits removes action
  { next with log := { next.log with clock := w.log.clock + 1 } }

end SoftDiskWatcher

end DatabasesEverywhere.Watcher
