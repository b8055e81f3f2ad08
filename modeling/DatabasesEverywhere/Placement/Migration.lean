import DatabasesEverywhere.Foundations.Saturating
import DatabasesEverywhere.Server.InstanceStore

/-!
# Placement/Migration — the record of a move between deployments

A migration moves an instance from its source placement to a target.  Its record carries a stage, a
revision and the flag `cutover_committed`: before the cutover the source holds the data, after it
the target does.

    requested → preflight → … → cutover_pending → cutover_committed → … → cleaning_source → completed
                     └── rolling_back ⇄ manual_intervention ⇄ cleanup_pending ──┘

The table refuses rows that break its constraints, so they are fields of `MigrationTable`: a table
with a bad row, or with two active migrations of one instance, cannot be built.
-/

open Foundations

namespace DatabasesEverywhere.Placement

open Server (DeploymentMode)

/-! ## Stages -/

inductive MigrationStage
  | requested | preflight | targetPreparing | targetPrepared | sourceFencing | sourceFenced
  | exporting | exported | importing | imported | validating | cutoverPending | cutoverCommitted
  | verifyingCutover | cleaningSource | rollingBack | cleanupPending | manualIntervention
  | completed | failed | cancelled
  deriving DecidableEq

namespace MigrationStage

def isTerminal : MigrationStage → Bool
  | completed | failed | cancelled => true
  | _ => false

def crossedCutover : MigrationStage → Bool
  | cutoverCommitted | verifyingCutover | cleaningSource | cleanupPending | completed => true
  | _ => false

def allows : MigrationStage → MigrationStage → Bool
  | requested, next => next = preflight || next = failed || next = cancelled
  | preflight, next => next = targetPreparing || next = failed || next = cancelled
  | targetPreparing, next => next = targetPrepared || next = rollingBack
  | targetPrepared, next => next = sourceFencing || next = rollingBack
  | sourceFencing, next => next = sourceFenced || next = rollingBack
  | sourceFenced, next => next = exporting || next = rollingBack
  | exporting, next => next = exported || next = rollingBack
  | exported, next => next = importing || next = rollingBack
  | importing, next => next = imported || next = rollingBack
  | imported, next => next = validating || next = rollingBack
  | validating, next => next = cutoverPending || next = rollingBack
  | cutoverPending, next => next = cutoverCommitted || next = rollingBack
  | cutoverCommitted, next => next = verifyingCutover || next = cleanupPending
  | verifyingCutover, next => next = cleaningSource || next = cleanupPending
  | cleaningSource, next => next = completed || next = cleanupPending
  | rollingBack, next => next = failed || next = manualIntervention
  | cleanupPending, next => next = cleaningSource || next = manualIntervention
  | manualIntervention, next => next = rollingBack || next = cleanupPending
  | completed, _ | failed, _ | cancelled, _ => false

/-- The stages a committed record may have. -/
def afterCommit : MigrationStage → Bool
  | cutoverCommitted | verifyingCutover | cleaningSource | cleanupPending | manualIntervention
  | completed => true
  | _ => false

end MigrationStage

inductive MigrationFailure
  | preflightFailed | preCutoverFailure | structuralValidationTimedOut | postCutoverFailure
  | rolledBackBeforeCutover | targetVerificationFailed | restartBeforeMutation
  | restartBeforeCutover | restartAfterCutover
  deriving DecidableEq

namespace MigrationFailure

def code : MigrationFailure → String
  | preflightFailed => "preflight_failed"
  | preCutoverFailure => "pre_cutover_failure"
  | structuralValidationTimedOut => "structural_validation_timed_out"
  | postCutoverFailure => "post_cutover_failure"
  | rolledBackBeforeCutover => "rolled_back_before_cutover"
  | targetVerificationFailed => "target_verification_failed"
  | restartBeforeMutation => "daemon_restarted_before_mutation"
  | restartBeforeCutover => "daemon_restarted_before_cutover"
  | restartAfterCutover => "daemon_restarted_after_cutover"

def message : MigrationFailure → String
  | preflightFailed => "migration preflight failed before creating or fencing any runtime"
  | preCutoverFailure => "migration failed before cutover; provisional target rollback is pending"
  | structuralValidationTimedOut =>
    "deployment structural validation timed out before cutover; migration was not cut over"
  | postCutoverFailure =>
    "migration target is authoritative; target verification and source cleanup remain pending"
  | rolledBackBeforeCutover =>
    "provisional target was removed and the verified source route was restored"
  | targetVerificationFailed =>
    "committed target could not be verified; source retained for manual recovery"
  | restartBeforeMutation =>
    "daemon restarted during migration preflight; no source mutation occurred; retry the migration"
  | restartBeforeCutover =>
    "daemon restarted before placement cutover; source remains authoritative and rollback must finish before retry"
  | restartAfterCutover =>
    "daemon restarted after placement cutover; target remains authoritative and source cleanup must finish"

end MigrationFailure

/-! ## The table -/

structure DeploymentMigration where
  migrationId : String
  instanceId : String
  protocol : Protocol
  sourceMode : DeploymentMode
  targetMode : DeploymentMode
  sourceRuntimeId : String
  targetRuntimeId : Option String
  stage : MigrationStage
  revision : ℕ
  sourceFenced : Bool
  cutoverCommitted : Bool
  failureCode : Option String
  failureMessage : Option String
  createdAt : String
  updatedAt : String
  targetPoolId : Option String
  targetLimitsJson : Option String
  deriving DecidableEq

/-- The `CHECK` constraints of the table. -/
def DeploymentMigration.checks (row : DeploymentMigration) : Bool :=
  [Protocol.postgres, .mariadb, .mysql, .mongodb, .clickhouse].contains row.protocol &&
    row.sourceMode ≠ row.targetMode && row.sourceRuntimeId ≠ "" && row.targetRuntimeId ≠ some "" &&
    (row.failureCode.isNone == row.failureMessage.isNone) &&
    (!row.cutoverCommitted ||
      row.sourceFenced && row.targetRuntimeId.isSome && row.stage.afterCommit)

variable {row : DeploymentMigration}

theorem DeploymentMigration.afterCommit_of_checks (h : row.checks = true)
    (hcommitted : row.cutoverCommitted = true) : row.stage.afterCommit = true := by
  simp only [checks, hcommitted, Bool.not_true, Bool.false_or, Bool.and_eq_true] at h
  exact h.2.2

inductive SqlError
  | check | unique
  deriving DecidableEq

/-- The rows that stand, under their primary key. -/
structure MigrationTable where
  rows : Map String DeploymentMigration
  checked : ∀ id row, rows.lookup id = some row → row.migrationId = id ∧ row.checks = true
  /-- `uq_deployment_migrations_active_instance` -/
  active : ∀ id id' row row', rows.lookup id = some row → rows.lookup id' = some row' →
    row.stage.isTerminal = false → row'.stage.isTerminal = false →
    row.instanceId = row'.instanceId → id = id'

namespace MigrationTable

def empty : MigrationTable where
  rows := ∅
  checked _ _ h := by cases h
  active _ _ _ _ h := by cases h

/-- Another row is an active migration of the same instance. -/
def conflicts (table : MigrationTable) (row : DeploymentMigration) : Bool :=
  !row.stage.isTerminal && table.rows.entries.any fun entry =>
    entry.1 ≠ row.migrationId && !entry.2.stage.isTerminal && entry.2.instanceId = row.instanceId

variable {other : DeploymentMigration}

theorem not_conflicts {table : MigrationTable} {id : String} (h : table.conflicts row = false)
    (hother : table.rows.lookup id = some other) (hrow : row.stage.isTerminal = false)
    (hactive : other.stage.isTerminal = false) (hinstance : other.instanceId = row.instanceId) :
    id = row.migrationId := by
  by_contra hne
  have hmem := AList.mem_lookup_iff.mp (Option.mem_def.mpr hother)
  simp only [conflicts, hrow, Bool.not_false, Bool.true_and, List.any_eq_false, Bool.and_eq_true,
    not_and, decide_eq_true_eq] at h
  exact h ⟨id, other⟩ hmem ⟨by simpa using hne, by simpa using hactive⟩ hinstance

/-- Puts a row in its place, if the constraints allow it. -/
def write (table : MigrationTable) (row : DeploymentMigration) : Except SqlError MigrationTable :=
  if hchecks : row.checks = true then
    if hunique : table.conflicts row = false then
      .ok
        { rows := table.rows.insert row.migrationId row
          checked := by
            intro id other h
            rcases Map.lookup_insert_eq h with ⟨rfl, rfl⟩ | ⟨-, hold⟩
            · exact ⟨rfl, hchecks⟩
            · exact table.checked id other hold
          active := by
            intro id id' first second h h' hfirst hsecond hinstance
            rcases Map.lookup_insert_eq h with ⟨rfl, rfl⟩ | ⟨-, hold⟩ <;>
              rcases Map.lookup_insert_eq h' with ⟨rfl, rfl⟩ | ⟨-, hold'⟩
            · rfl
            · exact (not_conflicts hunique hold' hfirst hsecond hinstance.symm).symm
            · exact not_conflicts hunique hold hsecond hfirst hinstance
            · exact table.active id id' first second hold hold' hfirst hsecond hinstance }
    else .error .unique
  else .error .check

theorem write_eq_ok {table after : MigrationTable} (h : table.write row = .ok after) :
    row.checks = true ∧ after.rows = table.rows.insert row.migrationId row := by
  unfold write at h
  split at h
  case isTrue hchecks =>
    split at h
    · cases h
      exact ⟨hchecks, rfl⟩
    · cases h
  case isFalse => cases h

end MigrationTable

/-! ## Errors -/

inductive DeploymentMigrationError
  | sql (error : SqlError)
  | unsupportedSharedProtocol (protocol : Protocol)
  | sameMode (mode : DeploymentMode)
  | activeMigration (instanceId : String)
  | notFound (migrationId : String)
  | staleRevision (expected actual : ℕ)
  | invalidTransition (source target : MigrationStage)
  | revisionOverflow
  | targetRuntimeRequired
  | sourceFenceRequired
  | cutoverNotReady
  | invalidCutoverTarget
  | reservationMissing (reservationId : String)
  | sourcePlacementChanged
  deriving DecidableEq

/-! ## Starting a migration -/

/-- What the metadata of an instance says about its placement. -/
structure InstancePlacement where
  instanceId : String
  protocol : Protocol
  deploymentMode : DeploymentMode
  storedRuntimeId : String
  deriving DecidableEq

def InstancePlacement.runtimeId (metadata : InstancePlacement) : String :=
  if metadata.storedRuntimeId = "" then metadata.instanceId else metadata.storedRuntimeId

/-- Engines that can hold several tenants. -/
def sharedPool : Protocol → Bool
  | .postgres | .mariadb | .mysql | .mongodb | .clickhouse => true
  | .redis | .valkey | .qdrant => false

def supports (mode : DeploymentMode) (protocol : Protocol) : Bool :=
  match mode with
  | .dedicated => true
  | .shared => sharedPool protocol

/-- The row that `start` inserts; the migration id is a fresh UUID. -/
def requestedRow (metadata : InstancePlacement) (targetMode : DeploymentMode)
    (targetPoolId targetLimitsJson : Option String) (migrationId now : String) :
    DeploymentMigration where
  migrationId := migrationId
  instanceId := metadata.instanceId
  protocol := metadata.protocol
  sourceMode := metadata.deploymentMode
  targetMode := targetMode
  sourceRuntimeId := metadata.runtimeId
  targetRuntimeId := none
  stage := .requested
  revision := 0
  sourceFenced := false
  cutoverCommitted := false
  failureCode := none
  failureMessage := none
  createdAt := now
  updatedAt := now
  targetPoolId := targetPoolId
  targetLimitsJson := targetLimitsJson

namespace MigrationTable

def start (table : MigrationTable) (metadata : InstancePlacement) (targetMode : DeploymentMode)
    (targetPoolId targetLimitsJson : Option String) (migrationId now : String) :
    Except DeploymentMigrationError MigrationTable :=
  if !supports targetMode metadata.protocol then
    .error (.unsupportedSharedProtocol metadata.protocol)
  else if metadata.deploymentMode = targetMode then .error (.sameMode targetMode)
  -- The primary key is unique as well.
  else if migrationId ∈ table.rows then .error (.activeMigration metadata.instanceId)
  else
    match table.write
      (requestedRow metadata targetMode targetPoolId targetLimitsJson migrationId now) with
    | .ok after => .ok after
    | .error .unique => .error (.activeMigration metadata.instanceId)
    | .error .check => .error (.sql .check)

def getAtRevision (table : MigrationTable) (migrationId : String) (expectedRevision : ℕ) :
    Except DeploymentMigrationError DeploymentMigration :=
  match table.rows.lookup migrationId with
  | none => .error (.notFound migrationId)
  | some current =>
    if current.revision ≠ expectedRevision then
      .error (.staleRevision expectedRevision current.revision)
    else .ok current

end MigrationTable

/-! ## A transition, in its two steps -/

structure MigrationPatch where
  targetRuntimeId : Option String := none
  sourceFenced : Option Bool := none
  failure : Option MigrationFailure := none
  deriving DecidableEq

/-- A transition that has read its record and passed its checks. -/
structure TransitionCall where
  migrationId : String
  expectedRevision : ℕ
  next : MigrationStage
  patch : MigrationPatch
  current : DeploymentMigration
  deriving DecidableEq

/-- The next revision fits its column. -/
def nextRevision (expectedRevision : ℕ) : Except DeploymentMigrationError ℕ :=
  if i64Max < expectedRevision + 1 then .error .revisionOverflow else .ok (expectedRevision + 1)

namespace MigrationTable

/-- The read and the checks of `transition`. -/
def readTransition (table : MigrationTable) (migrationId : String) (expectedRevision : ℕ)
    (next : MigrationStage) (patch : MigrationPatch) :
    Except DeploymentMigrationError TransitionCall := do
  let current ← table.getAtRevision migrationId expectedRevision
  let targetRuntimeId := patch.targetRuntimeId <|> current.targetRuntimeId
  let sourceFenced := patch.sourceFenced.getD current.sourceFenced
  if !current.stage.allows next then .error (.invalidTransition current.stage next)
  else if next = .targetPrepared ∧ targetRuntimeId.isNone then .error .targetRuntimeRequired
  else if next = .sourceFenced ∧ !sourceFenced then .error .sourceFenceRequired
  else if next = .cutoverCommitted ∧ (targetRuntimeId.isNone ∨ !sourceFenced) then
    .error .cutoverNotReady
  else
    let _ ← nextRevision expectedRevision
    .ok
      { migrationId := migrationId
        expectedRevision := expectedRevision
        next := next
        patch := patch
        current := current }

/-- The row that the `UPDATE` of `transition` writes. -/
def transitioned (row : DeploymentMigration) (call : TransitionCall) (now : String) :
    DeploymentMigration :=
  { row with
    stage := call.next
    revision := call.expectedRevision + 1
    targetRuntimeId := call.patch.targetRuntimeId <|> row.targetRuntimeId
    sourceFenced := call.patch.sourceFenced.getD row.sourceFenced
    cutoverCommitted := if call.next = .cutoverCommitted then true else row.cutoverCommitted
    failureCode := call.patch.failure.map MigrationFailure.code
    failureMessage := call.patch.failure.map MigrationFailure.message
    updatedAt := now }

/-- The `UPDATE … WHERE migration_id AND revision AND stage` of `transition`. -/
def writeTransition (table : MigrationTable) (call : TransitionCall) (now : String) :
    Except DeploymentMigrationError MigrationTable :=
  match table.rows.lookup call.migrationId with
  | none => .error (.staleRevision call.expectedRevision 0)
  | some row =>
    if row.revision = call.expectedRevision ∧ row.stage = call.current.stage then
      (table.write (transitioned row call now)).mapError .sql
    else .error (.staleRevision call.expectedRevision row.revision)

end MigrationTable

/-! ## The cutover, in its two steps -/

/-- A cutover that has read its record and found it ready. -/
structure CommitCall where
  migrationId : String
  expectedRevision : ℕ
  target : InstancePlacement
  deriving DecidableEq

def cutoverIsReady (current : DeploymentMigration) (sourceMode targetMode : DeploymentMode)
    (target : InstancePlacement) : Bool :=
  current.stage = .cutoverPending && current.sourceMode = sourceMode &&
    current.targetMode = targetMode && current.instanceId = target.instanceId &&
    current.protocol = target.protocol && current.targetRuntimeId = some target.runtimeId &&
    current.sourceFenced

namespace MigrationTable

variable (table : MigrationTable)

/-- The read and the checks that both cutovers share. -/
def readCommit (sourceMode targetMode : DeploymentMode) (migrationId : String)
    (expectedRevision : ℕ) (target : InstancePlacement) :
    Except DeploymentMigrationError CommitCall := do
  let current ← table.getAtRevision migrationId expectedRevision
  if !cutoverIsReady current sourceMode targetMode target then .error .cutoverNotReady
  else
    let _ ← nextRevision expectedRevision
    .ok { migrationId := migrationId, expectedRevision := expectedRevision, target := target }

def readDedicatedToShared (migrationId : String) (expectedRevision : ℕ) (target : InstancePlacement)
    : Except DeploymentMigrationError CommitCall :=
  if target.deploymentMode ≠ .shared then .error .invalidCutoverTarget
  else table.readCommit .dedicated .shared migrationId expectedRevision target

def readSharedToDedicated (migrationId : String) (expectedRevision : ℕ) (target : InstancePlacement)
    : Except DeploymentMigrationError CommitCall :=
  if target.deploymentMode ≠ .dedicated ∨ target.runtimeId ≠ target.instanceId then
    .error .invalidCutoverTarget
  else table.readCommit .shared .dedicated migrationId expectedRevision target

/-- The row that `mark_cutover_committed` writes. -/
def committed (row : DeploymentMigration) (call : CommitCall) (now : String) :
    DeploymentMigration :=
  { row with
    stage := .cutoverCommitted
    revision := call.expectedRevision + 1
    cutoverCommitted := true
    failureCode := none
    failureMessage := none
    updatedAt := now }

/-- The transaction of a cutover: the statements about reservations and metadata, which may refuse,
and then `mark_cutover_committed`. -/
def writeCommit (call : CommitCall) (placement : Except DeploymentMigrationError Unit)
    (now : String) : Except DeploymentMigrationError MigrationTable := do
  placement
  match table.rows.lookup call.migrationId with
  | none => .error (.staleRevision call.expectedRevision call.expectedRevision)
  | some row =>
    if row.revision = call.expectedRevision ∧ row.stage = .cutoverPending ∧ row.sourceFenced ∧
        row.targetRuntimeId = some call.target.runtimeId then
      (table.write (committed row call now)).mapError .sql
    else .error (.staleRevision call.expectedRevision call.expectedRevision)

end MigrationTable

end DatabasesEverywhere.Placement
