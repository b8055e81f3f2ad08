import DatabasesEverywhere.Foundations.Bytes
import DatabasesEverywhere.Foundations.Result
import DatabasesEverywhere.Placement.Migration

/-!
# Placement/Capacity — the ledger of reserved capacity

A shared runtime holds several tenants.  Each tenant has a reservation, and beside the reservations
the row of the runtime keeps their number and the sum of their disk:

    engine_runtimes                          engine_runtime_reservations
      limits, max_tenants                      instance ──▸ runtime, database, username, disk
      tenant_count, reserved_disk_mib

An operation is a transaction: it hands back the next ledger, or an error and with it the ledger it
started from.  The constraints of the tables are fields of `Ledger`.
-/

open Foundations

namespace DatabasesEverywhere.Placement

open Server (DeploymentMode DesiredInstanceState)

/-! ## Limits -/

/-- The limits of an instance or a runtime; `cpu_cores` is a finite number. -/
structure InstanceLimits where
  cpuCores : Rat
  memoryMib : ℕ
  diskMib : ℕ
  deriving DecidableEq

def minCpuCores : Rat := 1 / 100
def maxCpuCores : Rat := 1024
def maxMemoryMib : ℕ := 1024 * 1024

inductive ResourceLimitError
  | invalidCpuCores | cpuCoresTooHigh | invalidMemory | memoryTooHigh
  deriving DecidableEq

def ResourceLimitError.message : ResourceLimitError → String
  | invalidCpuCores => "cpu_cores must be finite and at least 0.01"
  | cpuCoresTooHigh => "cpu_cores must not exceed 1024"
  | invalidMemory => "memory_mib must be greater than zero"
  | memoryTooHigh => "memory_mib must not exceed 1048576"

def validateRuntimeLimits (cpuCores : Rat) (memoryMib : ℕ) : Except ResourceLimitError Unit :=
  if cpuCores < minCpuCores then .error .invalidCpuCores
  else if cpuCores > maxCpuCores then .error .cpuCoresTooHigh
  else if memoryMib = 0 then .error .invalidMemory
  else if memoryMib > maxMemoryMib then .error .memoryTooHigh
  else .ok ()

/-! ## Disk of a pool -/

def rootSpillDivisor : ℕ := 20
def rootSpillCapMib : ℕ := 8 * 1024

def engineDiskOverhead : Protocol → Option ℕ
  | .postgres => some 2048
  | .mysql | .mariadb | .mongodb => some 512
  | .clickhouse => some 1024
  | .redis | .valkey | .qdrant => none

variable (protocol : Protocol)

def rootSpillMib (tenantDiskMib : ℕ) : Option ℕ := do
  let _ ← engineDiskOverhead protocol
  let rounded := (tenantDiskMib + rootSpillDivisor - 1) / rootSpillDivisor
  some (if rounded < rootSpillCapMib then rounded else rootSpillCapMib)

def poolDiskMib (tenantDiskMib : ℕ) : Option ℕ := do
  let overhead ← engineDiskOverhead protocol
  let spill ← rootSpillMib protocol tenantDiskMib
  some (saturatingAdd u64Max (saturatingAdd u64Max tenantDiskMib overhead) spill)

theorem rootSpillMib_eq {protocol : Protocol} {overhead : ℕ}
    (h : engineDiskOverhead protocol = some overhead) (tenantDiskMib : ℕ) :
    rootSpillMib protocol tenantDiskMib =
      some (min ((tenantDiskMib + rootSpillDivisor - 1) / rootSpillDivisor) rootSpillCapMib) := by
  rw [rootSpillMib, h]
  refine congrArg some ?_
  split <;> omega

/-- The disk of a pool does not fall as tenants grow. -/
theorem poolDiskMib_mono {protocol : Protocol} {less more pool : ℕ} (hle : less ≤ more)
    (h : poolDiskMib protocol more = some pool) :
    ∃ pool', poolDiskMib protocol less = some pool' ∧ pool' ≤ pool := by
  cases hoverhead : engineDiskOverhead protocol with
  | none => simp [poolDiskMib, hoverhead] at h
  | some overhead =>
    simp only [poolDiskMib, rootSpillMib_eq hoverhead, hoverhead, saturatingAdd, rootSpillDivisor,
      Option.bind_eq_bind, Option.bind_some, Option.some.injEq] at h ⊢
    refine ⟨_, rfl, ?_⟩
    omega

/-! ## Runtimes -/

inductive EngineRuntimeStatus
  | creating | booting | running | stopped | failed | quarantined | deleting
  deriving DecidableEq

/-- A runtime that is set aside needs no owner. -/
def EngineRuntimeStatus.setAside (status : EngineRuntimeStatus) : Bool :=
  status = .quarantined || status = .deleting

structure PoolOwner where
  panelId : String
  serverId : String
  deriving DecidableEq

def isValidOwnerKey (value : String) : Bool :=
  value ≠ "" && value.length ≤ 128 &&
    value.toList.all fun c => c.isAlphanum || c = '-' || c = '_' || c = '.'

def PoolOwner.check (owner : PoolOwner) : Except String Unit :=
  let allowed := " must be 1-128 ASCII letters, digits, hyphens, dots or underscores"
  if !isValidOwnerKey owner.panelId then .error ("panel_id" ++ allowed)
  else if !isValidOwnerKey owner.serverId then .error ("server_id" ++ allowed)
  else .ok ()

structure RuntimeReservation where
  tenants : ℕ
  diskMib : ℕ
  deriving DecidableEq

/-- A row of `engine_runtimes`, and the value that is read from it. -/
structure EngineRuntime where
  runtimeId : String
  protocol : Protocol
  deploymentMode : DeploymentMode
  status : EngineRuntimeStatus
  desiredState : DesiredInstanceState
  owner : Option PoolOwner
  limits : InstanceLimits
  maxTenants : ℕ
  reserved : RuntimeReservation
  deriving DecidableEq

inductive PlacementError
  | unsupportedSharedProtocol (protocol : Protocol)
  | emptyRuntimeId
  | zeroTenantLimit
  | dedicatedTenantLimit (maxTenants : ℕ)
  | reservationExceedsLimits
  | invalidLimits (message : String)
  deriving DecidableEq

variable (row : EngineRuntime) (runtime : EngineRuntime)

/-- A shared runtime in use has an owner, and every owner has valid keys. -/
def EngineRuntime.checkOwner : Except PlacementError Unit :=
  match runtime.owner with
  | some owner => owner.check.mapError .invalidLimits
  | none =>
    require (!(runtime.deploymentMode = .shared && !runtime.status.setAside))
      (.invalidLimits "shared pool ownership is missing")

def EngineRuntime.check : Except PlacementError Unit := do
  require (!runtime.runtimeId.toList.all isWhitespace) .emptyRuntimeId
  require (supports runtime.deploymentMode runtime.protocol)
    (.unsupportedSharedProtocol runtime.protocol)
  runtime.checkOwner
  (validateRuntimeLimits runtime.limits.cpuCores runtime.limits.memoryMib).mapError fun error =>
    .invalidLimits error.message
  require (runtime.limits.diskMib ≠ 0) (.invalidLimits "disk_mib must be greater than zero")
  require (runtime.maxTenants ≠ 0) .zeroTenantLimit
  require (!(runtime.deploymentMode = .dedicated && runtime.maxTenants ≠ 1))
    (.dedicatedTenantLimit runtime.maxTenants)
  require (!(runtime.reserved.tenants > runtime.maxTenants ||
    runtime.reserved.diskMib > runtime.limits.diskMib)) .reservationExceedsLimits

/-- The `CHECK` constraints of the table. -/
def EngineRuntime.checks : Bool :=
  0 < row.limits.cpuCores && 0 < row.limits.memoryMib && 0 < row.limits.diskMib &&
    0 < row.maxTenants && row.reserved.tenants ≤ row.maxTenants &&
    row.reserved.diskMib ≤ row.limits.diskMib &&
    (row.deploymentMode = .dedicated || sharedPool row.protocol) &&
    (row.deploymentMode ≠ .dedicated || row.maxTenants = 1)

/-! ## Reservations and instances -/

inductive TenantReservationState
  | reserved | provisioned
  deriving DecidableEq

structure TenantReservation where
  runtimeId : String
  database : String
  username : String
  state : TenantReservationState
  limits : InstanceLimits
  deriving DecidableEq

/-- A row of `instance_metadata` that is deployed on a shared runtime. -/
structure SharedInstance where
  runtimeId : String
  protocol : Protocol
  database : String
  username : String
  limits : InstanceLimits
  deriving DecidableEq

/-! ## Errors -/

/-- A constraint, a trigger or an overflow that makes a statement fail. -/
inductive LedgerSqlError
  | check | uniqueDatabase | uniqueUsername | integerOverflow
  | unownedPool | ownershipImmutable | placementMismatch | exactReservation
  deriving DecidableEq

inductive PlacementRepositoryError
  | sqlx (error : LedgerSqlError)
  | placement (error : PlacementError)
  | runtimeNotFound (runtimeId : String)
  | capacityUnavailable (runtimeId : String)
  | alreadyReserved (instanceId : String)
  | reservationNotFound (instanceId : String)
  | reservationNotAttached (instanceId : String)
  | databaseInUse (runtimeId database : String)
  | usernameInUse (runtimeId username : String)
  | instanceStillAttached (instanceId : String)
  | invalidReservation (message : String)
  | invalidValue (field value : String)
  | integerOverflow (field : String) (value : ℕ)
  deriving DecidableEq

def u64ToI64 (value : ℕ) (field : String) : Except PlacementRepositoryError ℕ :=
  if value ≤ i64Max then .ok value else .error (.integerOverflow field value)

/-! ## The ledger -/

/-- The three tables, with what their constraints say. -/
structure Ledger where
  runtimes : Map String EngineRuntime
  reservations : Map String TenantReservation
  instances : Map String SharedInstance
  checked : ∀ id row, runtimes.lookup id = some row → row.checks = true
  /-- `uq_engine_runtime_reservations_database` -/
  databases : ∀ id id' first second, reservations.lookup id = some first →
    reservations.lookup id' = some second → first.runtimeId = second.runtimeId →
    first.database = second.database → id = id'
  /-- `uq_engine_runtime_reservations_username` -/
  usernames : ∀ id id' first second, reservations.lookup id = some first →
    reservations.lookup id' = some second → first.runtimeId = second.runtimeId →
    first.username = second.username → id = id'

namespace Ledger

def empty : Ledger where
  runtimes := ∅
  reservations := ∅
  instances := ∅
  checked _ _ h := by cases h
  databases _ _ _ _ h := by cases h
  usernames _ _ _ _ h := by cases h

/-- `SELECT COUNT(*) … WHERE runtime_id = ?` -/
def tenantCount (ledger : Ledger) (runtimeId : String) : ℕ :=
  Map.total (fun reservation => if reservation.runtimeId = runtimeId then 1 else 0)
    ledger.reservations

/-- `SELECT SUM(disk_mib) … WHERE runtime_id = ?` -/
def reservedDiskMib (ledger : Ledger) (runtimeId : String) : ℕ :=
  Map.total (fun reservation =>
    if reservation.runtimeId = runtimeId then reservation.limits.diskMib else 0)
    ledger.reservations

/-- Writes the row of a runtime. -/
def putRuntime (ledger : Ledger) (row : EngineRuntime) : Except PlacementRepositoryError Ledger :=
  if hchecks : row.checks = true then
    .ok { ledger with
      runtimes := ledger.runtimes.insert row.runtimeId row
      checked := by
        intro id other h
        rcases Map.lookup_insert_eq h with ⟨-, rfl⟩ | ⟨-, hold⟩
        · exact hchecks
        · exact ledger.checked id other hold }
  else
    .error (.sqlx .check)

/-- Another reservation of the runtime has the same value. -/
def taken (ledger : Ledger) (instanceId : String) (reservation : TenantReservation)
    (value : TenantReservation → String) : Bool :=
  ledger.reservations.entries.any fun entry =>
    entry.1 ≠ instanceId && entry.2.runtimeId = reservation.runtimeId &&
      value entry.2 = value reservation

variable {value : TenantReservation → String} {ledger : Ledger}

theorem eq_of_not_taken {instanceId id : String} {reservation other : TenantReservation}
    (h : ledger.taken instanceId reservation value = false)
    (hother : ledger.reservations.lookup id = some other)
    (hruntime : other.runtimeId = reservation.runtimeId)
    (hvalue : value other = value reservation) : id = instanceId := by
  by_contra hne
  have hmem := AList.mem_lookup_iff.mp (Option.mem_def.mpr hother)
  simp only [taken, List.any_eq_false, Bool.and_eq_true, not_and, decide_eq_true_eq] at h
  exact h ⟨id, other⟩ hmem ⟨by simpa using hne, hruntime⟩ hvalue

theorem unique_insert {instanceId : String} {reservation : TenantReservation}
    (hunique : ∀ id id' first second, ledger.reservations.lookup id = some first →
      ledger.reservations.lookup id' = some second → first.runtimeId = second.runtimeId →
      value first = value second → id = id')
    (h : ledger.taken instanceId reservation value = false) :
    ∀ id id' first second, (ledger.reservations.insert instanceId reservation).lookup id = some first →
      (ledger.reservations.insert instanceId reservation).lookup id' = some second →
      first.runtimeId = second.runtimeId → value first = value second → id = id' := by
  intro id id' first second hfirst hsecond hruntime hvalue
  rcases Map.lookup_insert_eq hfirst with ⟨rfl, rfl⟩ | ⟨-, hold⟩ <;>
    rcases Map.lookup_insert_eq hsecond with ⟨rfl, rfl⟩ | ⟨-, hold'⟩
  · rfl
  · exact (eq_of_not_taken h hold' hruntime.symm hvalue.symm).symm
  · exact eq_of_not_taken h hold hruntime hvalue
  · exact hunique id id' first second hold hold' hruntime hvalue

/-- Writes a reservation. -/
def putReservation (ledger : Ledger) (instanceId : String) (reservation : TenantReservation) :
    Except PlacementRepositoryError Ledger :=
  if hdatabase : ledger.taken instanceId reservation (·.database) = false then
    if husername : ledger.taken instanceId reservation (·.username) = false then
      .ok { ledger with
        reservations := ledger.reservations.insert instanceId reservation
        databases := unique_insert ledger.databases hdatabase
        usernames := unique_insert ledger.usernames husername }
    else
      .error (.sqlx .uniqueUsername)
  else
    .error (.sqlx .uniqueDatabase)

/-- Deletes a reservation. -/
def dropReservation (ledger : Ledger) (instanceId : String) : Ledger :=
  { ledger with
    reservations := ledger.reservations.erase instanceId
    databases := fun id id' first second hfirst hsecond =>
      ledger.databases id id' first second (Map.lookup_of_erase hfirst) (Map.lookup_of_erase hsecond)
    usernames := fun id id' first second hfirst hsecond =>
      ledger.usernames id id' first second (Map.lookup_of_erase hfirst)
        (Map.lookup_of_erase hsecond) }

def putInstance (ledger : Ledger) (instanceId : String) (inst : SharedInstance) : Ledger :=
  { ledger with instances := ledger.instances.insert instanceId inst }

def dropInstance (ledger : Ledger) (instanceId : String) : Ledger :=
  { ledger with instances := ledger.instances.erase instanceId }

end Ledger

/-! ## Transactions -/

def checkReservation (limits : InstanceLimits) : Except PlacementRepositoryError Unit := do
  (validateRuntimeLimits limits.cpuCores limits.memoryMib).mapError fun error =>
    .invalidReservation error.message
  require (limits.diskMib ≠ 0) (.invalidReservation "disk_mib must be greater than zero")

/-- A name that `str::trim` leaves as it is. -/
def isTrimmed (value : String) : Bool :=
  value ≠ "" && !(value.toList.head?.any isWhitespace) && !(value.toList.getLast?.any isWhitespace)

def checkIdentity (value field : String) : Except PlacementRepositoryError Unit :=
  require (isTrimmed value) (.invalidValue field value)

def poolDiskLimit (nextReservedDiskMib : ℕ) : Except PlacementRepositoryError ℕ :=
  match poolDiskMib protocol nextReservedDiskMib with
  | none => .error (.placement (.unsupportedSharedProtocol protocol))
  | some limitDiskMib => u64ToI64 limitDiskMib "limit_disk_mib"

def findRow {V : Type} (rows : Map String V) (id : String) (missing : PlacementRepositoryError) :
    Except PlacementRepositoryError V :=
  match rows.lookup id with
  | none => .error missing
  | some row => .ok row

variable (runtimeId : String)

/-- Counts the reservations of a runtime again. -/
def syncRuntimeCapacity (ledger : Ledger) : Except PlacementRepositoryError Ledger := do
  let row ← findRow ledger.runtimes runtimeId (.runtimeNotFound runtimeId)
  require (row.deploymentMode = .shared) (.runtimeNotFound runtimeId)
  require (ledger.reservedDiskMib runtimeId ≤ i64Max) (.sqlx .integerOverflow)
  ledger.putRuntime { row with
    reserved := ⟨ledger.tenantCount runtimeId, ledger.reservedDiskMib runtimeId⟩ }

structure ReserveTenant where
  owner : PoolOwner
  instanceId : String
  runtimeId : String
  database : String
  username : String
  limits : InstanceLimits
  deriving DecidableEq

variable (ledger : Ledger)

/-- A reservation or an instance of the runtime has the value already. -/
def inUse (runtimeId value : String) (ofReservation : TenantReservation → String)
    (ofInstance : SharedInstance → String) : Bool :=
  (ledger.reservations.entries.any fun entry =>
    entry.2.runtimeId = runtimeId && ofReservation entry.2 = value) ||
  ledger.instances.entries.any fun entry =>
    entry.2.runtimeId = runtimeId && ofInstance entry.2 = value

def reserve (request : ReserveTenant) (ledger : Ledger) :
    Except PlacementRepositoryError Ledger := do
  checkReservation request.limits
  request.owner.check.mapError .invalidReservation
  checkIdentity request.database "database_name"
  checkIdentity request.username "database_username"
  let _ ← u64ToI64 request.limits.memoryMib "memory_mib"
  let _ ← u64ToI64 request.limits.diskMib "disk_mib"
  let row ← findRow ledger.runtimes request.runtimeId (.runtimeNotFound request.runtimeId)
  let nextReservedDiskMib := row.reserved.diskMib + request.limits.diskMib
  require (nextReservedDiskMib ≤ u64Max)
    (.invalidReservation "shared runtime disk reservation overflow")
  let limitDiskMib ← poolDiskLimit row.protocol nextReservedDiskMib
  require (ledger.reservations.lookup request.instanceId).isNone
    (.alreadyReserved request.instanceId)
  require (!inUse ledger request.runtimeId request.database (·.database) (·.database))
    (.databaseInUse request.runtimeId request.database)
  require (!inUse ledger request.runtimeId request.username (·.username) (·.username))
    (.usernameInUse request.runtimeId request.username)
  require (row.deploymentMode = .shared && row.owner = some request.owner &&
      row.status = .running && row.desiredState = .running &&
      row.reserved.tenants < row.maxTenants && limitDiskMib ≤ row.limits.diskMib)
    (.capacityUnavailable request.runtimeId)
  let updated ← ledger.putRuntime { row with
    reserved := ⟨row.reserved.tenants + 1, nextReservedDiskMib⟩ }
  let inserted ← updated.putReservation request.instanceId
    ⟨request.runtimeId, request.database, request.username, .reserved, request.limits⟩
  syncRuntimeCapacity request.runtimeId inserted

variable (instanceId : String)

/-- The update of `mark_provisioned`; no row is no error. -/
def markProvisioned (ledger : Ledger) : Except PlacementRepositoryError Ledger :=
  match ledger.reservations.lookup instanceId with
  | none => .ok ledger
  | some reservation => ledger.putReservation instanceId { reservation with state := .provisioned }

def release (ledger : Ledger) : Except PlacementRepositoryError Ledger := do
  require (ledger.instances.lookup instanceId).isNone (.instanceStillAttached instanceId)
  match ledger.reservations.lookup instanceId with
  | none => return ledger
  | some reservation =>
    match ledger.runtimes.lookup reservation.runtimeId with
    | none => return ledger
    | some _ => syncRuntimeCapacity reservation.runtimeId (ledger.dropReservation instanceId)

/-- What the triggers on `instance_metadata` demand of a row. -/
def checkInstance (inst : SharedInstance) : Except PlacementRepositoryError Unit := do
  require ((ledger.runtimes.lookup inst.runtimeId).any fun row =>
    row.protocol = inst.protocol && row.deploymentMode = .shared) (.sqlx .placementMismatch)
  require (ledger.reservations.lookup instanceId =
    some ⟨inst.runtimeId, inst.database, inst.username, .provisioned, inst.limits⟩)
    (.sqlx .exactReservation)

/-- A new row of `instance_metadata`. -/
def attach (inst : SharedInstance) (ledger : Ledger) : Except PlacementRepositoryError Ledger := do
  checkInstance ledger instanceId inst
  return ledger.putInstance instanceId inst

def resize (instanceId : String) (requested : InstanceLimits) (ledger : Ledger) :
    Except PlacementRepositoryError Ledger := do
  checkReservation requested
  let _ ← u64ToI64 requested.memoryMib "memory_mib"
  let _ ← u64ToI64 requested.diskMib "disk_mib"
  let reservation ← findRow ledger.reservations instanceId (.reservationNotFound instanceId)
  let row ← findRow ledger.runtimes reservation.runtimeId (.reservationNotFound instanceId)
  let nextReservedDiskMib := row.reserved.diskMib - reservation.limits.diskMib + requested.diskMib
  require (reservation.limits.diskMib ≤ row.reserved.diskMib && nextReservedDiskMib ≤ u64Max)
    (.invalidReservation "shared runtime disk resize overflow")
  let limitDiskMib ← poolDiskLimit row.protocol nextReservedDiskMib
  require (row.deploymentMode = .shared && row.status = .running && 0 < row.reserved.tenants &&
      reservation.limits.diskMib ≤ row.reserved.diskMib && limitDiskMib ≤ row.limits.diskMib)
    (.capacityUnavailable reservation.runtimeId)
  let updated ← ledger.putRuntime { row with
    reserved := { row.reserved with diskMib := nextReservedDiskMib } }
  let changed ← updated.putReservation instanceId { reservation with limits := requested }
  let inst ← findRow changed.instances instanceId (.reservationNotAttached instanceId)
  require (inst.runtimeId = reservation.runtimeId) (.reservationNotAttached instanceId)
  checkInstance changed instanceId { inst with limits := requested }
  syncRuntimeCapacity reservation.runtimeId
    (changed.putInstance instanceId { inst with limits := requested })

/-- The deletion of a row of `instance_metadata`, with its trigger. -/
def deleteInstance (ledger : Ledger) : Except PlacementRepositoryError Ledger :=
  match ledger.instances.lookup instanceId with
  | none => .ok ledger
  | some inst =>
    let deleted := (ledger.dropInstance instanceId).dropReservation instanceId
    match deleted.runtimes.lookup inst.runtimeId with
    | none => .ok deleted
    | some row => do
      require (deleted.reservedDiskMib inst.runtimeId ≤ i64Max) (.sqlx .integerOverflow)
      deleted.putRuntime { row with
        reserved := ⟨deleted.tenantCount inst.runtimeId, deleted.reservedDiskMib inst.runtimeId⟩ }

/-- `pool_owner_immutable`, but for a dedicated runtime that gets its owner. -/
def keepsIdentity : Bool :=
  (row.owner = runtime.owner && row.protocol = runtime.protocol &&
    row.deploymentMode = runtime.deploymentMode) ||
  (row.deploymentMode = .dedicated && runtime.deploymentMode = .dedicated &&
    row.protocol = runtime.protocol && row.owner.isNone && runtime.owner.isSome)

/-- The row after a save: the counters stay, and the limits too if the saved value has others. -/
def savedRow : EngineRuntime :=
  { runtime with
    limits := if row.reserved = runtime.reserved then runtime.limits else row.limits
    reserved := row.reserved }

/-- Saves a value of a runtime that may be stale. -/
def save : Except PlacementRepositoryError Ledger := do
  runtime.check.mapError .placement
  let _ ← u64ToI64 runtime.limits.memoryMib "memory_mib"
  let _ ← u64ToI64 runtime.limits.diskMib "disk_mib"
  let _ ← u64ToI64 runtime.reserved.diskMib "reserved_disk_mib"
  -- the constraints look at the row to be inserted before a conflict is looked for
  require runtime.checks (.sqlx .check)
  match ledger.runtimes.lookup runtime.runtimeId with
  | none => ledger.putRuntime runtime
  | some row => do
    require (keepsIdentity row runtime) (.sqlx .ownershipImmutable)
    require (!(runtime.deploymentMode = .shared && !runtime.status.setAside &&
      runtime.owner.isNone)) (.sqlx .unownedPool)
    ledger.putRuntime (savedRow row runtime)

/-! ## Reads -/

def get : Except PlacementRepositoryError (Option EngineRuntime) :=
  match ledger.runtimes.lookup runtimeId with
  | none => .ok none
  | some row => do
    row.check.mapError .placement
    return some row

structure PoolLimits where
  cpuCores : Rat
  memoryMib : ℕ
  diskMib : ℕ
  maxTenants : ℕ
  deriving DecidableEq

/-- What a resize of a pool may ask for, given the value that was read; an error is a conflict. -/
def checkResize (pool : EngineRuntime) (limits : PoolLimits) : Except String Unit := do
  require (pool.owner.isSome && pool.status = .running)
    "shared_pool_unavailable: repair the server pool before resizing"
  require (pool.limits.memoryMib ≤ limits.memoryMib && pool.limits.diskMib ≤ limits.diskMib)
    "live pool memory/disk shrinking is not supported; migrate tenants to reduce capacity"
  require (pool.reserved.tenants ≤ limits.maxTenants)
    "pool max_tenants cannot be smaller than its reserved database count"

/-- The value that is saved after `check_resize`. -/
def resizedPool (pool : EngineRuntime) (limits : PoolLimits) : EngineRuntime :=
  { pool with
    limits := ⟨limits.cpuCores, limits.memoryMib, limits.diskMib⟩
    maxTenants := limits.maxTenants }

end DatabasesEverywhere.Placement
