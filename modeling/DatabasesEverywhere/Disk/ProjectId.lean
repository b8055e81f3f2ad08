import DatabasesEverywhere.Foundations.Bytes
import DatabasesEverywhere.Foundations.Faults

/-!
# Disk/ProjectId — the registry of project quota ids

Every owner of a native quota gets an id of its own.  The registry is a directory with three files
for an id, and every one of them holds the name of its owner:

    5             the claim
    5.pending     published before the claim, removed when the id goes into service
    5.released    the tombstone: the id is never given out again

An id is found by probing from a hash of the owner's name, so a search ends at the first id without
a file.  Writing a file takes several steps of the file system — create, name, line break, sync —
and the daemon may be stopped at each of them.
-/

open Foundations

namespace DatabasesEverywhere.Disk

/-! ## Files -/

inductive StateFile
  | claim | pending | released
  deriving DecidableEq

structure StatePath where
  id : UInt32
  file : StateFile
  deriving DecidableEq

def claimPath (id : UInt32) : StatePath := ⟨id, .claim⟩
def pendingPath (id : UInt32) : StatePath := ⟨id, .pending⟩
def tombstonePath (id : UInt32) : StatePath := ⟨id, .released⟩

inductive RegistryPath
  | directory | lock | state (path : StatePath)
  deriving DecidableEq

inductive ErrorKind
  | alreadyExists | invalidData | invalidInput | notFound | permissionDenied | other
  deriving DecidableEq

/-- An error of the file system, or one the registry raises itself. -/
inductive IoError
  | host (kind : ErrorKind)
  | raised (kind : ErrorKind) (message : String)
  deriving DecidableEq

def IoError.kind : IoError → ErrorKind
  | host kind | raised kind _ => kind

inductive DiskLimitError
  | projectIdRegistry (path : RegistryPath) (source : IoError)
  | projectIdExhausted (base : UInt32)
  deriving DecidableEq

def registryError (path : RegistryPath) (message : String) : DiskLimitError :=
  .projectIdRegistry path (.raised .invalidInput message)

structure Registry where
  present : Bool
  files : StatePath → Option Bytes

namespace Registry

/-- The directory does not exist. -/
def missing : Registry := ⟨false, fun _ => none⟩

variable (registry : Registry) (path : StatePath)

def put (content : Bytes) : Registry :=
  { registry with files := Function.update registry.files path (some content) }

def append (bytes : Bytes) : Registry :=
  { registry with
    files := Function.update registry.files path ((registry.files path).map (· ++ bytes)) }

def erase : Registry :=
  { registry with files := Function.update registry.files path none }

end Registry

/-! ## Steps of the file system -/

/-- A step that leaves the files as they are. -/
def touch : Program Registry IoError Unit := .step (.host .other) id fun _ => id

variable (path : StatePath)

def createNew : Program Registry IoError Unit := do
  let registry ← .look
  if (registry.files path).isSome then
    .fail (.host .alreadyExists)
  else
    .step (.host .other) (·.put path []) fun _ => id

def writeAll (bytes : Bytes) : Program Registry IoError Unit :=
  .step (.host .other) (·.append path bytes) fun written registry =>
    registry.append path (bytes.take written)

def removeFile : Program Registry IoError Unit := do
  let registry ← .look
  if (registry.files path).isNone then
    .fail (.host .notFound)
  else
    .step (.host .other) (·.erase path) fun _ => id

/-! ## Owner files -/

def maxOwnerFileBytes : ℕ := 1024

def isLineBreak (byte : UInt8) : Bool := byte = Ascii.newline || byte = Ascii.carriage

def invalidOwnerData : IoError := .raised .invalidData "project id claim contains invalid owner data"

/-- The name in an owner file.  Bytes that are no text are refused by the source as well: nothing
but a prefix of a name and its line break is ever written, and one that is cut has no line break. -/
def parseOwner (content : Bytes) : Except IoError Bytes :=
  if content.length > maxOwnerFileBytes || content.getLast? ≠ some Ascii.newline then
    .error invalidOwnerData
  else if content.dropLast = [] || content.dropLast.any isLineBreak then
    .error invalidOwnerData
  else
    .ok content.dropLast

def Registry.owner (registry : Registry) (path : StatePath) : Except IoError (Option Bytes) :=
  match registry.files path with
  | none => .ok none
  | some content => (parseOwner content).map some

def readOwner : Program Registry IoError (Option Bytes) := do
  touch
  let registry ← .look
  .ofExcept (registry.owner path)

def registryIoError (path : RegistryPath) (source : IoError) : DiskLimitError :=
  .projectIdRegistry path source

def readRegistryOwner : Program Registry DiskLimitError (Option Bytes) :=
  (readOwner path).mapError (registryIoError (.state path))

def syncDirectory : Program Registry IoError Unit := touch

variable (ownerId : Bytes)

def createOwnerFile : Program Registry IoError Unit := do
  createNew path
  let writeResult ← Program.attempt (do
    writeAll path ownerId
    writeAll path [Ascii.newline]
    touch)
  match writeResult with
  | .ok () => pure ()
  | .error error => do
    -- the file is removed if the file system lets us
    let _ ← (removeFile path).attempt
    .fail error

inductive Claim
  | created | alreadyOwned | ownedByAnother
  deriving DecidableEq

variable (instanceId : Bytes)

def claim : Program Registry IoError Claim := do
  match ← (createOwnerFile path instanceId).attempt with
  | .ok () => do
    syncDirectory
    pure .created
  | .error error =>
    if error.kind = .alreadyExists then do
      if (← readOwner path) = some instanceId then pure .alreadyOwned else pure .ownedByAnother
    else
      .fail error

def writeTombstone (id : UInt32) (ownerId : Bytes) : Program Registry IoError Unit := do
  match ← (createOwnerFile (tombstonePath id) ownerId).attempt with
  | .ok () => syncDirectory
  | .error error =>
    if error.kind = .alreadyExists then do
      if (← readOwner (tombstonePath id)) = some ownerId then
        pure ()
      else
        .fail (.raised .alreadyExists "project id tombstone belongs to another owner")
    else
      .fail error

def removePending (id : UInt32) (ownerId : Bytes) : Program Registry IoError Unit := do
  match ← readOwner (pendingPath id) with
  | none => pure ()
  | some pendingOwner =>
    if pendingOwner ≠ ownerId then
      .fail (.raised .permissionDenied "project id pending marker belongs to another owner")
    else do
      removeFile (pendingPath id)
      syncDirectory

/-! ## Probing -/

def projectIdAllocationRangeSize : ℕ := 1000000

variable (base : UInt32)

def allocationSpan : ℕ :=
  min (2 ^ 32 - 1 - base.toNat + 1) projectIdAllocationRangeSize

def fnv1a32 (bytes : Bytes) : UInt32 :=
  bytes.foldl (fun hash byte => (hash ^^^ byte.toUInt32) * 0x01000193) 0x811c9dc5

def initialProjectId (span : ℕ) : UInt32 :=
  base + UInt32.ofNat ((fnv1a32 instanceId).toNat % span)

def probeCandidate (initial : UInt32) (span offset : ℕ) : UInt32 :=
  base + UInt32.ofNat (((initial - base).toNat + offset) % span)

/-- The id an owner probes at an offset. -/
def candidate (ownerId : Bytes) (offset : ℕ) : UInt32 :=
  let span := allocationSpan base
  probeCandidate base (initialProjectId ownerId base span) span offset

def offsets : List ℕ := List.range' 0 (allocationSpan base)

/-! ## Operations -/

def validateInstanceId : Except DiskLimitError Unit :=
  if instanceId = [] || instanceId.length > 1023 || instanceId.any isLineBreak then
    .error (registryError .directory
      "instance id must be 1..=1023 bytes and contain no line breaks")
  else
    .ok ()

def validateCandidateOwners (id : UInt32) (claimOwner pendingOwner releasedOwner : Option Bytes) :
    Except DiskLimitError Unit :=
  match [claimOwner, pendingOwner, releasedOwner].flatMap Option.toList with
  | [] => .ok ()
  | expected :: owners =>
    if owners.all (· = expected) then
      .ok ()
    else
      let path :=
        if releasedOwner.isSome then tombstonePath id
        else if pendingOwner.isSome then pendingPath id
        else claimPath id
      .error (registryError (.state path) "project id claim state files have different owners")

inductive ProjectIdState
  | pending | active | released
  deriving DecidableEq

structure ProjectIdClaim where
  id : UInt32
  state : ProjectIdState
  deriving DecidableEq

def claimState (hasPendingMarker hasTombstone : Bool) : ProjectIdState :=
  if hasTombstone then .released
  else if hasPendingMarker then .pending
  -- claims written before there were pending markers are in service
  else .active

def openExistingRegistry : Program Registry DiskLimitError Bool := do
  touch.mapError (registryIoError .directory)
  return (← .look).present

def createPrivateRegistry : Program Registry DiskLimitError Unit := do
  -- a directory that is there already is as good as a new one
  .step (registryIoError .directory (.host .other)) ({ · with present := true }) fun _ => id
  touch.mapError (registryIoError .directory)

def lockRegistry : Program Registry DiskLimitError Unit := touch.mapError (registryIoError .lock)

/-- The loop of `find_locked` over the offsets to come. -/
def findFrom (ownerId : Bytes) (base : UInt32) :
    List ℕ → Option ProjectIdClaim → Program Registry DiskLimitError (Option ProjectIdClaim)
  | [], releasedClaim => pure releasedClaim
  | offset :: offsets, releasedClaim => do
    let id := candidate base ownerId offset
    let claimOwner ← readRegistryOwner (claimPath id)
    let releasedOwner ← readRegistryOwner (tombstonePath id)
    let pendingOwner ← readRegistryOwner (pendingPath id)
    .ofExcept (validateCandidateOwners id claimOwner pendingOwner releasedOwner)
    let ownedByCaller := claimOwner = some ownerId || pendingOwner = some ownerId ||
      (claimOwner = none && releasedOwner = some ownerId)
    let claim : ProjectIdClaim := ⟨id, claimState pendingOwner.isSome releasedOwner.isSome⟩
    if ownedByCaller && claim.state ≠ .released then
      pure (some claim)
    else
      let releasedClaim := if ownedByCaller then releasedClaim.or (some claim) else releasedClaim
      if claimOwner = none && pendingOwner = none && releasedOwner = none then
        pure releasedClaim
      else
        findFrom ownerId base offsets releasedClaim

def findLocked : Program Registry DiskLimitError (Option ProjectIdClaim) :=
  findFrom ownerId base (offsets base) none

def findSync : Program Registry DiskLimitError (Option ProjectIdClaim) := do
  .ofExcept (validateInstanceId ownerId)
  if !(← openExistingRegistry) then
    pure none
  else do
    lockRegistry
    findLocked ownerId base

def releaseSync : Program Registry DiskLimitError (Option UInt32) := do
  .ofExcept (validateInstanceId ownerId)
  if !(← openExistingRegistry) then
    pure none
  else do
    lockRegistry
    match ← findLocked ownerId base with
    | none => pure none
    | some claim => do
      (writeTombstone claim.id ownerId).mapError
        (registryIoError (.state (tombstonePath claim.id)))
      (removePending claim.id ownerId).mapError (registryIoError (.state (pendingPath claim.id)))
      pure (some claim.id)

def activateSync (id : UInt32) : Program Registry DiskLimitError Unit := do
  .ofExcept (validateInstanceId ownerId)
  if !(← openExistingRegistry) then
    .fail (registryError .directory "project id registry does not exist")
  else do
    lockRegistry
    let claimOwner ← readRegistryOwner (claimPath id)
    let pendingOwner ← readRegistryOwner (pendingPath id)
    let releasedOwner ← readRegistryOwner (tombstonePath id)
    .ofExcept (validateCandidateOwners id claimOwner pendingOwner releasedOwner)
    if releasedOwner.isSome then
      .fail (registryError (.state (tombstonePath id)) "released project id cannot be activated")
    else if claimOwner ≠ some ownerId then
      .fail (registryError (.state (claimPath id))
        "project id claim is missing or belongs to another owner")
    else
      (removePending id ownerId).mapError (registryIoError (.state (pendingPath id)))

def publishPendingClaim (id : UInt32) (ownerId : Bytes) : Program Registry IoError Claim := do
  match ← claim (pendingPath id) ownerId with
  | .ownedByAnother => pure .ownedByAnother
  | .created | .alreadyOwned =>
    match ← claim (claimPath id) ownerId with
    | .created | .alreadyOwned => pure .alreadyOwned
    | .ownedByAnother =>
      .fail (.raised .alreadyExists
        "project id was claimed by another owner after pending publication")

/-- The loop of `allocate_sync` over the offsets to come. -/
def allocateFrom (instanceId : Bytes) (base : UInt32) :
    List ℕ → Program Registry DiskLimitError UInt32
  | [] => .fail (.projectIdExhausted base)
  | offset :: offsets => do
    let id := candidate base instanceId offset
    let claimOwner ← readRegistryOwner (claimPath id)
    let pendingOwner ← readRegistryOwner (pendingPath id)
    let releasedOwner ← readRegistryOwner (tombstonePath id)
    .ofExcept (validateCandidateOwners id claimOwner pendingOwner releasedOwner)
    if releasedOwner.isSome then
      -- a released id is never given out again, not even to its own owner
      allocateFrom instanceId base offsets
    else if claimOwner = some instanceId && pendingOwner = none then
      pure id
    else if !(pendingOwner = some instanceId) && !(claimOwner = none && pendingOwner = none) then
      allocateFrom instanceId base offsets
    else do
      match ← (publishPendingClaim id instanceId).mapError
          (registryIoError (.state (claimPath id))) with
      | .created | .alreadyOwned => pure id
      | .ownedByAnother => allocateFrom instanceId base offsets

def allocateSync : Program Registry DiskLimitError UInt32 := do
  .ofExcept (validateInstanceId instanceId)
  createPrivateRegistry
  lockRegistry
  allocateFrom instanceId base (offsets base)

end DatabasesEverywhere.Disk
