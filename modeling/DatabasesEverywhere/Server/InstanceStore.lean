import DatabasesEverywhere.Databases.Protocol
import DatabasesEverywhere.Foundations.Maps

/-!
# Server/InstanceStore — published routes, fences and revisions

The store answers the gateway's lookups.  Every operation on an instance first draws the next route
revision for it and takes its routes out of all ten tables; what it puts back decides whether the
instance can be reached:

    upsert ─▸ routes (unless pinned or not eligible)      fence_routes, upsert_fenced ─▸ a fence
    remove ─▸ nothing at all                              pin_routes_fenced ─▸ a fence that stays

A lookup hands out the revision it saw, and `routeIsCurrent` asks later whether it still stands.
The digest of a tenant password is a parameter: nothing here depends on which function it is.
-/

open Foundations

namespace DatabasesEverywhere.Server

/-! ## Metadata -/

inductive DeploymentMode
  | dedicated | shared
  deriving DecidableEq

inductive InstanceStatus
  | creating | booting | running | stopped | failed | quarantined | deleting
  deriving DecidableEq

inductive DesiredInstanceState
  | running | stopped
  deriving DecidableEq

inductive BackendEndpoint
  | unixSocket (socketPath : String)
  | dockerTcp (host : String) (port : ℕ)
  deriving DecidableEq

structure DatabaseIdentity where
  name : String
  username : String
  deriving DecidableEq

/-- The part of the metadata that the store reads. -/
structure InstanceMetadata where
  instanceId : String
  deploymentMode : DeploymentMode
  protocol : Protocol
  status : InstanceStatus
  desiredState : DesiredInstanceState
  diskLimitBlocked : Bool
  backend : BackendEndpoint
  database : DatabaseIdentity
  routeKeySha256 : Option String
  mariadbNativePasswordSha1Stage2 : Option String
  mysqlNativePasswordSha1Stage2 : Option String
  tenantPassword : Option String
  /-- `limits.memory_mib` -/
  memoryMib : ℕ
  createdAt : String
  deriving DecidableEq

def memoryMibPerConnection : ℕ := 32

def minConnections : ℕ := 4

def maxConnectionsBound : ℕ := 100

def maxConnections (metadata : InstanceMetadata) : ℕ :=
  min (max (metadata.memoryMib / memoryMibPerConnection) minConnections) maxConnectionsBound

def connectionLimit (metadata : InstanceMetadata) : Option ℕ :=
  if metadata.deploymentMode = .shared then some (maxConnections metadata) else none

def routeEligible (metadata : InstanceMetadata) : Bool :=
  metadata.status = .running && metadata.desiredState = .running && !metadata.diskLimitBlocked

/-! ## The state -/

abbrev DatabaseRoutes := Map (String × String) String

abbrev KeyRoutes := Map String String

abbrev PasswordRoutes := Map String (Finset String)

structure InstanceState where
  instances : Map String InstanceMetadata := ∅
  fencedInstances : Finset String := ∅
  pinnedFences : Finset String := ∅
  routeRevisions : Map String ℕ := ∅
  nextRouteRevision : ℕ := 0
  postgresRoutes : DatabaseRoutes := ∅
  mariadbRoutes : DatabaseRoutes := ∅
  mysqlRoutes : DatabaseRoutes := ∅
  mongodbRoutes : DatabaseRoutes := ∅
  clickhouseRoutes : DatabaseRoutes := ∅
  qdrantRoutes : KeyRoutes := ∅
  redisRoutes : KeyRoutes := ∅
  valkeyRoutes : KeyRoutes := ∅
  redisPasswordRoutes : PasswordRoutes := ∅
  valkeyPasswordRoutes : PasswordRoutes := ∅

/-- `wrapping_add(1).max(1)` on the 64-bit counter. -/
def nextRevision (revision : ℕ) : ℕ := max ((revision + 1) % 2 ^ 64) 1

namespace InstanceState

variable (passwordRouteSha256 : String → String) (state : InstanceState) (routes : PasswordRoutes)

variable (instanceId : String)

def bumpRouteRevision : InstanceState :=
  let revision := nextRevision state.nextRouteRevision
  { state with
    nextRouteRevision := revision
    routeRevisions := state.routeRevisions.insert instanceId revision }

def routeRevision : ℕ :=
  (state.routeRevisions.lookup instanceId).getD 0

def addPasswordRoute (password : Option String) (instanceId : String) : PasswordRoutes :=
  match password with
  | none => routes
  | some password =>
    let key := passwordRouteSha256 password
    routes.insert key (insert instanceId ((routes.lookup key).getD ∅))

def removePasswordRoute : PasswordRoutes :=
  routes.filterMap fun _ instanceIds =>
    let rest := instanceIds.erase instanceId
    if rest = ∅ then none else some rest

def removeRoutesFor : InstanceState :=
  { state with
    postgresRoutes := state.postgresRoutes.retain fun _ routed => routed != instanceId
    mariadbRoutes := state.mariadbRoutes.retain fun _ routed => routed != instanceId
    mysqlRoutes := state.mysqlRoutes.retain fun _ routed => routed != instanceId
    mongodbRoutes := state.mongodbRoutes.retain fun _ routed => routed != instanceId
    clickhouseRoutes := state.clickhouseRoutes.retain fun _ routed => routed != instanceId
    qdrantRoutes := state.qdrantRoutes.retain fun _ routed => routed != instanceId
    redisRoutes := state.redisRoutes.retain fun _ routed => routed != instanceId
    valkeyRoutes := state.valkeyRoutes.retain fun _ routed => routed != instanceId
    redisPasswordRoutes := removePasswordRoute state.redisPasswordRoutes instanceId
    valkeyPasswordRoutes := removePasswordRoute state.valkeyPasswordRoutes instanceId }

variable (metadata : InstanceMetadata)

def publishRoutes : InstanceState :=
  let instanceId := metadata.instanceId
  let username := metadata.database.username
  let usernameAndDatabase := (metadata.database.username, metadata.database.name)
  match metadata.protocol with
  | .postgres =>
    { state with postgresRoutes := state.postgresRoutes.insert usernameAndDatabase instanceId }
  | .redis =>
    { state with
      redisRoutes := state.redisRoutes.insert username instanceId
      redisPasswordRoutes := addPasswordRoute passwordRouteSha256 state.redisPasswordRoutes
        metadata.tenantPassword instanceId }
  | .valkey =>
    { state with
      valkeyRoutes := state.valkeyRoutes.insert username instanceId
      valkeyPasswordRoutes := addPasswordRoute passwordRouteSha256 state.valkeyPasswordRoutes
        metadata.tenantPassword instanceId }
  | .mariadb =>
    { state with mariadbRoutes := state.mariadbRoutes.insert usernameAndDatabase instanceId }
  | .mysql =>
    { state with mysqlRoutes := state.mysqlRoutes.insert usernameAndDatabase instanceId }
  | .mongodb =>
    { state with mongodbRoutes := state.mongodbRoutes.insert usernameAndDatabase instanceId }
  | .clickhouse =>
    { state with clickhouseRoutes := state.clickhouseRoutes.insert usernameAndDatabase instanceId }
  | .qdrant =>
    match metadata.routeKeySha256 with
    | some routeKeySha256 =>
      { state with qdrantRoutes := state.qdrantRoutes.insert routeKeySha256 instanceId }
    | none => state

def upsert : InstanceState :=
  let cleared := (state.bumpRouteRevision metadata.instanceId).removeRoutesFor metadata.instanceId
  if metadata.instanceId ∈ cleared.pinnedFences then
    { cleared with
      fencedInstances := insert metadata.instanceId cleared.fencedInstances
      instances := cleared.instances.insert metadata.instanceId metadata }
  else
    let opened :=
      { cleared with fencedInstances := cleared.fencedInstances.erase metadata.instanceId }
    let published :=
      if routeEligible metadata then opened.publishRoutes passwordRouteSha256 metadata else opened
    { published with instances := published.instances.insert metadata.instanceId metadata }

def upsertFenced : InstanceState :=
  let cleared := (state.bumpRouteRevision metadata.instanceId).removeRoutesFor metadata.instanceId
  { cleared with
    fencedInstances := insert metadata.instanceId cleared.fencedInstances
    instances := cleared.instances.insert metadata.instanceId metadata }

def upsertPreservingFence : InstanceState :=
  let wasOpen := (state.instances.lookup metadata.instanceId).any routeEligible
    && metadata.instanceId ∉ state.fencedInstances
  if wasOpen then state.upsert passwordRouteSha256 metadata else state.upsertFenced metadata

def openRoutes : InstanceState :=
  upsert passwordRouteSha256
    { state with pinnedFences := state.pinnedFences.erase metadata.instanceId } metadata

def remove : InstanceState :=
  let cleared := (state.bumpRouteRevision instanceId).removeRoutesFor instanceId
  { cleared with
    fencedInstances := cleared.fencedInstances.erase instanceId
    pinnedFences := cleared.pinnedFences.erase instanceId
    routeRevisions := cleared.routeRevisions.erase instanceId
    instances := cleared.instances.erase instanceId }

/-- `none` where the source returns `false`: the instance is not there. -/
def fenceExisting : Option InstanceState :=
  if instanceId ∈ state.instances then
    let cleared := (state.bumpRouteRevision instanceId).removeRoutesFor instanceId
    some { cleared with fencedInstances := insert instanceId cleared.fencedInstances }
  else none

def fenceRoutes : Option InstanceState :=
  state.fenceExisting instanceId

def pinRoutesFenced : Option InstanceState :=
  (state.fenceExisting instanceId).map fun fenced =>
    { fenced with pinnedFences := insert instanceId fenced.pinnedFences }

def routeIsCurrent (revision : ℕ) : Bool :=
  instanceId ∉ state.fencedInstances && state.routeRevisions.lookup instanceId = some revision

/-! ## Lookups -/

end InstanceState

structure RouteTarget where
  instanceId : String
  instanceGeneration : String
  endpoint : BackendEndpoint
  connectionLimit : Option ℕ
  routeRevision : ℕ
  deriving DecidableEq

/-- What `resolve_mariadb_route` adds to a target for the MySQL family. -/
structure MariadbRouteTarget extends RouteTarget where
  shared : Bool
  nativePasswordSha1Stage2 : Option String
  tenantPassword : Option String
  deriving DecidableEq

inductive DatabaseRouteResolution (T : Type)
  | found (database : String) (target : T)
  | notFound
  | ambiguous

inductive RouteKeyResolution
  | found (database : String) (instanceId : String)
  | notFound
  | ambiguous
  deriving DecidableEq

/-- An exact name is looked up; without one the username must have exactly one route. -/
def resolveDatabaseRoute (routes : DatabaseRoutes) (username : String)
    (database : Option String) : RouteKeyResolution :=
  match database.filter fun database => !database.isEmpty with
  | some database =>
    match routes.lookup (username, database) with
    | some instanceId => .found database instanceId
    | none => .notFound
  | none =>
    match routes.entries.filter fun route => route.1.1 = username with
    | [] => .notFound
    | [⟨(_, database), instanceId⟩] => .found database instanceId
    | _ :: _ :: _ => .ambiguous

namespace InstanceState

def routeTarget (state : InstanceState) (instanceId : String) (metadata : InstanceMetadata) :
    RouteTarget where
  instanceId := metadata.instanceId
  instanceGeneration := metadata.createdAt
  endpoint := metadata.backend
  connectionLimit := connectionLimit metadata
  routeRevision := state.routeRevision instanceId

def routeTargetFor (state : InstanceState) (instanceId : String) : Option RouteTarget :=
  (state.instances.lookup instanceId).map (state.routeTarget instanceId)

def resolveDatabaseTarget {T : Type} (state : InstanceState) (routes : DatabaseRoutes)
    (username : String) (database : Option String)
    (buildTarget : String → InstanceMetadata → T) : DatabaseRouteResolution T :=
  match resolveDatabaseRoute routes username database with
  | .found database instanceId =>
    match state.instances.lookup instanceId with
    | some metadata => .found database (buildTarget instanceId metadata)
    | none => .notFound
  | .notFound => .notFound
  | .ambiguous => .ambiguous

def resolvePlainRoute (state : InstanceState) (routes : DatabaseRoutes) (username : String)
    (database : Option String) : DatabaseRouteResolution RouteTarget :=
  state.resolveDatabaseTarget routes username database state.routeTarget

def resolveMariadbRoute (state : InstanceState) (routes : DatabaseRoutes) (username : String)
    (database : Option String) (verifier : InstanceMetadata → Option String) :
    DatabaseRouteResolution MariadbRouteTarget :=
  state.resolveDatabaseTarget routes username database fun instanceId metadata =>
    { state.routeTarget instanceId metadata with
      shared := metadata.deploymentMode = .shared
      nativePasswordSha1Stage2 := verifier metadata
      tenantPassword := metadata.tenantPassword }

def resolvePasswordRoute (state : InstanceState) (routes : PasswordRoutes)
    (passwordSha256 : String) : Option (String × RouteTarget) := do
  let instanceId ← only (← routes.lookup passwordSha256)
  let metadata ← state.instances.lookup instanceId
  return (metadata.database.username, state.routeTarget instanceId metadata)

def resolvePostgres (state : InstanceState) (username : String) (database : Option String) :
    DatabaseRouteResolution RouteTarget :=
  state.resolvePlainRoute state.postgresRoutes username database

def resolveClickhouse (state : InstanceState) (username : String) (database : Option String) :
    DatabaseRouteResolution RouteTarget :=
  state.resolvePlainRoute state.clickhouseRoutes username database

def resolveMariadb (state : InstanceState) (username : String) (database : Option String) :
    DatabaseRouteResolution MariadbRouteTarget :=
  state.resolveMariadbRoute state.mariadbRoutes username database
    InstanceMetadata.mariadbNativePasswordSha1Stage2

def resolveMysql (state : InstanceState) (username : String) (database : Option String) :
    DatabaseRouteResolution MariadbRouteTarget :=
  state.resolveMariadbRoute state.mysqlRoutes username database
    InstanceMetadata.mysqlNativePasswordSha1Stage2

def resolveMongodb (state : InstanceState) (username database : String) : Option RouteTarget := do
  state.routeTargetFor (← state.mongodbRoutes.lookup (username, database))

def resolveRedis (state : InstanceState) (username : String) : Option RouteTarget := do
  state.routeTargetFor (← state.redisRoutes.lookup username)

def resolveValkey (state : InstanceState) (username : String) : Option RouteTarget := do
  state.routeTargetFor (← state.valkeyRoutes.lookup username)

def resolveRedisPassword (state : InstanceState) (passwordSha256 : String) :
    Option (String × RouteTarget) :=
  state.resolvePasswordRoute state.redisPasswordRoutes passwordSha256

def resolveValkeyPassword (state : InstanceState) (passwordSha256 : String) :
    Option (String × RouteTarget) :=
  state.resolvePasswordRoute state.valkeyPasswordRoutes passwordSha256

def resolveQdrant (state : InstanceState) (routeKeySha256 : String) : Option RouteTarget := do
  state.routeTargetFor (← state.qdrantRoutes.lookup routeKeySha256)

/-! ## Revisions

What one operation does to the revisions of the whole store: the counter moves on, the instance
operated on carries the new value or none, and every other instance keeps its own. -/

/-- One operation on one instance, as the revisions show it. -/
structure Advances (state : InstanceState) (instanceId : String) (after : InstanceState) :
    Prop where
  counter : after.nextRouteRevision = nextRevision state.nextRouteRevision
  own : ∀ revision, after.routeRevisions.lookup instanceId = some revision →
    revision = after.nextRouteRevision
  others : ∀ other, other ≠ instanceId →
    after.routeRevisions.lookup other = state.routeRevisions.lookup other

variable (hash : String → String) {instanceId : String} {state after : InstanceState}

theorem Advances.congr {after' : InstanceState} (h : Advances state instanceId after)
    (hcounter : after'.nextRouteRevision = after.nextRouteRevision)
    (hrevisions : after'.routeRevisions = after.routeRevisions) :
    Advances state instanceId after' where
  counter := hcounter.trans h.counter
  own := by rw [hrevisions, hcounter]; exact h.own
  others := by rw [hrevisions]; exact h.others

theorem bumpRouteRevision_advances (state : InstanceState) (instanceId : String) :
    Advances state instanceId (state.bumpRouteRevision instanceId) where
  counter := rfl
  own revision h := by
    rw [bumpRouteRevision, AList.lookup_insert] at h
    exact (Option.some.inj h).symm
  others _ hother := AList.lookup_insert_ne hother

theorem cleared_advances (state : InstanceState) (instanceId : String) :
    Advances state instanceId
      ((state.bumpRouteRevision instanceId).removeRoutesFor instanceId) :=
  (bumpRouteRevision_advances state instanceId).congr rfl rfl

variable (state) (metadata : InstanceMetadata)

@[simp] theorem publishRoutes_nextRouteRevision :
    (state.publishRoutes hash metadata).nextRouteRevision = state.nextRouteRevision := by
  unfold publishRoutes
  split <;> first | rfl | (split <;> rfl)

@[simp] theorem publishRoutes_routeRevisions :
    (state.publishRoutes hash metadata).routeRevisions = state.routeRevisions := by
  unfold publishRoutes
  split <;> first | rfl | (split <;> rfl)

@[simp] theorem publishRoutes_fencedInstances :
    (state.publishRoutes hash metadata).fencedInstances = state.fencedInstances := by
  unfold publishRoutes
  split <;> first | rfl | (split <;> rfl)

@[simp] theorem publishRoutes_pinnedFences :
    (state.publishRoutes hash metadata).pinnedFences = state.pinnedFences := by
  unfold publishRoutes
  split <;> first | rfl | (split <;> rfl)

theorem upsert_advances : Advances state metadata.instanceId (state.upsert hash metadata) := by
  refine (cleared_advances state metadata.instanceId).congr ?_ ?_
  all_goals
    simp only [upsert]
    split
    · rfl
    · split <;> simp

theorem upsertFenced_advances : Advances state metadata.instanceId (state.upsertFenced metadata) :=
  (cleared_advances state metadata.instanceId).congr rfl rfl

theorem upsertPreservingFence_advances :
    Advances state metadata.instanceId (state.upsertPreservingFence hash metadata) := by
  simp only [upsertPreservingFence]
  split
  · exact upsert_advances hash state metadata
  · exact upsertFenced_advances state metadata

theorem openRoutes_advances :
    Advances state metadata.instanceId (state.openRoutes hash metadata) := by
  obtain ⟨hcounter, hown, hothers⟩ := upsert_advances hash
    { state with pinnedFences := state.pinnedFences.erase metadata.instanceId } metadata
  exact ⟨hcounter, hown, hothers⟩

theorem remove_advances (instanceId : String) :
    Advances state instanceId (state.remove instanceId) where
  counter := rfl
  own revision h := by
    rw [remove, AList.lookup_erase] at h
    exact absurd h (by simp)
  others other hother :=
    (AList.lookup_erase_ne hother).trans ((cleared_advances state instanceId).others other hother)

variable {state}

theorem fenceRoutes_advances (h : state.fenceRoutes instanceId = some after) :
    Advances state instanceId after := by
  simp only [fenceRoutes, fenceExisting, Option.ite_none_right_eq_some, Option.some.injEq] at h
  obtain ⟨-, rfl⟩ := h
  exact (cleared_advances state instanceId).congr rfl rfl

theorem pinRoutesFenced_advances (h : state.pinRoutesFenced instanceId = some after) :
    Advances state instanceId after := by
  obtain ⟨fenced, hfenced, rfl⟩ := Option.map_eq_some_iff.mp h
  exact (fenceRoutes_advances hfenced).congr rfl rfl

/-- An ordinary upsert opens an instance that is not pinned. -/
theorem upsert_opens {metadata : InstanceMetadata}
    (hpinned : metadata.instanceId ∉ state.pinnedFences) :
    (state.upsert hash metadata).pinnedFences = state.pinnedFences ∧
      metadata.instanceId ∉ (state.upsert hash metadata).fencedInstances ∧
      (state.upsert hash metadata).routeRevisions.lookup metadata.instanceId =
        some (nextRevision state.nextRouteRevision) := by
  simp only [upsert]
  rw [if_neg (by exact hpinned)]
  split <;>
    simp [removeRoutesFor, bumpRouteRevision, AList.lookup_insert]

end InstanceState

end DatabasesEverywhere.Server
