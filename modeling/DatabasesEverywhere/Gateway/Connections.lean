import DatabasesEverywhere.Foundations.Runs
import DatabasesEverywhere.Gateway.Sessions
import DatabasesEverywhere.Server.InstanceStore

/-!
# Gateway/Connections — connections and lifecycle operations, turn by turn

A connection looks a route up, files a session and only then asks whether its route still stands; a
lifecycle operation takes the route away and only then cancels the sessions it finds:

    connection   resolve ─▸ draw ─▸ insert ─▸ check ─▸ check ─▸ (check ─▸ authenticate ─▸ check)
    operation              fence ───────────────▸ collect ──▸ flag … flag

The store and the registry have a lock each, so the turns of the parties fall in any order.  An
action that is not enabled leaves the system alone, and every other one is a `Move`.
-/

open Foundations DatabasesEverywhere.Server

namespace DatabasesEverywhere.Gateway

/-! ## Connections -/

/-- A lookup of the gateway. -/
inductive Request
  | postgres (username : String) (database : Option String)
  | clickhouse (username : String) (database : Option String)
  | mariadb (username : String) (database : Option String)
  | mysql (username : String) (database : Option String)
  | mongodb (username database : String)
  | redis (username : String)
  | valkey (username : String)
  | redisPassword (passwordSha256 : String)
  | valkeyPassword (passwordSha256 : String)
  | qdrant (routeKeySha256 : String)

def targetOf {T : Type} : DatabaseRouteResolution T → Option T
  | .found _ target => some target
  | .notFound | .ambiguous => none

def Request.resolve (store : InstanceState) : Request → Option RouteTarget
  | .postgres username database => targetOf (store.resolvePostgres username database)
  | .clickhouse username database => targetOf (store.resolveClickhouse username database)
  | .mariadb username database =>
    (targetOf (store.resolveMariadb username database)).map MariadbRouteTarget.toRouteTarget
  | .mysql username database =>
    (targetOf (store.resolveMysql username database)).map MariadbRouteTarget.toRouteTarget
  | .mongodb username database => store.resolveMongodb username database
  | .redis username => store.resolveRedis username
  | .valkey username => store.resolveValkey username
  | .redisPassword passwordSha256 => (store.resolveRedisPassword passwordSha256).map Prod.snd
  | .valkeyPassword passwordSha256 => (store.resolveValkeyPassword passwordSha256).map Prod.snd
  | .qdrant routeKeySha256 => store.resolveQdrant routeKeySha256

/-- How far a connection has come. -/
inductive Stage
  | resolved
  /-- Its session id is drawn. -/
  | opening
  /-- Its session is filed; no check of the route yet. -/
  | registered
  /-- `finish_route` is past its first check. -/
  | confirmed
  /-- `finish_route` is past its second check; a pending session goes on from here. -/
  | routed
  /-- The backend has accepted the startup, and the route was checked again. -/
  | rechecked
  | authenticated
  | inUse
  /-- A check, the limit or `authenticate` has turned the connection away. -/
  | failed
  | closed
  deriving DecidableEq

/-- Where a passed check of the route leads. -/
def Stage.passed (pending : Bool) : Stage → Option Stage
  | .registered => some .confirmed
  | .confirmed => some (if pending then .routed else .inUse)
  | .routed => some .rechecked
  | .authenticated => some .inUse
  | .resolved | .opening | .rechecked | .inUse | .failed | .closed => none

/-- Its first check of the route is still to come. -/
def Stage.awaitsFirstCheck : Stage → Bool
  | .resolved | .opening | .registered => true
  | .confirmed | .routed | .rechecked | .authenticated | .inUse | .failed | .closed => false

/-- It has passed a check of the route and not been turned away. -/
def Stage.isConfirmed : Stage → Bool
  | .confirmed | .routed | .rechecked | .authenticated | .inUse => true
  | .resolved | .opening | .registered | .failed | .closed => false

structure Connection where
  instanceId : String
  revision : ℕ
  limit : Option ℕ
  /-- The session is opened by `open_pending`, not by `try_open`. -/
  pending : Bool
  stage : Stage := .resolved
  session : Option Ref := none
  deriving DecidableEq

/-- A lifecycle operation past its fence: how many connections had been resolved by then, and its
call of `cancel`. -/
structure Operation where
  instanceId : String
  resolvedBefore : ℕ
  cancel : Option ℕ := none
  deriving DecidableEq

structure System where
  store : InstanceState := {}
  registry : Registry := {}
  connections : List Connection := []
  operations : List Operation := []

/-- The operation's call of `cancel` has flagged everything it collected. -/
def Operation.finished (sys : System) (operation : Operation) : Bool :=
  match operation.cancel with
  | none => false
  | some index => sys.registry.cancels[index]?.any fun call => call.remaining = []

/-! ## Steps -/

/-- Operations that may publish the routes of an instance. -/
inductive Publication
  | upsert (metadata : InstanceMetadata)
  | upsertPreservingFence (metadata : InstanceMetadata)
  | openRoutes (metadata : InstanceMetadata)

def Publication.apply (hash : String → String) (store : InstanceState) :
    Publication → InstanceState
  | .upsert metadata => store.upsert hash metadata
  | .upsertPreservingFence metadata => store.upsertPreservingFence hash metadata
  | .openRoutes metadata => store.openRoutes hash metadata

/-- Operations that take the routes of an instance away and then cancel its sessions. -/
inductive Lifecycle
  | fenceRoutes (instanceId : String)
  | pinRoutesFenced (instanceId : String)
  | upsertFenced (metadata : InstanceMetadata)
  | remove (instanceId : String)

def Lifecycle.instanceId : Lifecycle → String
  | .fenceRoutes instanceId | .pinRoutesFenced instanceId | .remove instanceId => instanceId
  | .upsertFenced metadata => metadata.instanceId

/-- `none`: there is nothing to fence, and the operation ends. -/
def Lifecycle.apply (store : InstanceState) : Lifecycle → Option InstanceState
  | .fenceRoutes instanceId => store.fenceRoutes instanceId
  | .pinRoutesFenced instanceId => store.pinRoutesFenced instanceId
  | .upsertFenced metadata => some (store.upsertFenced metadata)
  | .remove instanceId => some (store.remove instanceId)

/-- One turn of one party.  Connections and operations are named by their places. -/
inductive Action
  | publish (publication : Publication)
  | fence (lifecycle : Lifecycle)
  | collect (operation : ℕ)
  | flag (operation : ℕ)
  | active (instanceId : String)
  | resolve (request : Request) (pending : Bool)
  | draw (connection : ℕ)
  | insert (connection : ℕ)
  | check (connection : ℕ)
  | authenticate (connection : ℕ)
  | commit (connection : ℕ)
  | close (connection : ℕ)

namespace System

variable (sys : System) (index : ℕ)

/-- A connection that has a session, with the session. -/
def party : Option (Connection × Ref × Session) := do
  let connection ← sys.connections[index]?
  let ref ← connection.session
  let session ← sys.registry.sessions[ref]?
  return (connection, ref, session)

/-- One connection and the registry change. -/
def proceed (connection : Connection) (registry : Registry) : System :=
  { sys with registry, connections := sys.connections.set index connection }

def fence (lifecycle : Lifecycle) : System :=
  match lifecycle.apply sys.store with
  | none => sys
  | some store =>
    { sys with
      store
      operations := sys.operations ++ [⟨lifecycle.instanceId, sys.connections.length, none⟩] }

def collect : System :=
  match sys.operations[index]? with
  | none => sys
  | some operation =>
    if operation.cancel = none ∧ sys.registry.locked = false then
      { sys with
        registry := sys.registry.collect operation.instanceId
        operations :=
          sys.operations.set index { operation with cancel := some sys.registry.cancels.length } }
    else sys

def flag : System :=
  match sys.operations[index]?.bind Operation.cancel with
  | none => sys
  | some call => { sys with registry := sys.registry.flag call }

def resolve (request : Request) (pending : Bool) : System :=
  match request.resolve sys.store with
  | none => sys
  | some target =>
    { sys with
      connections := sys.connections ++ [
        { instanceId := target.instanceId
          revision := target.routeRevision
          limit := target.connectionLimit
          pending }] }

def draw : System :=
  match sys.connections[index]? with
  | none => sys
  | some connection =>
    if connection.stage = .resolved then
      sys.proceed index
        { connection with stage := .opening, session := some sys.registry.sessions.length }
        (sys.registry.draw connection.instanceId
          (if connection.pending then none else connection.limit) (!connection.pending))
    else sys

def insert : System :=
  match sys.party index with
  | none => sys
  | some (connection, ref, session) =>
    if connection.stage = .opening ∧ session.phase = .opening ∧ sys.registry.locked = false then
      match sys.registry.insert ref session with
      | (.ok _, registry) => sys.proceed index { connection with stage := .registered } registry
      | (.error _, registry) => sys.proceed index { connection with stage := .failed } registry
    else sys

def check : System :=
  match sys.connections[index]? with
  | none => sys
  | some connection =>
    match connection.stage.passed connection.pending with
    | none => sys
    | some next =>
      if sys.store.routeIsCurrent connection.instanceId connection.revision then
        sys.proceed index { connection with stage := next } sys.registry
      else sys.proceed index { connection with stage := .failed } sys.registry

def authenticate : System :=
  match sys.party index with
  | none => sys
  | some (connection, ref, session) =>
    if connection.stage = .rechecked ∧ session.phase = .held ∧ sys.registry.locked = false then
      match sys.registry.authenticate ref session connection.limit with
      | (some (.ok _), registry) =>
        sys.proceed index { connection with stage := .authenticated } registry
      | (some (.error _), registry) =>
        sys.proceed index { connection with stage := .failed } registry
      | (none, registry) => sys.proceed index connection registry
    else sys

def commit : System :=
  match sys.party index with
  | none => sys
  | some (connection, ref, session) =>
    if connection.stage = .rechecked ∧ session.phase = .authenticating then
      sys.proceed index { connection with stage := .authenticated } (sys.registry.commit ref)
    else sys

/-- The connection's task ends and drops its session. -/
def close : System :=
  match sys.party index with
  | none => sys
  | some (connection, ref, session) =>
    if session.phase = .held ∧ sys.registry.locked = false then
      sys.proceed index { connection with stage := .closed } (sys.registry.drop ref session)
    else sys

end System

def step (hash : String → String) (sys : System) : Action → System
  | .publish publication => { sys with store := publication.apply hash sys.store }
  | .fence lifecycle => sys.fence lifecycle
  | .collect operation => sys.collect operation
  | .flag operation => sys.flag operation
  | .active instanceId =>
    if sys.registry.locked then sys else { sys with registry := sys.registry.active instanceId }
  | .resolve request pending => sys.resolve request pending
  | .draw connection => sys.draw connection
  | .insert connection => sys.insert connection
  | .check connection => sys.check connection
  | .authenticate connection => sys.authenticate connection
  | .commit connection => sys.commit connection
  | .close connection => sys.close connection

/-- The system after a run from an empty store; filling the store at startup is a run of upserts. -/
def after (hash : String → String) (actions : List Action) : System :=
  run (step hash) {} actions

/-- Neither 64-bit counter comes around in this step. -/
def NoWrap (hash : String → String) (sys : System) (action : Action) : Prop :=
  sys.store.nextRouteRevision ≤ (step hash sys action).store.nextRouteRevision ∧
    sys.registry.nextId ≤ (step hash sys action).registry.nextId

/-! ## Moves -/

/-- The session a connection holds, in a registry. -/
def Connection.Holds (connection : Connection) (registry : Registry)
    (property : Session → Prop) : Prop :=
  ∃ ref session, connection.session = some ref ∧ registry.sessions[ref]? = some session ∧
    session.instanceId = connection.instanceId ∧ property session

/-- What the stage of a connection says about its session. -/
def Connection.Joined (registry : Registry) (connection : Connection) : Prop :=
  match connection.stage with
  | .resolved => connection.session = none
  | .opening | .failed => connection.Holds registry fun _ => True
  | .closed => connection.Holds registry fun session => session.phase = .dropped
  | .registered | .confirmed | .routed | .rechecked | .authenticated | .inUse =>
    connection.Holds registry fun session => session.opened = true

/-- A connection that goes on: who it is stays, and it is confirmed only by a current route. -/
structure Proceeds (sys : System) (registry : Registry) (connection connection' : Connection) :
    Prop where
  sameInstance : connection'.instanceId = connection.instanceId
  sameRevision : connection'.revision = connection.revision
  joined : connection.Joined sys.registry → connection'.Joined registry
  confirmed : connection'.stage.isConfirmed = true →
    connection.stage.isConfirmed = true ∧ connection'.session = connection.session ∨
      sys.store.routeIsCurrent connection.instanceId connection.revision = true

/-- Calls of `cancel` lose a session only by flagging it. -/
def Serves (registry later : Registry) : Prop :=
  ∀ (index : ℕ) (call : CancelCall), registry.cancels[index]? = some call →
    ∃ call', later.cancels[index]? = some call' ∧ ∀ ref ∈ call.remaining,
      ref ∈ call'.remaining ∨
        ∀ session, later.sessions[ref]? = some session → session.cancelled = true

/-- What one step does to the system. -/
inductive Move : System → System → Prop
  | idle (sys : System) : Move sys sys
  | advance {sys : System} {instanceId : String} {store : InstanceState}
      (hadvances : sys.store.Advances instanceId store) : Move sys { sys with store }
  | fence {sys : System} {instanceId : String} {store : InstanceState}
      (hadvances : sys.store.Advances instanceId store) :
      Move sys
        { sys with
          store
          operations := sys.operations ++ [⟨instanceId, sys.connections.length, none⟩] }
  | resolve {sys : System} {connection : Connection} (hstage : connection.stage = .resolved)
      (hsession : connection.session = none)
      (hrevision : ∃ instanceId, connection.revision = sys.store.routeRevision instanceId) :
      Move sys { sys with connections := sys.connections ++ [connection] }
  | proceed {sys : System} {index : ℕ} {connection connection' : Connection} {registry : Registry}
      (hconnection : sys.connections[index]? = some connection)
      (hproceeds : Proceeds sys registry connection connection')
      (hcontinues : sys.registry.Continues registry)
      (hcancels : registry.cancels = sys.registry.cancels)
      (hfiled : sys.registry.Filed → sys.registry.nextId ≤ registry.nextId → registry.Filed) :
      Move sys (sys.proceed index connection' registry)
  | serve {sys : System} {registry : Registry} (hcontinues : sys.registry.Continues registry)
      (hserves : Serves sys.registry registry) (hfiled : sys.registry.Filed → registry.Filed) :
      Move sys { sys with registry }
  | collect {sys : System} {index : ℕ} {operation : Operation}
      (hoperation : sys.operations[index]? = some operation)
      (hlocked : sys.registry.locked = false) :
      Move sys
        { sys with
          registry := sys.registry.collect operation.instanceId
          operations := sys.operations.set index
            { operation with cancel := some sys.registry.cancels.length } }

/-! ### Every step is a move -/

variable {store : InstanceState}

theorem targetOf_resolveDatabaseTarget {T : Type} {routes : DatabaseRoutes}
    {username : String} {database : Option String} {build : String → InstanceMetadata → T}
    {target : T}
    (h : targetOf (store.resolveDatabaseTarget routes username database build) = some target) :
    ∃ instanceId metadata, target = build instanceId metadata := by
  simp only [InstanceState.resolveDatabaseTarget] at h
  split at h
  · split at h
    · exact ⟨_, _, (Option.some.inj h).symm⟩
    · exact absurd h (by simp [targetOf])
  · exact absurd h (by simp [targetOf])
  · exact absurd h (by simp [targetOf])

variable {target : RouteTarget}

theorem routeTargetFor_revision {found : Option String}
    (h : (found.bind store.routeTargetFor) = some target) :
    ∃ instanceId, target.routeRevision = store.routeRevision instanceId := by
  obtain ⟨instanceId, -, htarget⟩ := Option.bind_eq_some_iff.mp h
  obtain ⟨metadata, -, rfl⟩ := Option.map_eq_some_iff.mp htarget
  exact ⟨instanceId, rfl⟩

theorem resolvePasswordRoute_revision {routes : PasswordRoutes} {passwordSha256 : String}
    (h : (store.resolvePasswordRoute routes passwordSha256).map Prod.snd = some target) :
    ∃ instanceId, target.routeRevision = store.routeRevision instanceId := by
  obtain ⟨found, hfound, rfl⟩ := Option.map_eq_some_iff.mp h
  obtain ⟨instanceIds, -, hfound⟩ := Option.bind_eq_some_iff.mp hfound
  obtain ⟨instanceId, -, hfound⟩ := Option.bind_eq_some_iff.mp hfound
  obtain ⟨metadata, -, hfound⟩ := Option.bind_eq_some_iff.mp hfound
  obtain rfl := Option.some.inj hfound
  exact ⟨instanceId, rfl⟩

/-- **Every lookup hands out the revision its instance has now.** -/
theorem Request.resolve_revision {request : Request} (h : request.resolve store = some target) :
    ∃ instanceId, target.routeRevision = store.routeRevision instanceId := by
  cases request with
  | postgres | clickhouse =>
    obtain ⟨instanceId, metadata, rfl⟩ := targetOf_resolveDatabaseTarget h
    exact ⟨instanceId, rfl⟩
  | mariadb | mysql =>
    obtain ⟨found, hfound, rfl⟩ := Option.map_eq_some_iff.mp h
    obtain ⟨instanceId, metadata, rfl⟩ := targetOf_resolveDatabaseTarget hfound
    exact ⟨instanceId, rfl⟩
  | mongodb | redis | valkey | qdrant => exact routeTargetFor_revision h
  | redisPassword | valkeyPassword => exact resolvePasswordRoute_revision h

variable (hash : String → String)

theorem Publication.apply_advances (store : InstanceState) (publication : Publication) :
    ∃ instanceId, store.Advances instanceId (publication.apply hash store) := by
  cases publication with
  | upsert metadata => exact ⟨_, InstanceState.upsert_advances hash store metadata⟩
  | upsertPreservingFence metadata =>
    exact ⟨_, InstanceState.upsertPreservingFence_advances hash store metadata⟩
  | openRoutes metadata => exact ⟨_, InstanceState.openRoutes_advances hash store metadata⟩

theorem Lifecycle.apply_advances {after : InstanceState} {lifecycle : Lifecycle}
    (h : lifecycle.apply store = some after) : store.Advances lifecycle.instanceId after := by
  cases lifecycle with
  | fenceRoutes instanceId => exact InstanceState.fenceRoutes_advances h
  | pinRoutesFenced instanceId => exact InstanceState.pinRoutesFenced_advances h
  | upsertFenced metadata =>
    obtain rfl := Option.some.inj h
    exact InstanceState.upsertFenced_advances store metadata
  | remove instanceId =>
    obtain rfl := Option.some.inj h
    exact InstanceState.remove_advances store instanceId

variable {connection : Connection} {registry : Registry} {property : Session → Prop}

theorem Connection.Holds.later {later : Registry} (h : connection.Holds registry property)
    (hcontinues : registry.Continues later)
    (hproperty : ∀ session session', session.Later session' → property session →
      property session') : connection.Holds later property := by
  obtain ⟨ref, session, href, hsession, hinstance, hholds⟩ := h
  obtain ⟨session', hsession', hlater⟩ := hcontinues ref session hsession
  exact ⟨ref, session', href, hsession', hlater.sameInstance.trans hinstance,
    hproperty session session' hlater hholds⟩

theorem Connection.Joined.later {later : Registry}
    (h : connection.Joined registry) (hcontinues : registry.Continues later) :
    connection.Joined later := by
  unfold Connection.Joined at h ⊢
  split <;> rename_i hstage <;> simp only [hstage] at h
  · exact h
  · exact h.later hcontinues fun _ _ _ _ => trivial
  · exact h.later hcontinues fun _ _ _ _ => trivial
  · exact h.later hcontinues fun _ _ hlater => hlater.dropped
  all_goals exact h.later hcontinues fun _ _ hlater => hlater.opened

theorem Serves.of_cancels {later : Registry} (h : later.cancels = registry.cancels) :
    Serves registry later :=
  fun _ call hcall => ⟨call, h ▸ hcall, fun _ href => .inl href⟩

variable {sys : System} {session : Session} {ref : Ref}

theorem party_eq_some {index : ℕ} (h : sys.party index = some (connection, ref, session)) :
    sys.connections[index]? = some connection ∧ connection.session = some ref ∧
      sys.registry.sessions[ref]? = some session := by
  simp only [System.party, bind, Option.bind_eq_some_iff, pure, Option.some.injEq,
    Prod.mk.injEq] at h
  obtain ⟨_, hconnection, _, href, _, hsession, rfl, rfl, rfl⟩ := h
  exact ⟨hconnection, href, hsession⟩

/-- Whatever the stage, a connection past its lookup holds a session of its instance. -/
theorem Connection.Joined.holds
    (h : connection.Joined registry) (hstage : connection.stage ≠ .resolved) :
    connection.Holds registry fun _ => True := by
  unfold Connection.Joined at h
  split at h
  · contradiction
  all_goals exact h.imp fun _ h => h.imp fun _ h => ⟨h.1, h.2.1, h.2.2.1, trivial⟩

/-- The session a connection holds, after it has changed. -/
theorem Connection.Joined.holds_at {connection' : Connection} {later : Registry}
    (h : connection.Joined registry) (hstage : connection.stage ≠ .resolved)
    (href : connection.session = some ref)
    (hinstance : connection'.instanceId = connection.instanceId)
    (hsame : connection'.session = connection.session) (hcontinues : registry.Continues later)
    (hsession : later.sessions[ref]? = some session) (hproperty : property session) :
    connection'.Holds later property := by
  obtain ⟨ref', before, href', hbefore, hbeforeInstance, -⟩ := h.holds hstage
  obtain rfl := Option.some.inj (href.symm.trans href')
  obtain ⟨session', hsession', hlater⟩ := hcontinues ref before hbefore
  obtain rfl := Option.some.inj (hsession.symm.trans hsession')
  exact ⟨ref, session, hsame.trans href, hsession,
    (hlater.sameInstance.trans hbeforeInstance).trans hinstance.symm, hproperty⟩

variable (sys) (index : ℕ)

theorem draw_move : Move sys (sys.draw index) := by
  unfold System.draw
  split
  · exact .idle sys
  rename_i connection hconnection
  split
  next hstage =>
    refine .proceed hconnection ⟨rfl, rfl, fun _ => ?_, fun h => by simp [Stage.isConfirmed] at h⟩
      (sys.registry.draw_continues _ _ _) rfl fun h => h.draw _ _ _
    exact ⟨sys.registry.sessions.length, _, rfl, getElem?_concat_eq_some.mpr (.inr ⟨rfl, rfl⟩),
      rfl, trivial⟩
  · exact .idle sys

theorem insert_move : Move sys (sys.insert index) := by
  unfold System.insert
  split
  · exact .idle sys
  rename_i connection ref session hparty
  obtain ⟨hconnection, href, hsession⟩ := party_eq_some hparty
  split
  case isFalse => exact .idle sys
  rename_i hguard
  have hcontinues := Registry.insert_continues hsession hguard.2.1
  have hfiled : sys.registry.Filed → _ → (sys.registry.insert ref session).2.Filed :=
    fun h (_ : sys.registry.nextId ≤ (sys.registry.insert ref session).2.nextId) =>
      h.insert hsession hguard.2.1
  have hstage : connection.stage ≠ .resolved := by simp [hguard.1]
  split
  all_goals
    rename_i result registry hinsert
    obtain rfl : (sys.registry.insert ref session).2 = registry := by rw [hinsert]
    refine .proceed hconnection ⟨rfl, rfl, fun h => ?_, fun h => by simp [Stage.isConfirmed] at h⟩
      hcontinues (sys.registry.insert_cancels ref session) hfiled
  · exact h.holds_at hstage href rfl rfl hcontinues
      (Registry.insert_ok hsession (by rw [hinsert])) rfl
  · obtain ⟨session', hsession', -⟩ := hcontinues ref session hsession
    exact h.holds_at hstage href rfl rfl hcontinues hsession' trivial

/-- A check leaves the registry alone, and a passed one is a current route. -/
theorem check_move : Move sys (sys.check index) := by
  unfold System.check
  split
  · exact .idle sys
  rename_i connection hconnection
  split
  · exact .idle sys
  rename_i next hnext
  have hcontinues : sys.registry.Continues sys.registry := .of_sessions rfl
  have hstage : connection.stage ≠ .resolved := by
    intro h
    simp [h, Stage.passed] at hnext
  split
  next hcurrent =>
    refine .proceed hconnection ⟨rfl, rfl, fun h => ?_, fun _ => .inr hcurrent⟩
      hcontinues rfl fun h _ => h
    revert hnext h
    cases hstage' : connection.stage <;> cases connection.pending <;>
      simp only [Stage.passed, Connection.Joined, hstage', Option.some.injEq, reduceCtorEq,
        IsEmpty.forall_iff, if_true, Bool.false_eq_true, if_false]
    all_goals
      rintro rfl h
      exact h
  · refine .proceed hconnection ⟨rfl, rfl, fun h => ?_, fun h => by simp [Stage.isConfirmed] at h⟩
      hcontinues rfl fun h _ => h
    exact h.holds hstage

theorem authenticate_move : Move sys (sys.authenticate index) := by
  unfold System.authenticate
  split
  · exact .idle sys
  rename_i connection ref session hparty
  obtain ⟨hconnection, href, hsession⟩ := party_eq_some hparty
  split
  case isFalse => exact .idle sys
  rename_i hguard
  have hcontinues := Registry.authenticate_continues hsession hguard.2.1 connection.limit
  have hfiled : sys.registry.Filed → _ →
      (sys.registry.authenticate ref session connection.limit).2.Filed :=
    fun h (_ : sys.registry.nextId ≤
      (sys.registry.authenticate ref session connection.limit).2.nextId) =>
      h.authenticate hsession hguard.2.1 connection.limit
  have hstage : connection.stage ≠ .resolved := by simp [hguard.1]
  obtain ⟨session', hsession', hlater⟩ := hcontinues ref session hsession
  have hopened : session'.opened = true := hlater.opened (by simp [Session.opened, hguard.2.1])
  split
  all_goals
    rename_i registry hauthenticate
    obtain rfl : (sys.registry.authenticate ref session connection.limit).2 = registry := by
      rw [hauthenticate]
    refine .proceed hconnection ⟨rfl, rfl, fun h => ?_, fun h => ?_⟩
      hcontinues (sys.registry.authenticate_cancels ref session connection.limit) hfiled
  · exact h.holds_at hstage href rfl rfl hcontinues hsession' hopened
  · exact .inl ⟨by simp [hguard.1, Stage.isConfirmed], rfl⟩
  · exact h.holds_at hstage href rfl rfl hcontinues hsession' trivial
  · exact absurd h (by simp [Stage.isConfirmed])
  · exact h.later hcontinues
  · exact .inl ⟨h, rfl⟩

theorem commit_move : Move sys (sys.commit index) := by
  unfold System.commit
  split
  · exact .idle sys
  rename_i connection ref session hparty
  obtain ⟨hconnection, href, hsession⟩ := party_eq_some hparty
  split
  case isFalse => exact .idle sys
  rename_i hguard
  have hcontinues := Registry.commit_continues hsession hguard.2
  obtain ⟨session', hsession', hlater⟩ := hcontinues ref session hsession
  refine .proceed hconnection ⟨rfl, rfl, fun h => ?_, fun _ => .inl ⟨?_, rfl⟩⟩
    hcontinues rfl fun h _ => h.commit hsession hguard.2
  · exact h.holds_at (by simp [hguard.1]) href rfl rfl hcontinues hsession'
      (hlater.opened (by simp [Session.opened, hguard.2]))
  · simp [hguard.1, Stage.isConfirmed]

theorem close_move : Move sys (sys.close index) := by
  unfold System.close
  split
  · exact .idle sys
  rename_i connection ref session hparty
  obtain ⟨hconnection, href, hsession⟩ := party_eq_some hparty
  split
  case isFalse => exact .idle sys
  have hcontinues := sys.registry.drop_continues ref session
  refine .proceed hconnection ⟨rfl, rfl, fun h => ?_, fun h => by simp [Stage.isConfirmed] at h⟩
    hcontinues (sys.registry.drop_cancels ref session) fun h _ => h.drop hsession
  by_cases hstage : connection.stage = .resolved
  · simp only [Connection.Joined, hstage, href, reduceCtorEq] at h
  · exact h.holds_at hstage href rfl rfl hcontinues (Registry.drop_dropped _ hsession) rfl

theorem resolve_move (request : Request) (pending : Bool) :
    Move sys (sys.resolve request pending) := by
  unfold System.resolve
  split
  · exact .idle sys
  next target htarget =>
    exact .resolve rfl rfl (Request.resolve_revision htarget)

theorem fence_move (lifecycle : Lifecycle) : Move sys (sys.fence lifecycle) := by
  unfold System.fence
  split
  · exact .idle sys
  next store hstore =>
    exact .fence (Lifecycle.apply_advances hstore)

theorem collect_move : Move sys (sys.collect index) := by
  unfold System.collect
  split
  · exact .idle sys
  rename_i operation hoperation
  split
  next hguard =>
    exact .collect hoperation hguard.2
  · exact .idle sys

variable (registry)

/-- A turn of `cancel`'s loop flags the session it takes off the call. -/
theorem flag_serves : Serves registry (registry.flag index) := by
  unfold Registry.flag
  split
  · exact .of_cancels rfl
  rename_i call hcall
  split
  · exact .of_cancels rfl
  rename_i ref rest hremaining
  intro place other hother
  by_cases hplace : index = place
  swap
  · exact ⟨other, (List.getElem?_set_ne hplace).trans hother, fun _ h => .inl h⟩
  subst hplace
  obtain rfl := Option.some.inj (hcall.symm.trans hother)
  refine ⟨{ call with flagged := call.flagged + 1 }, ?_, fun found hfound => ?_⟩
  · exact getElem?_set_self_of hcall _
  have hrest : rest = ({ call with flagged := call.flagged + 1 } : CancelCall).remaining := by
    rw [CancelCall.remaining, ← List.drop_drop, ← CancelCall.remaining, hremaining]
    rfl
  rw [hremaining, List.mem_cons] at hfound
  rcases hfound with rfl | hfound
  · refine .inr fun session hsession => ?_
    rw [Registry.update_self] at hsession
    obtain ⟨before, -, rfl⟩ := Option.map_eq_some_iff.mp hsession
    rfl
  · exact .inl (hrest ▸ hfound)

theorem flag_move : Move sys (sys.flag index) := by
  unfold System.flag
  split
  · exact .idle sys
  · exact .serve (sys.registry.flag_continues _) (flag_serves _ _) fun h => h.flag _

theorem active_cancels (instanceId : String) :
    (registry.active instanceId).cancels = registry.cancels := by
  unfold Registry.active
  split <;> rfl

/-- **Every step of the system is a move.** -/
theorem step_move (action : Action) : Move sys (step hash sys action) := by
  cases action with
  | publish publication =>
    obtain ⟨instanceId, hadvances⟩ := publication.apply_advances hash sys.store
    exact .advance hadvances
  | fence lifecycle => exact fence_move sys lifecycle
  | collect operation => exact collect_move sys operation
  | flag operation => exact flag_move sys operation
  | active instanceId =>
    simp only [step]
    split
    · exact .idle sys
    · exact .serve (sys.registry.active_continues instanceId)
        (.of_cancels (active_cancels sys.registry instanceId)) fun h => h.active instanceId
  | resolve request pending => exact resolve_move sys request pending
  | draw connection => exact draw_move sys connection
  | insert connection => exact insert_move sys connection
  | check connection => exact check_move sys connection
  | authenticate connection => exact authenticate_move sys connection
  | commit connection => exact commit_move sys connection
  | close connection => exact close_move sys connection

variable {sys}

theorem Move.continues {sys' : System} (h : Move sys sys') :
    sys.registry.Continues sys'.registry := by
  cases h with
  | idle | advance | fence | resolve => exact .of_sessions rfl
  | proceed _ _ hcontinues | serve hcontinues => exact hcontinues
  | collect => exact sys.registry.collect_continues _

end DatabasesEverywhere.Gateway
