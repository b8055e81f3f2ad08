import DatabasesEverywhere.Foundations.Runs
import DatabasesEverywhere.Server.InstanceStore

/-!
# Server/Routes — what the route tables may say

The ten tables are read as one relation, `Routed state key id`: the entry under `key` names the
instance `id`.  Metadata yields at most one key of its own and, for Redis and Valkey, the digest of
its password.

    metadata ──routeKey──▸ key ──table──▸ instance id ──instances──▸ metadata

An operation changes one instance and leaves all others alone (`Changes`); from that alone the
tables are sound along every run, and complete as long as no two instances claim one key.
-/

open Foundations

namespace DatabasesEverywhere.Server

open InstanceState

/-! ## Keys -/

inductive RouteKey
  | postgres (username database : String)
  | mariadb (username database : String)
  | mysql (username database : String)
  | mongodb (username database : String)
  | clickhouse (username database : String)
  | qdrant (routeKeySha256 : String)
  | redis (username : String)
  | valkey (username : String)
  | redisPassword (passwordSha256 : String)
  | valkeyPassword (passwordSha256 : String)
  deriving DecidableEq

/-- The key an instance is looked up by. -/
def InstanceMetadata.routeKey (metadata : InstanceMetadata) : Option RouteKey :=
  match metadata.protocol with
  | .postgres => some (.postgres metadata.database.username metadata.database.name)
  | .mariadb => some (.mariadb metadata.database.username metadata.database.name)
  | .mysql => some (.mysql metadata.database.username metadata.database.name)
  | .mongodb => some (.mongodb metadata.database.username metadata.database.name)
  | .clickhouse => some (.clickhouse metadata.database.username metadata.database.name)
  | .qdrant => metadata.routeKeySha256.map .qdrant
  | .redis => some (.redis metadata.database.username)
  | .valkey => some (.valkey metadata.database.username)

/-- The key a client without a username is looked up by. -/
def InstanceMetadata.passwordRouteKey (hash : String → String) (metadata : InstanceMetadata) :
    Option RouteKey :=
  match metadata.protocol with
  | .redis => metadata.tenantPassword.map fun password => .redisPassword (hash password)
  | .valkey => metadata.tenantPassword.map fun password => .valkeyPassword (hash password)
  | _ => none

def InstanceMetadata.Yields (hash : String → String) (metadata : InstanceMetadata)
    (key : RouteKey) : Prop :=
  metadata.routeKey = some key ∨ metadata.passwordRouteKey hash = some key

variable {hash : String → String} {after : InstanceState}

namespace InstanceState

/-- The entry under a key names an instance. -/
def Routed (state : InstanceState) (key : RouteKey) (instanceId : String) : Prop :=
  match key with
  | .postgres username database => state.postgresRoutes.lookup (username, database) = some instanceId
  | .mariadb username database => state.mariadbRoutes.lookup (username, database) = some instanceId
  | .mysql username database => state.mysqlRoutes.lookup (username, database) = some instanceId
  | .mongodb username database => state.mongodbRoutes.lookup (username, database) = some instanceId
  | .clickhouse username database =>
    state.clickhouseRoutes.lookup (username, database) = some instanceId
  | .qdrant routeKeySha256 => state.qdrantRoutes.lookup routeKeySha256 = some instanceId
  | .redis username => state.redisRoutes.lookup username = some instanceId
  | .valkey username => state.valkeyRoutes.lookup username = some instanceId
  | .redisPassword sha256 =>
    ∃ ids, state.redisPasswordRoutes.lookup sha256 = some ids ∧ instanceId ∈ ids
  | .valkeyPassword sha256 =>
    ∃ ids, state.valkeyPasswordRoutes.lookup sha256 = some ids ∧ instanceId ∈ ids

/-! ## What the operations do to an entry -/

variable {other : String} {K : Type}

theorem lookup_retain_ne [DecidableEq K] {routes : Map K String} {key : K} {instanceId : String} :
    (routes.retain fun _ routed => routed != instanceId).lookup key = some other ↔
      routes.lookup key = some other ∧ other ≠ instanceId := by
  rw [Map.lookup_retain, Option.filter_eq_some_iff, bne_iff_ne]

variable {routes : PasswordRoutes} {key instanceId : String}

theorem mem_removePasswordRoute :
    (∃ ids, (removePasswordRoute routes instanceId).lookup key = some ids ∧ other ∈ ids) ↔
      (∃ ids, routes.lookup key = some ids ∧ other ∈ ids) ∧ other ≠ instanceId := by
  rw [removePasswordRoute, Map.lookup_filterMap]
  cases routes.lookup key with
  | none => simp
  | some ids =>
    by_cases hrest : ids.erase instanceId = ∅
    · have hother : ∀ x ∈ ids, x = instanceId := fun x hx => by
        by_contra hne
        exact absurd (Finset.mem_erase.mpr ⟨hne, hx⟩) (by simp [hrest])
      simpa [hrest] using hother other
    · simp [hrest, and_comm]

variable {state : InstanceState}

theorem routed_removeRoutesFor {key : RouteKey} :
    (state.removeRoutesFor instanceId).Routed key other ↔
      state.Routed key other ∧ other ≠ instanceId := by
  cases key <;> first | exact lookup_retain_ne | exact mem_removePasswordRoute

variable {password : Option String}

theorem mem_addPasswordRoute :
    (∃ ids, (addPasswordRoute hash routes password instanceId).lookup key = some ids ∧
        other ∈ ids) ↔
      (∃ secret, password = some secret ∧ hash secret = key) ∧ other = instanceId ∨
        ∃ ids, routes.lookup key = some ids ∧ other ∈ ids := by
  cases password with
  | none => simp [addPasswordRoute]
  | some password =>
    by_cases hkey : hash password = key
    · subst hkey
      cases hids : routes.lookup (hash password) <;> simp [addPasswordRoute, hids]
    · simp [addPasswordRoute, AList.lookup_insert_ne (Ne.symm hkey), hkey]

theorem lookup_insert_iff [DecidableEq K] {routes : Map K String} {key key' : K} :
    (routes.insert key' instanceId).lookup key = some other ↔
      key' = key ∧ other = instanceId ∨ key' ≠ key ∧ routes.lookup key = some other := by
  by_cases hkey : key' = key
  · subst hkey
    simp [AList.lookup_insert, eq_comm]
  · simp [AList.lookup_insert_ne (Ne.symm hkey), hkey]

variable {metadata : InstanceMetadata}

/-- **Publishing** enters the instance under its keys, in the place of whoever stood under the key
of its own, and leaves every other entry. -/
theorem routed_publishRoutes {key : RouteKey} :
    (state.publishRoutes hash metadata).Routed key other ↔
      metadata.Yields hash key ∧ other = metadata.instanceId ∨
        metadata.routeKey ≠ some key ∧ state.Routed key other := by
  unfold publishRoutes InstanceMetadata.Yields InstanceMetadata.routeKey
    InstanceMetadata.passwordRouteKey
  cases metadata.protocol with
  | qdrant =>
    cases metadata.routeKeySha256 <;> cases key <;> simp [Routed, lookup_insert_iff]
  | redis | valkey => cases key <;> simp [Routed, lookup_insert_iff, mem_addPasswordRoute]
  | _ => cases key <;> simp [Routed, lookup_insert_iff]

/-- No entry of a password table is empty. -/
def NoEmptyEntries (state : InstanceState) : Prop :=
  ∀ key ids, (state.redisPasswordRoutes.lookup key = some ids ∨
    state.valkeyPasswordRoutes.lookup key = some ids) → ids.Nonempty

variable {ids : Finset String}

theorem nonempty_of_removePasswordRoute
    (h : (removePasswordRoute routes instanceId).lookup key = some ids) : ids.Nonempty := by
  rw [removePasswordRoute, Map.lookup_filterMap] at h
  obtain ⟨old, -, h⟩ := Option.bind_eq_some_iff.mp h
  simp only [Option.ite_none_left_eq_some, Option.some.injEq] at h
  obtain ⟨hne, rfl⟩ := h
  exact Finset.nonempty_iff_ne_empty.mpr hne

theorem noEmptyEntries_removeRoutesFor (state : InstanceState) (instanceId : String) :
    (state.removeRoutesFor instanceId).NoEmptyEntries := by
  rintro key ids (h | h)
  · exact nonempty_of_removePasswordRoute h
  · exact nonempty_of_removePasswordRoute h

theorem nonempty_of_addPasswordRoute (hroutes : ∀ ids, routes.lookup key = some ids → ids.Nonempty)
    (h : (addPasswordRoute hash routes password instanceId).lookup key = some ids) :
    ids.Nonempty := by
  cases password with
  | none => exact hroutes ids h
  | some password =>
    rw [addPasswordRoute] at h
    by_cases hkey : key = hash password
    · subst hkey
      rw [AList.lookup_insert] at h
      obtain rfl := Option.some.inj h
      exact Finset.insert_nonempty _ _
    · rw [AList.lookup_insert_ne hkey] at h
      exact hroutes ids h

theorem NoEmptyEntries.publishRoutes (h : state.NoEmptyEntries) (metadata : InstanceMetadata) :
    (state.publishRoutes hash metadata).NoEmptyEntries := by
  have hredis := fun key ids hids => h key ids (.inl hids)
  have hvalkey := fun key ids hids => h key ids (.inr hids)
  unfold InstanceState.publishRoutes
  cases metadata.protocol with
  | redis => exact fun key ids => Or.rec (nonempty_of_addPasswordRoute (hredis key)) (hvalkey key ids)
  | valkey => exact fun key ids => Or.rec (hredis key ids) (nonempty_of_addPasswordRoute (hvalkey key))
  | qdrant => cases metadata.routeKeySha256 <;> exact h
  | _ => exact h

@[simp] theorem publishRoutes_instances (hash : String → String) (state : InstanceState)
    (metadata : InstanceMetadata) :
    (state.publishRoutes hash metadata).instances = state.instances := by
  unfold publishRoutes
  split <;> first | rfl | (split <;> rfl)

/-! ## One operation changes one instance -/

/-- What an operation on one instance does to the store. -/
structure Changes (hash : String → String) (state : InstanceState) (instanceId : String)
    (after : InstanceState) : Prop where
  instances : ∀ other, other ≠ instanceId →
    after.instances.lookup other = state.instances.lookup other
  fenced : ∀ other, other ≠ instanceId →
    (other ∈ after.fencedInstances ↔ other ∈ state.fencedInstances)
  pinned : ∀ other, other ≠ instanceId →
    (other ∈ after.pinnedFences ↔ other ∈ state.pinnedFences)
  /-- No other instance gains an entry. -/
  routed : ∀ key other, other ≠ instanceId → after.Routed key other → state.Routed key other
  /-- Another instance loses an entry only to the instance. -/
  kept : ∀ key other, other ≠ instanceId → state.Routed key other →
    (∀ metadata, after.instances.lookup instanceId = some metadata →
      metadata.routeKey ≠ some key) → after.Routed key other
  /-- The entries of the instance are those of its metadata, if it is open. -/
  own : ∀ key, after.Routed key instanceId ↔
    ∃ metadata, after.instances.lookup instanceId = some metadata ∧
      routeEligible metadata = true ∧ instanceId ∉ after.fencedInstances ∧
      metadata.Yields hash key
  identity : ∀ metadata, after.instances.lookup instanceId = some metadata →
    metadata.instanceId = instanceId ∨ state.instances.lookup instanceId = some metadata
  pin : instanceId ∈ after.pinnedFences → instanceId ∈ after.fencedInstances
  entries : after.NoEmptyEntries

theorem routed_cleared {key : RouteKey} :
    ((state.bumpRouteRevision instanceId).removeRoutesFor instanceId).Routed key other ↔
      state.Routed key other ∧ other ≠ instanceId := by
  rw [routed_removeRoutesFor]
  cases key <;> rfl

/-- The routes are gone and the instance is fenced, whatever metadata it carries. -/
theorem changes_of_fenced (hrouted : ∀ key other, after.Routed key other ↔
      ((state.bumpRouteRevision instanceId).removeRoutesFor instanceId).Routed key other)
    (hinstances : ∀ other, other ≠ instanceId →
      after.instances.lookup other = state.instances.lookup other)
    (hidentity : ∀ metadata, after.instances.lookup instanceId = some metadata →
      metadata.instanceId = instanceId ∨ state.instances.lookup instanceId = some metadata)
    (hfenced : after.fencedInstances = insert instanceId state.fencedInstances)
    (hpinned : ∀ other, other ≠ instanceId →
      (other ∈ after.pinnedFences ↔ other ∈ state.pinnedFences)) (hentries : after.NoEmptyEntries) :
    Changes hash state instanceId after where
  instances := hinstances
  fenced other hother := by simp [hfenced, hother]
  pinned := hpinned
  routed key other _ h := (routed_cleared.mp ((hrouted key other).mp h)).1
  kept key other hother h _ := (hrouted key other).mpr (routed_cleared.mpr ⟨h, hother⟩)
  own key := by
    refine iff_of_false (fun h => ?_) ?_
    · exact (routed_cleared.mp ((hrouted key instanceId).mp h)).2 rfl
    · rintro ⟨metadata, -, -, hopen, -⟩
      exact hopen (by simp [hfenced])
  identity := hidentity
  pin _ := by simp [hfenced]
  entries := hentries

variable (hash)

theorem upsertFenced_changes (state : InstanceState) (metadata : InstanceMetadata) :
    Changes hash state metadata.instanceId (state.upsertFenced metadata) := by
  refine changes_of_fenced (fun key other => ?_) (fun _ => AList.lookup_insert_ne)
    (fun stored h => ?_) rfl (fun _ _ => Iff.rfl) (noEmptyEntries_removeRoutesFor _ _)
  · cases key <;> rfl
  · rw [upsertFenced, AList.lookup_insert] at h
    exact .inl (by rw [← Option.some.inj h])

theorem fenceExisting_changes (h : state.fenceExisting instanceId = some after) :
    Changes hash state instanceId after := by
  simp only [fenceExisting, Option.ite_none_right_eq_some, Option.some.injEq] at h
  obtain ⟨-, rfl⟩ := h
  refine changes_of_fenced (fun key other => ?_) (fun _ _ => rfl) (fun stored h => .inr h) rfl
    (fun _ _ => Iff.rfl) (noEmptyEntries_removeRoutesFor _ _)
  cases key <;> rfl

theorem pinRoutesFenced_changes (h : state.pinRoutesFenced instanceId = some after) :
    Changes hash state instanceId after := by
  obtain ⟨fenced, hfenced, rfl⟩ := Option.map_eq_some_iff.mp h
  simp only [fenceExisting, Option.ite_none_right_eq_some, Option.some.injEq] at hfenced
  obtain ⟨-, rfl⟩ := hfenced
  refine changes_of_fenced (fun key other => ?_) (fun _ _ => rfl) (fun stored h => .inr h) rfl
    (fun other hother => ?_) (noEmptyEntries_removeRoutesFor _ _)
  · cases key <;> rfl
  · exact Finset.mem_insert.trans (or_iff_right hother)

theorem remove_changes (state : InstanceState) (instanceId : String) :
    Changes hash state instanceId (state.remove instanceId) where
  instances _ hother := AList.lookup_erase_ne hother
  fenced _ hother := Finset.mem_erase.trans (and_iff_right hother)
  pinned _ hother := Finset.mem_erase.trans (and_iff_right hother)
  routed key other hother h := by
    have hcleared : ((state.bumpRouteRevision instanceId).removeRoutesFor instanceId).Routed key
        other := by cases key <;> exact h
    exact (routed_cleared.mp hcleared).1
  kept key other hother h _ := by
    have hcleared := routed_cleared.mpr ⟨h, hother⟩
    cases key <;> exact hcleared
  own key := by
    refine iff_of_false (fun h => ?_) ?_
    · have hcleared : ((state.bumpRouteRevision instanceId).removeRoutesFor instanceId).Routed key
          instanceId := by cases key <;> exact h
      exact (routed_cleared.mp hcleared).2 rfl
    · rintro ⟨metadata, hstored, -⟩
      rw [remove, AList.lookup_erase] at hstored
      cases hstored
  identity metadata h := by
    rw [remove, AList.lookup_erase] at h
    cases h
  pin h := absurd h (by simp [remove])
  entries := noEmptyEntries_removeRoutesFor _ _

variable {hash}

/-- The store with the routes and the fence of an instance taken away. -/
def opened (state : InstanceState) (instanceId : String) : InstanceState :=
  let cleared := (state.bumpRouteRevision instanceId).removeRoutesFor instanceId
  { cleared with fencedInstances := cleared.fencedInstances.erase instanceId }

/-- An ordinary upsert of an instance that is not pinned. -/
def upsertOpen (hash : String → String) (state : InstanceState) (metadata : InstanceMetadata) :
    InstanceState :=
  let opened := state.opened metadata.instanceId
  let published := if routeEligible metadata then opened.publishRoutes hash metadata else opened
  { published with instances := published.instances.insert metadata.instanceId metadata }

theorem upsert_eq (hash : String → String) (state : InstanceState) (metadata : InstanceMetadata) :
    state.upsert hash metadata =
      if metadata.instanceId ∈ state.pinnedFences then state.upsertFenced metadata
      else state.upsertOpen hash metadata :=
  rfl

theorem routed_opened {key : RouteKey} :
    (state.opened instanceId).Routed key other ↔ state.Routed key other ∧ other ≠ instanceId := by
  rw [← routed_cleared]
  cases key <;> rfl

theorem routed_upsertOpen {key : RouteKey} :
    (state.upsertOpen hash metadata).Routed key other ↔
      routeEligible metadata = true ∧ metadata.Yields hash key ∧ other = metadata.instanceId ∨
      ¬ (routeEligible metadata = true ∧ metadata.routeKey = some key) ∧
        state.Routed key other ∧ other ≠ metadata.instanceId := by
  by_cases heligible : routeEligible metadata = true
  · have hafter : (state.upsertOpen hash metadata).Routed key other ↔
        ((state.opened metadata.instanceId).publishRoutes hash metadata).Routed key other := by
      rw [upsertOpen, if_pos heligible]
      cases key <;> rfl
    rw [hafter, routed_publishRoutes, routed_opened]
    simp [heligible]
  · have hafter : (state.upsertOpen hash metadata).Routed key other ↔
        (state.opened metadata.instanceId).Routed key other := by
      rw [upsertOpen, if_neg heligible]
      cases key <;> rfl
    rw [hafter, routed_opened]
    simp [heligible]

variable (hash) (state) (metadata)

theorem upsertOpen_fields :
    (state.upsertOpen hash metadata).instances =
        state.instances.insert metadata.instanceId metadata ∧
      (state.upsertOpen hash metadata).fencedInstances =
        state.fencedInstances.erase metadata.instanceId ∧
      (state.upsertOpen hash metadata).pinnedFences = state.pinnedFences := by
  unfold upsertOpen
  split
  · simp [opened, removeRoutesFor, bumpRouteRevision]
  · exact ⟨rfl, rfl, rfl⟩

theorem upsertOpen_entries : (state.upsertOpen hash metadata).NoEmptyEntries := by
  have hopened : (state.opened metadata.instanceId).NoEmptyEntries :=
    noEmptyEntries_removeRoutesFor (state.bumpRouteRevision metadata.instanceId) _
  unfold upsertOpen
  split
  · exact hopened.publishRoutes metadata
  · exact hopened

variable {metadata}

theorem upsertOpen_changes {state : InstanceState}
    (hpinned : metadata.instanceId ∉ state.pinnedFences) :
    Changes hash state metadata.instanceId (state.upsertOpen hash metadata) := by
  obtain ⟨hinstances, hfenced, hpins⟩ := upsertOpen_fields hash state metadata
  have hstored : (state.upsertOpen hash metadata).instances.lookup metadata.instanceId =
      some metadata := by rw [hinstances, AList.lookup_insert]
  constructor
  case instances => exact fun other hother => by rw [hinstances, AList.lookup_insert_ne hother]
  case fenced => exact fun other hother => by simp [hfenced, hother]
  case pinned => exact fun other hother => by rw [hpins]
  case routed =>
    intro key other hother h
    rcases routed_upsertOpen.mp h with ⟨-, -, rfl⟩ | ⟨-, hrouted, -⟩
    · exact absurd rfl hother
    · exact hrouted
  case kept =>
    intro key other hother hrouted hkey
    exact routed_upsertOpen.mpr (.inr ⟨fun h => hkey metadata hstored h.2, hrouted, hother⟩)
  case own =>
    intro key
    rw [routed_upsertOpen, hstored]
    simp [hfenced]
  case identity =>
    intro stored h
    rw [hstored] at h
    exact .inl (by rw [← Option.some.inj h])
  case pin => exact fun h => absurd (hpins ▸ h) hpinned
  case entries => exact upsertOpen_entries hash state metadata

variable (metadata)

theorem upsert_changes : Changes hash state metadata.instanceId (state.upsert hash metadata) := by
  rw [upsert_eq]
  split
  case isTrue => exact upsertFenced_changes hash state metadata
  case isFalse hpinned => exact upsertOpen_changes hash hpinned

theorem upsertPreservingFence_changes :
    Changes hash state metadata.instanceId (state.upsertPreservingFence hash metadata) := by
  simp only [upsertPreservingFence]
  split
  · exact upsert_changes hash state metadata
  · exact upsertFenced_changes hash state metadata

variable {metadata}

variable {state}

theorem Routed.unpinned {key : RouteKey} {pins : Finset String} :
    Routed { state with pinnedFences := pins } key other ↔ state.Routed key other := by
  cases key <;> rfl

theorem openRoutes_changes (state : InstanceState) (metadata : InstanceMetadata) :
    Changes hash state metadata.instanceId (state.openRoutes hash metadata) := by
  have h := upsert_changes hash
    { state with pinnedFences := state.pinnedFences.erase metadata.instanceId } metadata
  exact
    { h with
      pinned := fun other hother =>
        (h.pinned other hother).trans (Finset.mem_erase.trans (and_iff_right hother))
      routed := fun key other hother hrouted =>
        Routed.unpinned.mp (h.routed key other hother hrouted)
      kept := fun key other hother hrouted =>
        h.kept key other hother (Routed.unpinned.mpr hrouted) }

end InstanceState

/-! ## Runs of the store -/

/-- The operations that change the store. -/
inductive StoreOperation
  | upsert (metadata : InstanceMetadata)
  | upsertFenced (metadata : InstanceMetadata)
  | upsertPreservingFence (metadata : InstanceMetadata)
  | openRoutes (metadata : InstanceMetadata)
  | fenceRoutes (instanceId : String)
  | pinRoutesFenced (instanceId : String)
  | remove (instanceId : String)
  deriving DecidableEq

namespace StoreOperation

/-- A fence of an instance that is not there leaves the store alone. -/
def apply (hash : String → String) (state : InstanceState) : StoreOperation → InstanceState
  | upsert metadata => state.upsert hash metadata
  | upsertFenced metadata => state.upsertFenced metadata
  | upsertPreservingFence metadata => state.upsertPreservingFence hash metadata
  | openRoutes metadata => state.openRoutes hash metadata
  | fenceRoutes instanceId => (state.fenceRoutes instanceId).getD state
  | pinRoutesFenced instanceId => (state.pinRoutesFenced instanceId).getD state
  | remove instanceId => state.remove instanceId

/-- The instance an operation is about. -/
def instanceId : StoreOperation → String
  | upsert metadata | upsertFenced metadata | upsertPreservingFence metadata
  | openRoutes metadata => metadata.instanceId
  | fenceRoutes instanceId | pinRoutesFenced instanceId | remove instanceId => instanceId

/-- The operations that lift a pinned fence. -/
def Unpins (operation : StoreOperation) (instanceId : String) : Prop :=
  operation = remove instanceId ∨
    ∃ metadata, metadata.instanceId = instanceId ∧ operation = openRoutes metadata

theorem apply_changes (hash : String → String) (state : InstanceState)
    (operation : StoreOperation) :
    operation.apply hash state = state ∨
      InstanceState.Changes hash state operation.instanceId (operation.apply hash state) := by
  cases operation with
  | upsert metadata => exact .inr (upsert_changes hash state metadata)
  | upsertFenced metadata => exact .inr (upsertFenced_changes hash state metadata)
  | upsertPreservingFence metadata =>
    exact .inr (upsertPreservingFence_changes hash state metadata)
  | openRoutes metadata => exact .inr (openRoutes_changes hash state metadata)
  | fenceRoutes id =>
    cases hafter : state.fenceRoutes id with
    | none => exact .inl (by rw [apply, hafter, Option.getD_none])
    | some after =>
      rw [apply, hafter, Option.getD_some]
      exact .inr (fenceExisting_changes hash hafter)
  | pinRoutesFenced id =>
    cases hafter : state.pinRoutesFenced id with
    | none => exact .inl (by rw [apply, hafter, Option.getD_none])
    | some after =>
      rw [apply, hafter, Option.getD_some]
      exact .inr (pinRoutesFenced_changes hash hafter)
  | remove id => exact .inr (remove_changes hash state id)

/-- A pinned fence is lifted by no other operation. -/
theorem apply_unpins {state : InstanceState} {operation : StoreOperation}
    {instanceId : String} (hpinned : instanceId ∈ state.pinnedFences)
    (hafter : instanceId ∉ (operation.apply hash state).pinnedFences) :
    operation.Unpins instanceId := by
  have hupsert : ∀ metadata, (state.upsert hash metadata).pinnedFences = state.pinnedFences := by
    intro metadata
    rw [upsert_eq]
    split
    · rfl
    · exact (upsertOpen_fields hash state metadata).2.2
  cases operation with
  | upsert metadata => exact absurd (by rwa [apply, hupsert]) hafter
  | upsertFenced metadata => exact absurd hpinned hafter
  | upsertPreservingFence metadata =>
    refine absurd ?_ hafter
    simp only [apply, InstanceState.upsertPreservingFence]
    split
    · rwa [hupsert]
    · exact hpinned
  | openRoutes metadata =>
    by_cases hid : metadata.instanceId = instanceId
    · exact .inr ⟨metadata, hid, rfl⟩
    · have hchanges := openRoutes_changes hash state metadata
      exact absurd ((hchanges.pinned instanceId (Ne.symm hid)).mpr hpinned) hafter
  | fenceRoutes id =>
    refine absurd ?_ hafter
    simp only [apply, InstanceState.fenceRoutes, InstanceState.fenceExisting]
    split <;> exact hpinned
  | pinRoutesFenced id =>
    refine absurd ?_ hafter
    simp only [apply, InstanceState.pinRoutesFenced, InstanceState.fenceExisting]
    split
    · exact Finset.mem_insert_of_mem hpinned
    · exact hpinned
  | remove id =>
    by_cases hid : id = instanceId
    · exact .inl (by rw [hid])
    · have hchanges := remove_changes hash state id
      exact absurd ((hchanges.pinned instanceId (Ne.symm hid)).mpr hpinned) hafter

end StoreOperation

namespace InstanceState

/-- Everything the tables say is true of the instances they name. -/
structure Sound (hash : String → String) (state : InstanceState) : Prop where
  routed : ∀ key instanceId, state.Routed key instanceId →
    ∃ metadata, state.instances.lookup instanceId = some metadata ∧
      routeEligible metadata = true ∧ instanceId ∉ state.fencedInstances ∧
      metadata.Yields hash key
  entries : state.NoEmptyEntries
  pinned : state.pinnedFences ⊆ state.fencedInstances
  identity : ∀ instanceId metadata, state.instances.lookup instanceId = some metadata →
    metadata.instanceId = instanceId

variable (state : InstanceState)

/-- Every instance that may be reached stands under its key. -/
def Complete : Prop :=
  ∀ instanceId metadata key, state.instances.lookup instanceId = some metadata →
    routeEligible metadata = true → instanceId ∉ state.fencedInstances →
    metadata.routeKey = some key → state.Routed key instanceId

/-- No two stored instances have one route key. -/
def DistinctKeys : Prop :=
  ∀ first second metadata metadata' key, first ≠ second →
    state.instances.lookup first = some metadata → state.instances.lookup second = some metadata' →
    metadata.routeKey = some key → metadata'.routeKey ≠ some key

variable {state} {instanceId : String}

theorem Changes.sound
    (h : Changes hash state instanceId after) (hsound : state.Sound hash) : after.Sound hash where
  routed key other hrouted := by
    by_cases hother : other = instanceId
    · subst hother
      exact (h.own key).mp hrouted
    · rw [h.instances other hother, h.fenced other hother]
      exact hsound.routed key other (h.routed key other hother hrouted)
  entries := h.entries
  pinned other hpinned := by
    by_cases hother : other = instanceId
    · subst hother
      exact h.pin hpinned
    · exact (h.fenced other hother).mpr (hsound.pinned ((h.pinned other hother).mp hpinned))
  identity other metadata hstored := by
    by_cases hother : other = instanceId
    · subst hother
      exact (h.identity metadata hstored).elim id (hsound.identity other metadata)
    · exact hsound.identity other metadata ((h.instances other hother).symm.trans hstored)

/-- The instance operated on may push out an entry, but only one it shares the key of. -/
theorem Changes.complete (h : Changes hash state instanceId after) (hkeys : after.DistinctKeys)
    (hcomplete : state.Complete) : after.Complete := by
  intro other metadata key hstored heligible hopen hkey
  by_cases hother : other = instanceId
  · subst hother
    exact (h.own key).mpr ⟨metadata, hstored, heligible, hopen, .inl hkey⟩
  · refine h.kept key other hother ?_ fun own hown => ?_
    · exact hcomplete other metadata key ((h.instances other hother).symm.trans hstored) heligible
        (fun hfenced => hopen ((h.fenced other hother).mpr hfenced)) hkey
    · exact hkeys other instanceId metadata own key hother hstored hown hkey

theorem sound_empty (hash : String → String) : Sound hash {} where
  routed key instanceId h := by
    cases key <;> exact absurd h (by simp [Routed])
  entries := fun key ids h => by rcases h with h | h <;> cases h
  pinned := Finset.empty_subset _
  identity instanceId metadata h := by cases h

theorem complete_empty : Complete {} := by
  intro instanceId metadata key h
  cases h

end InstanceState

/-- The store after a run of operations. -/
def storeAfter (hash : String → String) (operations : List StoreOperation) : InstanceState :=
  run (StoreOperation.apply hash) {} operations

/-- At no point of the run do two stored instances have one route key. -/
def NeverShareKeys (hash : String → String) (operations : List StoreOperation) : Prop :=
  ∀ earlier, earlier <+: operations → (storeAfter hash earlier).DistinctKeys

variable (hash : String → String) (operations : List StoreOperation)

theorem storeAfter_concat (operation : StoreOperation) :
    storeAfter hash (operations ++ [operation]) =
      operation.apply hash (storeAfter hash operations) :=
  run_append _ _ _ _

theorem storeAfter_sound : (storeAfter hash operations).Sound hash := by
  refine run_invariant (fun state operation hsound => ?_) operations
    (sound_empty hash)
  rcases operation.apply_changes hash state with hsame | hchanges
  · rwa [hsame]
  · exact hchanges.sound hsound

theorem storeAfter_complete :
    NeverShareKeys hash operations → (storeAfter hash operations).Complete := by
  induction operations using List.reverseRecOn with
  | nil => exact fun _ => complete_empty
  | append_singleton operations operation ih =>
    intro hkeys
    have hcomplete := ih fun earlier hearlier => hkeys earlier (hearlier.trans (by simp))
    have hafter := hkeys _ List.prefix_rfl
    rw [storeAfter_concat] at hafter ⊢
    rcases operation.apply_changes hash (storeAfter hash operations) with hsame | hchanges
    · rwa [hsame]
    · exact hchanges.complete hafter hcomplete

/-! ## Found by the resolver -/

namespace InstanceState

/-- The resolver of its protocol leads from the key of the metadata to the instance. -/
def Finds (state : InstanceState) (metadata : InstanceMetadata) : Prop :=
  let username := metadata.database.username
  let database := metadata.database.name
  let target := state.routeTarget metadata.instanceId metadata
  match metadata.protocol with
  | .postgres => state.resolvePostgres username (some database) = .found database target
  | .clickhouse => state.resolveClickhouse username (some database) = .found database target
  | .mariadb => ∃ found, state.resolveMariadb username (some database) = .found database found ∧
      found.toRouteTarget = target
  | .mysql => ∃ found, state.resolveMysql username (some database) = .found database found ∧
      found.toRouteTarget = target
  | .mongodb => state.resolveMongodb username database = some target
  | .redis => state.resolveRedis username = some target
  | .valkey => state.resolveValkey username = some target
  | .qdrant => ∀ sha256, metadata.routeKeySha256 = some sha256 →
      state.resolveQdrant sha256 = some target

variable {metadata : InstanceMetadata} {state : InstanceState}

theorem resolveDatabaseTarget_of_routed {T : Type} {routes : DatabaseRoutes}
    {username database instanceId : String} (hname : database ≠ "")
    (hrouted : routes.lookup (username, database) = some instanceId)
    (hstored : state.instances.lookup instanceId = some metadata)
    (buildTarget : String → InstanceMetadata → T) :
    state.resolveDatabaseTarget routes username (some database) buildTarget =
      .found database (buildTarget instanceId metadata) := by
  have hfilter : (some database).filter (fun database => !database.isEmpty) = some database :=
    Option.filter_some_pos (by simpa using hname)
  simp only [resolveDatabaseTarget, resolveDatabaseRoute, hfilter, hrouted, hstored]

theorem finds_of_routed (hname : metadata.database.name ≠ "")
    (hstored : state.instances.lookup metadata.instanceId = some metadata)
    (hrouted : ∀ key, metadata.routeKey = some key → state.Routed key metadata.instanceId) :
    state.Finds metadata := by
  unfold Finds InstanceMetadata.routeKey at *
  have htarget : state.routeTargetFor metadata.instanceId =
      some (state.routeTarget metadata.instanceId metadata) := by
    rw [routeTargetFor, hstored, Option.map_some]
  cases hprotocol : metadata.protocol <;> simp only [hprotocol] at hrouted ⊢
  case postgres => exact resolveDatabaseTarget_of_routed hname (hrouted _ rfl) hstored _
  case clickhouse => exact resolveDatabaseTarget_of_routed hname (hrouted _ rfl) hstored _
  case mariadb => exact ⟨_, resolveDatabaseTarget_of_routed hname (hrouted _ rfl) hstored _, rfl⟩
  case mysql => exact ⟨_, resolveDatabaseTarget_of_routed hname (hrouted _ rfl) hstored _, rfl⟩
  case mongodb =>
    have hentry : state.mongodbRoutes.lookup _ = _ := hrouted _ rfl
    simp [resolveMongodb, hentry, htarget]
  case redis =>
    have hentry : state.redisRoutes.lookup _ = _ := hrouted _ rfl
    simp [resolveRedis, hentry, htarget]
  case valkey =>
    have hentry : state.valkeyRoutes.lookup _ = _ := hrouted _ rfl
    simp [resolveValkey, hentry, htarget]
  case qdrant =>
    intro sha256 hsha
    have hentry : state.qdrantRoutes.lookup sha256 = _ := hrouted (.qdrant sha256) (by simp [hsha])
    simp [resolveQdrant, hentry, htarget]

end InstanceState

/-- **The route tables are sound along every run**, and complete along every run in which no two
stored instances ever have one route key. -/
theorem storeAfter_routes (hash : String → String) (operations : List StoreOperation) :
    let state := storeAfter hash operations
    (∀ key instanceId, state.Routed key instanceId →
      ∃ metadata, state.instances.lookup instanceId = some metadata ∧
        routeEligible metadata = true ∧ instanceId ∉ state.fencedInstances ∧
        metadata.Yields hash key) ∧
    state.NoEmptyEntries ∧
    state.pinnedFences ⊆ state.fencedInstances ∧
    (∀ (operation : StoreOperation) instanceId, instanceId ∈ state.pinnedFences →
      instanceId ∉ (operation.apply hash state).pinnedFences → operation.Unpins instanceId) ∧
    (NeverShareKeys hash operations → ∀ instanceId metadata,
      state.instances.lookup instanceId = some metadata → routeEligible metadata = true →
      instanceId ∉ state.fencedInstances → metadata.database.name ≠ "" →
      metadata.instanceId = instanceId ∧ state.Finds metadata) := by
  have hsound := storeAfter_sound hash operations
  refine ⟨hsound.routed, hsound.entries, hsound.pinned,
    fun _ _ => StoreOperation.apply_unpins, fun hkeys instanceId metadata hstored heligible hopen
      hname => ?_⟩
  obtain rfl := hsound.identity instanceId metadata hstored
  exact ⟨rfl, InstanceState.finds_of_routed hname hstored fun key =>
    storeAfter_complete hash operations hkeys _ metadata key hstored heligible hopen⟩

def exampleTenant : InstanceMetadata where
  instanceId := "tenant"
  deploymentMode := .shared
  protocol := .redis
  status := .running
  desiredState := .running
  diskLimitBlocked := false
  backend := .dockerTcp "10.0.0.2" 6379
  database := { name := "db", username := "user" }
  routeKeySha256 := none
  mariadbNativePasswordSha1Stage2 := none
  mysqlNativePasswordSha1Stage2 := none
  tenantPassword := some "secret"
  memoryMib := 512
  createdAt := "2026-09-06T12:00:00Z"

def otherTenant : InstanceMetadata :=
  { exampleTenant with
    instanceId := "other"
    database := { name := "db", username := "other" }
    tenantPassword := some "hidden" }

/-- Both are stored, then one is pinned. -/
def exampleRun : List StoreOperation :=
  [.upsert exampleTenant, .upsert otherTenant, .pinRoutesFenced "other"]

theorem exampleRun_neverShareKeys : NeverShareKeys id exampleRun := by
  have hentries : ∀ earlier ∈ exampleRun.inits,
      ∀ first ∈ (storeAfter id earlier).instances.entries,
      ∀ second ∈ (storeAfter id earlier).instances.entries, first.1 ≠ second.1 →
        first.2.routeKey ≠ second.2.routeKey := by decide +kernel
  intro earlier hearlier first second metadata metadata' key hne hfirst hsecond hkey hkey'
  exact hentries earlier (List.mem_inits _ _ |>.mpr hearlier) ⟨first, metadata⟩
    (AList.mem_lookup_iff.mp hfirst) ⟨second, metadata'⟩ (AList.mem_lookup_iff.mp hsecond) hne
    (hkey.trans hkey'.symm)

/-- Of two tenants the one is found under its username, and the pinned one stays pinned until it is
removed. -/
theorem exampleRun_routes :
    (storeAfter id exampleRun).Finds exampleTenant ∧
      (∃ metadata, (storeAfter id exampleRun).instances.lookup "tenant" = some metadata ∧
        metadata.Yields id (.redisPassword "secret")) ∧
      StoreOperation.Unpins (.remove "other") "other" := by
  obtain ⟨hrouted, -, -, hunpins, hfinds⟩ := storeAfter_routes id exampleRun
  refine ⟨(hfinds exampleRun_neverShareKeys "tenant" exampleTenant ?_ ?_ ?_ ?_).2, ?_,
    hunpins (.remove "other") "other" ?_ ?_⟩
  · rfl
  · decide
  · decide +kernel
  · decide
  · obtain ⟨metadata, hstored, -, -, hyields⟩ :=
      hrouted (.redisPassword "secret") "tenant" ⟨{"tenant"}, by decide +kernel, by decide⟩
    exact ⟨metadata, hstored, hyields⟩
  · decide +kernel
  · decide +kernel

end DatabasesEverywhere.Server
