import DatabasesEverywhere.Gateway.Connections

/-!
# Gateway/Fencing — what a lifecycle operation leaves behind

Whatever the interleaving, a connection and an operation on its instance see one another: a session
filed before the operation's collect is flagged by it, and one filed after it meets a route revision
that has moved on.

    filed ──▸ collect           the operation finds the session
    collect ──▸ filed ──▸ check     the fence came first, and the check fails

Both counters are 64-bit machine words, and the argument needs them not to come around: the last
section runs each of them through zero and ends with a session that nothing stops.
-/

open Foundations DatabasesEverywhere.Server

namespace DatabasesEverywhere.Gateway

/-! ## Revisions that have moved on -/

/-- The revision lies below whatever the instance carries, now and later. -/
def Outdated (store : InstanceState) (instanceId : String) (revision : ℕ) : Prop :=
  revision ≤ store.nextRouteRevision ∧
    ∀ current, store.routeRevisions.lookup instanceId = some current → revision < current

variable {store : InstanceState} {instanceId : String} {revision : ℕ}

theorem Outdated.not_current (h : Outdated store instanceId revision) :
    store.routeIsCurrent instanceId revision = false := by
  by_contra hcurrent
  simp only [InstanceState.routeIsCurrent, Bool.not_eq_false, Bool.and_eq_true,
    decide_eq_true_eq] at hcurrent
  exact absurd (h.2 revision hcurrent.2) (Nat.lt_irrefl _)

/-- A counter that has not come around has moved on by one. -/
theorem nextRevision_eq (h : revision ≤ nextRevision revision) :
    nextRevision revision = revision + 1 := by
  unfold nextRevision at h ⊢
  omega

variable {store' : InstanceState}

/-- A revision seen before an operation on its instance is outdated after it. -/
theorem Outdated.of_advances (hadvances : store.Advances instanceId store')
    (hwrap : store.nextRouteRevision ≤ store'.nextRouteRevision)
    (hseen : revision ≤ store.nextRouteRevision) : Outdated store' instanceId revision := by
  have hcounter := hadvances.counter
  have hnext := nextRevision_eq (hcounter ▸ hwrap)
  refine ⟨Nat.le_trans hseen hwrap, fun current hcurrent => ?_⟩
  rw [hadvances.own current hcurrent]
  omega

theorem Outdated.advances {other : String} (h : Outdated store instanceId revision)
    (hadvances : store.Advances other store')
    (hwrap : store.nextRouteRevision ≤ store'.nextRouteRevision) :
    Outdated store' instanceId revision := by
  by_cases hsame : instanceId = other
  · subst hsame
    exact .of_advances hadvances hwrap h.1
  · exact ⟨Nat.le_trans h.1 hwrap, fun current hcurrent =>
      h.2 current (hadvances.others instanceId hsame ▸ hcurrent)⟩

variable {sys sys' : System}

theorem Outdated.move (h : Outdated sys.store instanceId revision) (hmove : Move sys sys')
    (hwrap : sys.store.nextRouteRevision ≤ sys'.store.nextRouteRevision) :
    Outdated sys'.store instanceId revision := by
  cases hmove with
  | advance hadvances | fence hadvances => exact h.advances hadvances hwrap
  | idle | resolve | proceed | serve | collect => exact h

/-! ## The invariant -/

/-- The connection was looked up before the operation fenced its instance. -/
structure Precedes (connections : List Connection) (operation : Operation) (index : ℕ)
    (connection : Connection) : Prop where
  found : connections[index]? = some connection
  before : index < operation.resolvedBefore
  sameInstance : connection.instanceId = operation.instanceId

/-- The session is flagged or gone, or this call will flag it. -/
def Caught (registry : Registry) (call : CancelCall) (connection : Connection) : Prop :=
  ∃ ref session, connection.session = some ref ∧ registry.sessions[ref]? = some session ∧
    (session.cancelled = true ∨ session.phase = .dropped ∨ ref ∈ call.remaining)

structure Sound (sys : System) : Prop where
  bounded : ∀ instanceId revision, sys.store.routeRevisions.lookup instanceId = some revision →
    revision ≤ sys.store.nextRouteRevision
  seen : ∀ (index : ℕ) connection, sys.connections[index]? = some connection →
    connection.revision ≤ sys.store.nextRouteRevision
  filed : sys.registry.Filed
  joined : ∀ (index : ℕ) connection, sys.connections[index]? = some connection →
    connection.Joined sys.registry
  counted : ∀ operation ∈ sys.operations, operation.resolvedBefore ≤ sys.connections.length
  outdated : ∀ operation ∈ sys.operations, ∀ index connection,
    Precedes sys.connections operation index connection →
    Outdated sys.store connection.instanceId connection.revision
  caught : ∀ operation ∈ sys.operations, ∀ place, operation.cancel = some place →
    ∃ call, sys.registry.cancels[place]? = some call ∧
      ∀ index connection, Precedes sys.connections operation index connection →
        connection.stage.isConfirmed = true → Caught sys.registry call connection

theorem sound_initial : Sound {} :=
  ⟨nofun, nofun, Registry.filed_empty, nofun, nofun, nofun, nofun⟩

variable {registry : Registry} {connection connection' : Connection}

/-- A caught session stays caught. -/
theorem Caught.later {later : Registry} {call call' : CancelCall}
    (h : Caught registry call connection) (hcontinues : registry.Continues later)
    (hsame : connection'.session = connection.session)
    (hcall : ∀ ref ∈ call.remaining, ref ∈ call'.remaining ∨
      ∀ session, later.sessions[ref]? = some session → session.cancelled = true) :
    Caught later call' connection' := by
  obtain ⟨ref, session, href, hsession, hcaught⟩ := h
  obtain ⟨session', hsession', hlater⟩ := hcontinues ref session hsession
  refine ⟨ref, session', hsame.trans href, hsession', ?_⟩
  rcases hcaught with hcancelled | hdropped | hremaining
  · exact .inl (hlater.cancelled hcancelled)
  · exact .inr (.inl (hlater.dropped hdropped))
  · rcases hcall ref hremaining with hremaining | hflagged
    · exact .inr (.inr hremaining)
    · exact .inl (hflagged session' hsession')

variable {found : Connection} {operation : Operation} {index : ℕ}

section Fenced

variable (h : Sound sys)
include h

theorem Sound.routeRevision_le (instanceId : String) :
    sys.store.routeRevision instanceId ≤ sys.store.nextRouteRevision := by
  unfold InstanceState.routeRevision
  cases hrevision : sys.store.routeRevisions.lookup instanceId with
  | none => exact Nat.zero_le _
  | some revision => exact h.bounded instanceId revision hrevision

/-! ### One lemma for each kind of move -/

section Advances

variable (hadvances : sys.store.Advances instanceId store)
  (hwrap : sys.store.nextRouteRevision ≤ store.nextRouteRevision)
include hadvances hwrap

theorem Sound.advance : Sound { sys with store } where
  bounded other revision hrevision := by
    by_cases hsame : other = instanceId
    · subst hsame
      rw [hadvances.own revision hrevision]
    · exact Nat.le_trans (h.bounded other revision (hadvances.others other hsame ▸ hrevision)) hwrap
  seen index connection hfound := Nat.le_trans (h.seen index connection hfound) hwrap
  filed := h.filed
  joined := h.joined
  counted := h.counted
  outdated operation hoperation index connection hprecedes :=
    (h.outdated operation hoperation index connection hprecedes).advances hadvances hwrap
  caught := h.caught

/-- The new operation outdates every revision handed out for its instance so far. -/
theorem Sound.fence :
    Sound
      { sys with
        store
        operations := sys.operations ++ [⟨instanceId, sys.connections.length, none⟩] } := by
  have hadvanced := h.advance hadvances hwrap
  refine ⟨hadvanced.bounded, hadvanced.seen, h.filed, h.joined,
    List.forall_mem_append.mpr ⟨h.counted, List.forall_mem_singleton.mpr (Nat.le_refl _)⟩,
    List.forall_mem_append.mpr ⟨hadvanced.outdated, List.forall_mem_singleton.mpr ?_⟩,
    List.forall_mem_append.mpr ⟨h.caught, List.forall_mem_singleton.mpr nofun⟩⟩
  intro index connection hprecedes
  rw [hprecedes.sameInstance]
  exact .of_advances hadvances hwrap (h.seen index connection hprecedes.found)

end Advances

/-- A connection that comes now precedes none of the operations there are. -/
theorem Sound.precedes_of_resolve (hoperation : operation ∈ sys.operations)
    (hprecedes : Precedes (sys.connections ++ [connection]) operation index found) :
    Precedes sys.connections operation index found := by
  refine ⟨?_, hprecedes.before, hprecedes.sameInstance⟩
  have hlt : index < sys.connections.length :=
    Nat.lt_of_lt_of_le hprecedes.before (h.counted operation hoperation)
  exact (List.getElem?_append_left hlt).symm.trans hprecedes.found

theorem Sound.resolve (hstage : connection.stage = .resolved) (hsession : connection.session = none)
    (hrevision : ∃ instanceId, connection.revision = sys.store.routeRevision instanceId) :
    Sound { sys with connections := sys.connections ++ [connection] } where
  bounded := h.bounded
  seen index found hfound := by
    rcases getElem?_concat_eq_some.mp hfound with hold | ⟨-, rfl⟩
    · exact h.seen index found hold
    · obtain ⟨instanceId, hrevision⟩ := hrevision
      rw [hrevision]
      exact h.routeRevision_le instanceId
  filed := h.filed
  joined index found hfound := by
    rcases getElem?_concat_eq_some.mp hfound with hold | ⟨-, rfl⟩
    · exact h.joined index found hold
    · simp only [Connection.Joined, hstage]
      exact hsession
  counted operation hoperation := by
    simpa using Nat.le_succ_of_le (h.counted operation hoperation)
  outdated operation hoperation index found hprecedes :=
    h.outdated operation hoperation index found (h.precedes_of_resolve hoperation hprecedes)
  caught operation hoperation place hplace := by
    obtain ⟨call, hcall, hcaught⟩ := h.caught operation hoperation place hplace
    exact ⟨call, hcall, fun index found hprecedes =>
      hcaught index found (h.precedes_of_resolve hoperation hprecedes)⟩

end Fenced

theorem getElem?_proceed {place : ℕ}
    (h : (sys.proceed index connection registry).connections[place]? = some found) :
    place = index ∧ found = connection ∨ sys.connections[place]? = some found := by
  simp only [System.proceed, List.getElem?_set] at h
  split at h
  next hplace =>
    split at h
    · exact .inl ⟨hplace.symm, (Option.some.inj h).symm⟩
    · exact absurd h (by simp)
  · exact .inr h

theorem Sound.proceed (h : Sound sys) (hconnection : sys.connections[index]? = some connection)
    (hproceeds : Proceeds sys registry connection connection')
    (hcontinues : sys.registry.Continues registry)
    (hcancels : registry.cancels = sys.registry.cancels) (hfiled : registry.Filed) :
    Sound (sys.proceed index connection' registry) where
  bounded := h.bounded
  seen place found hfound := by
    rcases getElem?_proceed hfound with ⟨-, rfl⟩ | hold
    · rw [hproceeds.sameRevision]
      exact h.seen index connection hconnection
    · exact h.seen place found hold
  filed := hfiled
  joined place found hfound := by
    rcases getElem?_proceed hfound with ⟨-, rfl⟩ | hold
    · exact hproceeds.joined (h.joined index connection hconnection)
    · exact (h.joined place found hold).later hcontinues
  counted operation hoperation := by
    simpa [System.proceed] using h.counted operation hoperation
  outdated operation hoperation place found hprecedes := by
    rcases getElem?_proceed hprecedes.found with ⟨rfl, rfl⟩ | hold
    · rw [hproceeds.sameInstance, hproceeds.sameRevision]
      exact h.outdated operation hoperation place connection
        ⟨hconnection, hprecedes.before, hproceeds.sameInstance ▸ hprecedes.sameInstance⟩
    · exact h.outdated operation hoperation place found
        ⟨hold, hprecedes.before, hprecedes.sameInstance⟩
  caught operation hoperation place hplace := by
    obtain ⟨call, hcall, hcaught⟩ := h.caught operation hoperation place hplace
    refine ⟨call, (congrArg (·[place]?) hcancels).trans hcall, fun other found hprecedes hstage => ?_⟩
    rcases getElem?_proceed hprecedes.found with ⟨rfl, rfl⟩ | hold
    · have hbefore : Precedes sys.connections operation other connection :=
        ⟨hconnection, hprecedes.before, hproceeds.sameInstance ▸ hprecedes.sameInstance⟩
      -- the route is outdated, so the connection was confirmed before already
      rcases hproceeds.confirmed hstage with ⟨hconfirmed, hsame⟩ | hcurrent
      · exact (hcaught other connection hbefore hconfirmed).later hcontinues hsame
          fun _ href => .inl href
      · have := (h.outdated operation hoperation other connection hbefore).not_current
        exact absurd (this.symm.trans hcurrent) (by simp)
    · exact (hcaught other found ⟨hold, hprecedes.before, hprecedes.sameInstance⟩ hstage).later
        hcontinues rfl fun _ href => .inl href

theorem Sound.serve (h : Sound sys) (hcontinues : sys.registry.Continues registry)
    (hserves : Serves sys.registry registry) (hfiled : registry.Filed) :
    Sound { sys with registry } where
  bounded := h.bounded
  seen := h.seen
  filed := hfiled
  joined index connection hfound := (h.joined index connection hfound).later hcontinues
  counted := h.counted
  outdated := h.outdated
  caught operation hoperation place hplace := by
    obtain ⟨call, hcall, hcaught⟩ := h.caught operation hoperation place hplace
    obtain ⟨call', hcall', hremaining⟩ := hserves place call hcall
    exact ⟨call', hcall', fun index connection hprecedes hstage =>
      (hcaught index connection hprecedes hstage).later hcontinues rfl hremaining⟩

theorem Registry.collect_cancels (registry : Registry) (instanceId : String) :
    ∃ call, (registry.collect instanceId).cancels = registry.cancels ++ [call] := by
  unfold Registry.collect
  split <;> exact ⟨_, rfl⟩

theorem collect_serves (registry : Registry) (instanceId : String) :
    Serves registry (registry.collect instanceId) := by
  obtain ⟨call, hcancels⟩ := registry.collect_cancels instanceId
  intro place other hother
  exact ⟨other, by rw [hcancels]; exact getElem?_concat_eq_some.mpr (.inl hother),
    fun _ href => .inl href⟩

variable {session : Session}

theorem live_of_opened (hopened : session.opened = true) :
    session.live = true ∨ session.phase = .dropped := by
  cases hphase : session.phase <;> simp_all [Session.opened, Session.live]

theorem Sound.collect (h : Sound sys) (hoperation : sys.operations[index]? = some operation) :
    Sound
      { sys with
        registry := sys.registry.collect operation.instanceId
        operations := sys.operations.set index
          { operation with cancel := some sys.registry.cancels.length } } := by
  have hserved := h.serve (sys.registry.collect_continues operation.instanceId)
    (collect_serves sys.registry operation.instanceId) (h.filed.collect operation.instanceId)
  have hmember := List.mem_of_getElem? hoperation
  refine ⟨h.bounded, h.seen, hserved.filed, hserved.joined, ?_, ?_, ?_⟩
  · intro other hother
    rcases List.mem_or_eq_of_mem_set hother with hold | rfl
    · exact h.counted other hold
    · exact h.counted operation hmember
  · intro other hother place connection hprecedes
    rcases List.mem_or_eq_of_mem_set hother with hold | rfl
    · exact h.outdated other hold place connection hprecedes
    · exact h.outdated operation hmember place connection
        ⟨hprecedes.found, hprecedes.before, hprecedes.sameInstance⟩
  · intro other hother place hplace
    rcases List.mem_or_eq_of_mem_set hother with hold | rfl
    · exact hserved.caught other hold place hplace
    obtain rfl := Option.some.inj hplace
    obtain ⟨call, hcancels⟩ := sys.registry.collect_cancels operation.instanceId
    refine ⟨call, ?_, fun place connection hprecedes hstage => ?_⟩
    · rw [hcancels]
      exact getElem?_concat_eq_some.mpr (.inr ⟨rfl, rfl⟩)
    -- a confirmed connection has a session: live ones are collected, and no other is left
    obtain ⟨ref, session, href, hsession, hinstance, hopened⟩ :
        connection.Holds sys.registry fun session => session.opened = true := by
      have hjoined := h.joined place connection hprecedes.found
      revert hjoined hstage
      cases hstage' : connection.stage <;>
        simp [Stage.isConfirmed, Connection.Joined, hstage']
    obtain ⟨session', hsession', hlater⟩ :=
      sys.registry.collect_continues operation.instanceId ref session hsession
    refine ⟨ref, session', href, hsession', .inr ?_⟩
    rcases live_of_opened hopened with hlive | hdropped
    · obtain ⟨call', hcancels', hremaining⟩ := h.filed.mem_collect hsession hlive
      rw [hinstance, hprecedes.sameInstance, hcancels] at hcancels'
      obtain rfl := List.singleton_inj.mp (List.append_cancel_left hcancels')
      exact .inr hremaining
    · exact .inl (hlater.dropped hdropped)

theorem Sound.move (h : Sound sys) (hmove : Move sys sys')
    (hrevision : sys.store.nextRouteRevision ≤ sys'.store.nextRouteRevision)
    (hid : sys.registry.nextId ≤ sys'.registry.nextId) : Sound sys' := by
  cases hmove with
  | idle => exact h
  | advance hadvances => exact h.advance hadvances hrevision
  | fence hadvances => exact h.fence hadvances hrevision
  | resolve hstage hsession hseen => exact h.resolve hstage hsession hseen
  | proceed hconnection hproceeds hcontinues hcancels hfiled =>
    exact h.proceed hconnection hproceeds hcontinues hcancels (hfiled h.filed hid)
  | serve hcontinues hserves hfiled => exact h.serve hcontinues hserves (hfiled h.filed)
  | collect hoperation => exact h.collect hoperation

/-! ## Whole runs -/

variable (hash : String → String)

/-- **Every run in which neither counter comes around is sound.** -/
theorem sound_after (actions : List Action)
    (hwrap : RunsWithin (step hash) (NoWrap hash) {} actions) : Sound (after hash actions) :=
  RunsWithin.invariant (fun sys action h hguard =>
    h.move (step_move hash sys action) hguard.1 hguard.2) actions sound_initial hwrap

/-- An outdated route stays so. -/
theorem Outdated.run (h : Outdated sys.store instanceId revision) (later : List Action)
    (hwrap : RunsWithin (step hash) (NoWrap hash) sys later) :
    Outdated (Foundations.run (step hash) sys later).store instanceId revision :=
  @RunsWithin.invariant _ _ _ _ (fun sys => Outdated sys.store instanceId revision)
    (fun sys action h hguard => h.move (step_move hash sys action) hguard.1) later sys h hwrap

theorem run_continues (sys : System) (later : List Action) :
    sys.registry.Continues (run (step hash) sys later).registry :=
  @run_invariant _ _ _ (fun sys' => sys.registry.Continues sys'.registry)
    (fun sys' action h => h.trans (step_move hash sys' action).continues) later sys
    (.of_sessions rfl)

/-- **Fencing a tenant leaves no live session behind**, as long as the two 64-bit counters have not
come around.  Once an operation has finished its `cancel`, a session still held by a connection
that was looked up before the fence is flagged; or its connection has been turned away; or the
connection has not made its first check yet, and that check fails whenever it comes.  And a session
flagged before `authenticate` is never authenticated. -/
theorem fencing_leaves_no_session (hash : String → String) (actions : List Action)
    (hwrap : RunsWithin (step hash) (NoWrap hash) {} actions) :
    (∀ operation ∈ (after hash actions).operations,
      operation.finished (after hash actions) = true →
      ∀ index connection, Precedes (after hash actions).connections operation index connection →
      ∀ ref session, connection.session = some ref →
        (after hash actions).registry.sessions[ref]? = some session → session.live = true →
        session.cancelled = true ∨ connection.stage = .failed ∨
          connection.stage.awaitsFirstCheck = true ∧
            ∀ later, RunsWithin (step hash) (NoWrap hash) (after hash actions) later →
              (run (step hash) (after hash actions) later).store.routeIsCurrent
                connection.instanceId connection.revision = false) ∧
      ∀ (ref : Ref) session, (after hash actions).registry.sessions[ref]? = some session →
        session.cancelled = true → session.authenticated = false → session.phase = .held →
        ∀ later, ∃ session', (after hash (actions ++ later)).registry.sessions[ref]? =
          some session' ∧ session'.authenticated = false := by
  have hsound := sound_after hash actions hwrap
  constructor
  · intro operation hoperation hfinished index connection hprecedes ref session href hsession hlive
    by_cases hawaits : connection.stage.awaitsFirstCheck = true
    · have houtdated := hsound.outdated operation hoperation index connection hprecedes
      exact .inr (.inr ⟨hawaits, fun later hlater =>
        (houtdated.run hash later hlater).not_current⟩)
    by_cases hfailed : connection.stage = .failed
    · exact .inr (.inl hfailed)
    refine .inl ?_
    have hnotDropped : session.phase ≠ .dropped := by
      intro hphase
      simp [Session.live, hphase] at hlive
    have hstage : connection.stage.isConfirmed = true := by
      cases hstage : connection.stage with
      | resolved | opening | registered => simp [hstage, Stage.awaitsFirstCheck] at hawaits
      | failed => exact absurd hstage hfailed
      | closed =>
        have hjoined := hsound.joined index connection hprecedes.found
        simp only [Connection.Joined, hstage] at hjoined
        obtain ⟨ref', found, href', hfound, -, hdropped⟩ := hjoined
        obtain rfl := Option.some.inj (href.symm.trans href')
        obtain rfl := Option.some.inj (hsession.symm.trans hfound)
        exact absurd hdropped hnotDropped
      | confirmed | routed | rechecked | authenticated | inUse => rfl
    unfold Operation.finished at hfinished
    split at hfinished
    · exact absurd hfinished (by simp)
    rename_i place hplace
    obtain ⟨call, hcall, hcaught⟩ := hsound.caught operation hoperation place hplace
    have hremaining : call.remaining = [] := by simpa [hcall] using hfinished
    obtain ⟨ref', found, href', hfound, hcaught⟩ := hcaught index connection hprecedes hstage
    obtain rfl := Option.some.inj (href.symm.trans href')
    obtain rfl := Option.some.inj (hsession.symm.trans hfound)
    rcases hcaught with hcancelled | hdropped | hmem
    · exact hcancelled
    · exact absurd hdropped hnotDropped
    · exact absurd hmem (by simp [hremaining])
  · intro ref session hsession hcancelled hauthenticated hphase later
    obtain ⟨session', hsession', hlater⟩ :=
      run_continues hash (after hash actions) later ref session hsession
    refine ⟨session', ?_, (hlater.sealed ⟨hcancelled, hauthenticated, .inl hphase⟩).2.1⟩
    rw [after, run_append]
    exact hsession'

/-! ### A tenant with one route -/

/-- A running tenant that is looked up by its username. -/
def tenant : InstanceMetadata where
  instanceId := "tenant"
  deploymentMode := .dedicated
  protocol := .redis
  status := .running
  desiredState := .running
  diskLimitBlocked := false
  backend := .unixSocket "tenant.sock"
  database := ⟨"0", "user"⟩
  routeKeySha256 := none
  mariadbNativePasswordSha1Stage2 := none
  mysqlNativePasswordSha1Stage2 := none
  tenantPassword := none
  memoryMib := 64
  createdAt := "now"

/-- A connection is opened and used, and the tenant is fenced. -/
def usedThenFenced : List Action :=
  [.publish (.upsert tenant), .resolve (.redis "user") false, .draw 0, .insert 0, .check 0,
    .check 0, .fence (.fenceRoutes "tenant"), .collect 0, .flag 0]

instance (sys : System) (action : Action) : Decidable (NoWrap hash sys action) :=
  inferInstanceAs (Decidable (_ ∧ _))

/-- The session of that connection is live and flagged. -/
theorem fencing_flags_used_session :
    ∃ session, (after id usedThenFenced).registry.sessions[0]? = some session ∧
      session.live = true ∧ session.cancelled = true := by
  have hwrap : RunsWithin (step id) (NoWrap id) {} usedThenFenced :=
    ⟨by decide, by decide, by decide, by decide, by decide, by decide, by decide, by decide,
      by decide, trivial⟩
  let session : Session := ⟨"tenant", 0, none, true, .held, true, true⟩
  have hsession : (after id usedThenFenced).registry.sessions[0]? = some session := by decide
  refine ⟨session, hsession, rfl, ?_⟩
  rcases (fencing_leaves_no_session id usedThenFenced hwrap).1 ⟨"tenant", 1, some 0⟩ (by decide)
    (by decide) 0 ⟨"tenant", 1, none, false, .inUse, some 0⟩
    ⟨by decide, by decide, rfl⟩ 0 session rfl hsession rfl with h | h | h
  · exact h
  · exact absurd h (by decide)
  · exact absurd h.1 (by decide)

/-! ## The counters come around

Both runs below are longer than any daemon lives.  They show that the hypothesis is needed, for
each counter: the code compares and files 64-bit words, and those come back. -/

/-- An operation is over, and a connection looked up before it is in use, its session not flagged. -/
def Escapes (sys : System) : Prop :=
  ∃ operation ∈ sys.operations, operation.finished sys = true ∧
    ∃ index connection, Precedes sys.connections operation index connection ∧
      connection.stage = .inUse ∧ ∃ ref session, connection.session = some ref ∧
        sys.registry.sessions[ref]? = some session ∧ session.live = true ∧
        session.cancelled = false

theorem nextRevision_iterate (revision : ℕ) :
    ∀ count, revision + count < 2 ^ 64 → nextRevision^[count] revision = revision + count
  | 0, _ => rfl
  | count + 1, h => by
    rw [Function.iterate_succ_apply', nextRevision_iterate revision count (by omega)]
    unfold nextRevision
    omega

/-- The same upsert again and again, of an instance that is not pinned. -/
theorem run_upserts {metadata : InstanceMetadata}
    (hpinned : metadata.instanceId ∉ sys.store.pinnedFences) :
    ∀ count, ∃ store,
      run (step hash) sys (List.replicate (count + 1) (.publish (.upsert metadata))) =
        { sys with store } ∧
      store.pinnedFences = sys.store.pinnedFences ∧
      metadata.instanceId ∉ store.fencedInstances ∧
      store.routeRevisions.lookup metadata.instanceId = some store.nextRouteRevision ∧
      store.nextRouteRevision = nextRevision^[count + 1] sys.store.nextRouteRevision
  | 0 => by
    obtain ⟨hpinned', hfenced, hrevision⟩ := InstanceState.upsert_opens hash hpinned
    have hcounter := (InstanceState.upsert_advances hash sys.store metadata).counter
    exact ⟨_, rfl, hpinned', hfenced, hrevision.trans (congrArg some hcounter.symm), hcounter⟩
  | count + 1 => by
    obtain ⟨store, hrun, hpinned', -, -, hcounter⟩ := run_upserts hpinned count
    obtain ⟨hpinned'', hfenced, hrevision⟩ :=
      @InstanceState.upsert_opens hash store metadata (hpinned' ▸ hpinned)
    have hcounter' := (InstanceState.upsert_advances hash store metadata).counter
    refine ⟨_, ?_, hpinned''.trans hpinned', hfenced,
      hrevision.trans (congrArg some hcounter'.symm), ?_⟩
    · rw [List.replicate_succ', run_append, hrun]
      rfl
    · rw [hcounter', hcounter, ← Function.iterate_succ_apply' nextRevision]

/-- A connection is looked up, and the tenant is fenced before anything else happens. -/
def lookedUpThenFenced : List Action :=
  [.publish (.upsert tenant), .resolve (.redis "user") false, .fence (.fenceRoutes "tenant"),
    .collect 0]

/-- Upserts until the revision is the one the connection saw. -/
def revisionsComeAround : List Action :=
  lookedUpThenFenced ++ List.replicate (2 ^ 64 - 3 + 1) (.publish (.upsert tenant)) ++
    [.draw 0, .insert 0, .check 0, .check 0]

/-- The session in the first slot. -/
def firstSession : Session := ⟨"tenant", 0, none, true, .held, true, false⟩

/-- A registry with one live session of the tenant, in the first slot. -/
def oneSession : Registry where
  tenants := AList.singleton "tenant" (AList.singleton 0 0)
  nextId := 1
  sessions := [firstSession]

theorem check_of_current {next : Stage} (hconnection : sys.connections[index]? = some connection)
    (hnext : connection.stage.passed connection.pending = some next)
    (hcurrent : sys.store.routeIsCurrent connection.instanceId connection.revision = true) :
    sys.check index = sys.proceed index { connection with stage := next } sys.registry := by
  simp [System.check, hconnection, hnext, hcurrent]

theorem revisionsComeAround_escapes : Escapes (after id revisionsComeAround) := by
  obtain ⟨store, hrun, -, hfenced, hrevision, hcounter⟩ :=
    @run_upserts (after id lookedUpThenFenced) id tenant (by decide) (2 ^ 64 - 3)
  have hstart : (after id lookedUpThenFenced).store.nextRouteRevision = 2 := by decide
  have hnext : store.nextRouteRevision = 1 := by
    rw [hcounter, hstart, Function.iterate_succ_apply',
      nextRevision_iterate 2 (2 ^ 64 - 3) (by omega)]
    decide
  have hcurrent : store.routeIsCurrent "tenant" 1 = true := by
    rw [hnext] at hrevision
    simpa [InstanceState.routeIsCurrent] using ⟨hfenced, hrevision⟩
  have hopened : run (step id) { after id lookedUpThenFenced with store } [.draw 0, .insert 0] =
      { store
        registry := { oneSession with cancels := [{ sessions := [] }] }
        connections := [⟨"tenant", 1, none, false, .registered, some 0⟩]
        operations := [⟨"tenant", 1, some 0⟩] } := rfl
  have hfinal : after id revisionsComeAround =
      { store
        registry := { oneSession with cancels := [{ sessions := [] }] }
        connections := [⟨"tenant", 1, none, false, .inUse, some 0⟩]
        operations := [⟨"tenant", 1, some 0⟩] } := by
    rw [after, revisionsComeAround, run_append, run_append, ← after, hrun,
      show ([.draw 0, .insert 0, .check 0, .check 0] : List Action) =
        [.draw 0, .insert 0] ++ [.check 0, .check 0] from rfl, run_append, hopened,
      run_cons, step, check_of_current rfl rfl hcurrent,
      run_cons, step, check_of_current rfl rfl hcurrent]
    rfl
  rw [hfinal]
  exact ⟨_, List.mem_singleton.mpr rfl, rfl, 0, _, ⟨rfl, by decide, rfl⟩, rfl, 0, _, rfl, rfl,
    rfl, rfl⟩

/-! ### Session ids -/

/-- The store with the tenant published. -/
def published : InstanceState := InstanceState.upsert id {} tenant

/-- One connection with the first slot, and others whose ids are drawn. -/
def crowd (stage : Stage) (registry : Registry) (others : List Connection) : System where
  store := published
  registry
  connections := ⟨"tenant", 1, none, false, stage, some 0⟩ :: others

/-- A connection behind all others is looked up and draws its id. -/
theorem lookup_and_draw {stage : Stage} {others : List Connection} :
    run (step id) (crowd stage registry others)
        [.resolve (.redis "user") false, .draw (others.length + 1)] =
      crowd stage (registry.draw "tenant" none true)
        (others ++ [⟨"tenant", 1, none, false, .opening, some registry.sessions.length⟩]) := by
  have hresolve : (Request.redis "user").resolve published =
      some ⟨"tenant", "now", .unixSocket "tenant.sock", none, 1⟩ := by decide
  simp [step, System.resolve, System.draw, System.proceed, crowd, hresolve]

/-- Ids are drawn one after the other and nobody takes the lock. -/
def drawIds (count : ℕ) : List Action :=
  (List.range count).flatMap fun index =>
    [.resolve (.redis "user") false, .draw (index + 1)]

theorem run_drawIds : ∀ count, ∃ (sessions : List Session) (others : List Connection),
    run (step id) (crowd .registered oneSession []) (drawIds count) =
      crowd .registered
        { oneSession with
          nextId := (count + 1) % 2 ^ 64, sessions := firstSession :: sessions } others ∧
    sessions.length = count ∧ others.length = count ∧
      ∀ session ∈ sessions, session.phase = .opening
  | 0 => ⟨[], [], rfl, rfl, rfl, by simp⟩
  | count + 1 => by
    obtain ⟨sessions, others, hrun, hsessions, hothers, hopening⟩ := run_drawIds count
    refine ⟨sessions ++ [⟨"tenant", (count + 1) % 2 ^ 64, none, true, .opening, false, false⟩],
      others ++ [⟨"tenant", 1, none, false, .opening, some (count + 1)⟩], ?_, by simp [hsessions],
      by simp [hothers], ?_⟩
    · rw [drawIds, List.range_succ, List.flatMap_append, ← drawIds, run_append, hrun,
        List.flatMap_singleton, ← hothers, lookup_and_draw]
      simp [crowd, Registry.draw, hsessions, hothers]
    · simpa [or_imp, forall_and] using hopening

variable (sessions : List Session)

/-- The registry once another session stands in the first slot. -/
def slotTaken (newcomer : Session) (cancels : List CancelCall) : Registry where
  tenants := AList.singleton "tenant" (AList.singleton 0 (sessions.length + 1))
  nextId := 1
  sessions := firstSession :: sessions ++ [newcomer]
  cancels

theorem slotTaken_strong (newcomer : Session) (hlive : newcomer.live = true)
    (cancels : List CancelCall) :
    (slotTaken sessions newcomer cancels).strong (sessions.length + 1) = true :=
  Registry.strong_of_live (show _ = some newcomer by simp [slotTaken]) hlive

theorem prune_singleton {id ref : ℕ} (h : registry.strong ref = true) :
    registry.pruneDroppedSessions (AList.singleton id ref) = AList.singleton id ref :=
  AList.ext (by simp [Registry.pruneDroppedSessions, Map.retain, Map.filterMap, Map.visit, h])

variable {sessions}

theorem update_last
    (h : registry.sessions = firstSession :: sessions ++ [session]) (change : Session → Session) :
    registry.update (sessions.length + 1) change =
      { registry with sessions := firstSession :: sessions ++ [change session] } := by
  have hlast : registry.sessions[sessions.length + 1]? = some session := by simp [h]
  rw [Registry.update, modify_eq_set hlast, h]
  simp

/-- The newcomer, its id drawn. -/
def newcomer : Session := ⟨"tenant", 0, none, true, .opening, false, false⟩

/-- The newcomer draws the first id again and overwrites the first slot. -/
theorem insert_takes_slot :
    Registry.insert { oneSession with sessions := firstSession :: sessions ++ [newcomer] }
      (sessions.length + 1) newcomer = (.ok (), slotTaken sessions firstSession []) := by
  have hentry : AList.lookup newcomer.instanceId oneSession.tenants =
    some (AList.singleton 0 0) := rfl
  have hstrong : Registry.strong
      { oneSession with sessions := firstSession :: sessions ++ [newcomer] } 0 = true :=
    Registry.strong_of_live (show _ = some firstSession from rfl) rfl
  have hlimit : newcomer.limit = none := rfl
  simp only [Registry.insert, hentry, Option.getD_some, prune_singleton hstrong, hlimit,
    Option.filter_none]
  rw [update_last rfl]
  rfl

theorem unlocked_of_opening {last : Session}
    (h : registry.sessions = firstSession :: sessions ++ [last])
    (hopening : ∀ session ∈ sessions, session.phase = .opening)
    (hlast : last.phase ≠ .authenticating) : registry.locked = false := by
  simp only [Registry.locked, h, List.any_eq_false, decide_eq_true_eq]
  intro session hmember
  rw [List.mem_append, List.mem_cons, List.mem_singleton] at hmember
  rcases hmember with (rfl | hsession) | rfl
  · decide
  · simp [hopening session hsession]
  · exact hlast

/-- `cancel` finds only the newcomer. -/
theorem collect_slotTaken :
    (slotTaken sessions firstSession []).collect "tenant" =
      slotTaken sessions firstSession [{ sessions := [sessions.length + 1] }] := by
  have hentry : AList.lookup "tenant" (slotTaken sessions firstSession []).tenants =
    some (AList.singleton 0 (sessions.length + 1)) := rfl
  have hstrong := slotTaken_strong sessions firstSession rfl []
  have hupgraded : (slotTaken sessions firstSession []).upgraded
      (AList.singleton 0 (sessions.length + 1)) = [sessions.length + 1] := by
    simp [Registry.upgraded, hstrong]
  simp only [Registry.collect, hentry, prune_singleton hstrong, hupgraded]
  rfl

theorem flag_slotTaken :
    (slotTaken sessions firstSession [{ sessions := [sessions.length + 1] }]).flag 0 =
      slotTaken sessions { firstSession with cancelled := true }
        [{ sessions := [sessions.length + 1], flagged := 1 }] := by
  simp only [Registry.flag, slotTaken, List.getElem?_cons_zero, CancelCall.remaining,
    List.drop_zero, List.set_cons_zero, Nat.zero_add]
  rw [update_last rfl]

/-- The newcomer's connection, behind all others. -/
def newcomerAt (stage : Stage) (place : Ref) : Connection :=
  ⟨"tenant", 1, none, false, stage, some place⟩

/-- The newcomer has drawn the first id again. -/
def contested (sessions : List Session) (others : List Connection) : System :=
  crowd .registered { oneSession with sessions := firstSession :: sessions ++ [newcomer] }
    (others ++ [newcomerAt .opening (sessions.length + 1)])

variable {others : List Connection}

theorem insert_contested (hopening : ∀ session ∈ sessions, session.phase = .opening)
    (hothers : others.length = sessions.length) :
    (contested sessions others).insert (sessions.length + 1) =
      crowd .registered (slotTaken sessions firstSession [])
        (others ++ [newcomerAt .registered (sessions.length + 1)]) := by
  have hparty : (contested sessions others).party (sessions.length + 1) =
      some (newcomerAt .opening (sessions.length + 1), sessions.length + 1, newcomer) := by
    simp [System.party, contested, crowd, newcomerAt, ← hothers]
  have hunlocked : (contested sessions others).registry.locked = false :=
    unlocked_of_opening rfl hopening (by decide)
  have hinsert : (contested sessions others).registry.insert (sessions.length + 1) newcomer =
      (.ok (), slotTaken sessions firstSession []) := insert_takes_slot
  simp only [System.insert, hparty]
  rw [if_pos ⟨rfl, rfl, hunlocked⟩, hinsert]
  simp [System.proceed, contested, crowd, newcomerAt, ← hothers]

theorem contested_escapes (hopening : ∀ session ∈ sessions, session.phase = .opening)
    (hothers : others.length = sessions.length) :
    Escapes (run (step id) (contested sessions others)
      [.insert (sessions.length + 1), .check 0, .check 0, .fence (.fenceRoutes "tenant"),
        .collect 0, .flag 0]) := by
  have hcurrent : published.routeIsCurrent "tenant" 1 = true := by decide
  have hunlocked : (slotTaken sessions firstSession []).locked = false :=
    unlocked_of_opening rfl hopening (by decide)
  obtain ⟨fenced, hfenced⟩ : ∃ store, published.fenceRoutes "tenant" = some store := ⟨_, rfl⟩
  -- the operation finds the newcomer in the slot and flags it, and is done
  have hoperation : run (step id)
      (crowd .inUse (slotTaken sessions firstSession [])
        (others ++ [newcomerAt .registered (sessions.length + 1)]))
      [.fence (.fenceRoutes "tenant"), .collect 0, .flag 0] =
      { crowd .inUse
          (slotTaken sessions { firstSession with cancelled := true }
            [{ sessions := [sessions.length + 1], flagged := 1 }])
          (others ++ [newcomerAt .registered (sessions.length + 1)]) with
        store := fenced
        operations := [⟨"tenant", others.length + 2, some 0⟩] } := by
    have hfence : (crowd .inUse (slotTaken sessions firstSession [])
        (others ++ [newcomerAt .registered (sessions.length + 1)])).fence (.fenceRoutes "tenant") =
        { crowd .inUse (slotTaken sessions firstSession [])
            (others ++ [newcomerAt .registered (sessions.length + 1)]) with
          store := fenced
          operations := [⟨"tenant", others.length + 2, none⟩] } := by
      simp [System.fence, Lifecycle.apply, Lifecycle.instanceId, crowd, hfenced]
    rw [run_cons, step, hfence, run_cons, step, System.collect]
    simp only [List.getElem?_cons_zero]
    rw [if_pos ⟨trivial, hunlocked⟩]
    simp only [crowd, collect_slotTaken, run_cons, step, System.flag, List.set_cons_zero,
      List.getElem?_cons_zero, Option.bind_some]
    rw [show (slotTaken sessions firstSession []).cancels.length = 0 from rfl, flag_slotTaken]
    rfl
  rw [run_cons, step, insert_contested hopening hothers, run_cons, step,
    check_of_current rfl rfl hcurrent, run_cons, step, check_of_current rfl rfl hcurrent]
  refine hoperation ▸ ⟨_, List.mem_singleton.mpr rfl, rfl, 0, _, ⟨rfl, ?_, rfl⟩, rfl, 0,
    firstSession, rfl, rfl, rfl, rfl⟩
  exact Nat.succ_pos _

/-- Ids are drawn until the counter is back at the first, a newcomer takes that one, and the tenant
is fenced while the connection with the first session is in use. -/
def idsComeAround : List Action :=
  [.publish (.upsert tenant), .resolve (.redis "user") false, .draw 0, .insert 0] ++
    drawIds (2 ^ 64 - 1) ++
    [.resolve (.redis "user") false, .draw (2 ^ 64 - 1 + 1)] ++
    [.insert (2 ^ 64 - 1 + 1), .check 0, .check 0, .fence (.fenceRoutes "tenant"), .collect 0,
      .flag 0]

theorem idsComeAround_escapes : Escapes (after id idsComeAround) := by
  obtain ⟨sessions, others, hrun, hsessions, hothers, hopening⟩ := run_drawIds (2 ^ 64 - 1)
  have hfirst : run (step id) {} [.publish (.upsert tenant), .resolve (.redis "user") false,
    .draw 0, .insert 0] = crowd .registered oneSession [] := rfl
  have hcontested : run (step id) {} ([.publish (.upsert tenant),
      .resolve (.redis "user") false, .draw 0, .insert 0] ++ drawIds (2 ^ 64 - 1) ++
      [.resolve (.redis "user") false, .draw (2 ^ 64 - 1 + 1)]) = contested sessions others := by
    have hdraw := @lookup_and_draw
      { oneSession with
        nextId := (2 ^ 64 - 1 + 1) % 2 ^ 64, sessions := firstSession :: sessions }
      .registered others
    rw [hothers] at hdraw
    rw [run_append, run_append, hfirst, hrun, hdraw]
    rfl
  rw [after, idsComeAround, run_append, hcontested, ← hsessions]
  exact contested_escapes hopening (hothers.trans hsessions.symm)

/-- **The counters must not come around**: each of them can hand a tenant back to a connection that
was looked up before its fence. -/
theorem counters_come_around_escapes :
    Escapes (after id revisionsComeAround) ∧ Escapes (after id idsComeAround) :=
  ⟨revisionsComeAround_escapes, idsComeAround_escapes⟩

end DatabasesEverywhere.Gateway
