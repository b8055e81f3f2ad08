import DatabasesEverywhere.Foundations.Lists
import DatabasesEverywhere.Foundations.Maps

/-!
# Gateway/Sessions — the registry of live tenant sessions

`TenantSessions` files every session under its tenant and its id, behind one lock.  A session lives
on the heap and is named here by its place there; the registry holds it weakly.

    opening ──insert──▸ held ──authenticate──▸ authenticating ──▸ held ──drop──▸ dropped
        └──▸ refused (over the limit)

`cancel` copies the tenant's sessions under the lock and flags them one by one after letting go of
it, so its stores fall between the steps of everybody else — also inside an `authenticate`, which
keeps the lock from its check of the flag to its store.
-/

open Foundations

namespace DatabasesEverywhere.Gateway

/-- The place of a session on the heap. -/
abbrev Ref := ℕ

inductive Phase
  /-- Its id is drawn and the lock not yet taken. -/
  | opening
  /-- Over the limit: `insert` returned an error. -/
  | refused
  | held
  /-- Inside `authenticate`, with the lock, past every check. -/
  | authenticating
  | dropped
  deriving DecidableEq

/-- A `SessionState` together with the `TenantSession` that owns it and the call that opened it. -/
structure Session where
  instanceId : String
  id : ℕ
  /-- `insert`'s limit -/
  limit : Option ℕ
  /-- `insert`'s flag: `try_open` opens authenticated, `open_pending` does not. -/
  opensAuthenticated : Bool
  phase : Phase := .opening
  authenticated : Bool := false
  cancelled : Bool := false
  deriving DecidableEq

/-- A `TenantSession` was built for it. -/
def Session.opened (session : Session) : Bool :=
  match session.phase with
  | .held | .authenticating | .dropped => true
  | .opening | .refused => false

/-- Its `TenantSession` is not dropped yet. -/
def Session.live (session : Session) : Bool :=
  match session.phase with
  | .held | .authenticating => true
  | .opening | .refused | .dropped => false

/-- A call of `cancel` past its lock: the sessions it holds, and how many it has flagged. -/
structure CancelCall where
  sessions : List Ref
  flagged : ℕ := 0
  deriving DecidableEq

/-- The sessions a call still has to flag. -/
def CancelCall.remaining (call : CancelCall) : List Ref := call.sessions.drop call.flagged

abbrev TenantEntry := Map ℕ Ref

structure Registry where
  tenants : Map String TenantEntry := ∅
  nextId : ℕ := 0
  sessions : List Session := []
  cancels : List CancelCall := []

structure TenantSessionLimit where
  instanceId : String
  limit : ℕ
  deriving DecidableEq

inductive AuthenticateError
  | connectionAborted
  | connectionRefused (limit : TenantSessionLimit)
  deriving DecidableEq

variable {ref : Ref} {registry : Registry} {session : Session}

namespace Registry

/-- Some `authenticate` is between its checks and its store, with the lock. -/
def locked (registry : Registry) : Bool :=
  registry.sessions.any fun session => session.phase = .authenticating

/-- `strong_count() > 0`: the `TenantSession` is there, or a running `cancel` still holds it. -/
def strong (registry : Registry) (ref : Ref) : Bool :=
  registry.sessions[ref]?.any Session.live ||
    registry.cancels.any fun call => call.remaining != [] && call.sessions.contains ref

def pruneDroppedSessions (registry : Registry) (entry : TenantEntry) : TenantEntry :=
  entry.retain fun _ ref => registry.strong ref

/-- The sessions of an entry that a `Weak::upgrade` still reaches. -/
def upgraded (registry : Registry) (entry : TenantEntry) : List Ref :=
  (entry.entries.map Sigma.snd).filter registry.strong

def authenticatedCount (registry : Registry) (entry : TenantEntry) : ℕ :=
  (registry.upgraded entry).countP fun ref => registry.sessions[ref]?.any Session.authenticated

/-- One session changes. -/
def update (registry : Registry) (ref : Ref) (change : Session → Session) : Registry :=
  { registry with sessions := registry.sessions.modify ref change }

/-- `insert`, up to its lock: `fetch_add` on the 64-bit id counter. -/
def draw (registry : Registry) (instanceId : String) (limit : Option ℕ)
    (opensAuthenticated : Bool) : Registry :=
  { registry with
    nextId := (registry.nextId + 1) % 2 ^ 64
    sessions := registry.sessions ++ [
      { instanceId, id := registry.nextId, limit, opensAuthenticated }] }

/-- `insert`, under the lock. -/
def insert (registry : Registry) (ref : Ref) (session : Session) :
    Except TenantSessionLimit Unit × Registry :=
  let entry := registry.pruneDroppedSessions
    ((registry.tenants.lookup session.instanceId).getD ∅)
  match session.limit.filter fun limit => limit ≤ registry.authenticatedCount entry with
  | some limit =>
    (.error ⟨session.instanceId, limit⟩,
      { registry with tenants := registry.tenants.insert session.instanceId entry }.update ref
        fun session => { session with phase := .refused })
  | none =>
    (.ok (),
      { registry with
        tenants := registry.tenants.insert session.instanceId (entry.insert session.id ref)
        }.update ref fun session =>
          { session with phase := .held, authenticated := session.opensAuthenticated })

/-- `cancel`, under the lock: what it will flag. -/
def collect (registry : Registry) (instanceId : String) : Registry :=
  match registry.tenants.lookup instanceId with
  | none => { registry with cancels := registry.cancels ++ [{ sessions := [] }] }
  | some entry =>
    let pruned := registry.pruneDroppedSessions entry
    { registry with
      tenants := registry.tenants.insert instanceId pruned
      cancels := registry.cancels ++ [{ sessions := registry.upgraded pruned }] }

/-- `cancel`, one turn of its loop. -/
def flag (registry : Registry) (index : ℕ) : Registry :=
  match registry.cancels[index]? with
  | none => registry
  | some call =>
    match call.remaining with
    | [] => registry
    | ref :: _ =>
      { registry with
        cancels := registry.cancels.set index { call with flagged := call.flagged + 1 }
        }.update ref fun session => { session with cancelled := true }

/-- `active`; what it returns is the size of the pruned entry. -/
def active (registry : Registry) (instanceId : String) : Registry :=
  match registry.tenants.lookup instanceId with
  | none => registry
  | some entry =>
    { registry with
      tenants := registry.tenants.insert instanceId (registry.pruneDroppedSessions entry) }

/-- `authenticate`, up to its store.  `none`: it goes on to the store, with the lock. -/
def authenticate (registry : Registry) (ref : Ref) (session : Session) (limit : Option ℕ) :
    Option (Except AuthenticateError Unit) × Registry :=
  match registry.tenants.lookup session.instanceId with
  | none => (some (.error .connectionAborted), registry)
  | some entry =>
    if session.cancelled then (some (.error .connectionAborted), registry)
    else if session.authenticated then (some (.ok ()), registry)
    else
      match limit.filter fun limit => limit ≤ registry.authenticatedCount entry with
      | some limit => (some (.error (.connectionRefused ⟨session.instanceId, limit⟩)), registry)
      | none =>
        (none, registry.update ref fun session => { session with phase := .authenticating })

/-- `authenticate`, its store; the lock is free again. -/
def commit (registry : Registry) (ref : Ref) : Registry :=
  registry.update ref fun session => { session with phase := .held, authenticated := true }

/-- The `Drop` of a `TenantSession`. -/
def drop (registry : Registry) (ref : Ref) (session : Session) : Registry :=
  let dropped := registry.update ref fun session => { session with phase := .dropped }
  match registry.tenants.lookup session.instanceId with
  | none => dropped
  | some entry =>
    let rest := entry.erase session.id
    if rest.entries.isEmpty then
      { dropped with tenants := registry.tenants.erase session.instanceId }
    else
      { dropped with tenants := registry.tenants.insert session.instanceId rest }

/-! ### What the calls return and leave -/

theorem update_self (registry : Registry) (ref : Ref) (change : Session → Session) :
    (registry.update ref change).sessions[ref]? = registry.sessions[ref]?.map change := by
  simp [update]

theorem update_ne (registry : Registry) {place : Ref} (change : Session → Session)
    (h : ref ≠ place) :
    (registry.update ref change).sessions[place]? = registry.sessions[place]? := by
  simp [update, h]

@[simp] theorem insert_cancels (registry : Registry) (ref : Ref) (session : Session) :
    (registry.insert ref session).2.cancels = registry.cancels := by
  simp only [insert]
  split <;> rfl

/-- A session that was let in is held. -/
theorem insert_ok (hsession : registry.sessions[ref]? = some session)
    (h : (registry.insert ref session).1 = .ok ()) :
    (registry.insert ref session).2.sessions[ref]? =
      some { session with phase := .held, authenticated := session.opensAuthenticated } := by
  simp only [insert] at h ⊢
  split at h
  · exact absurd h (by simp)
  · simp [update, hsession]

variable (registry ref session)

/-- `authenticate` changes nothing, or goes on to its store. -/
theorem authenticate_cases (limit : Option ℕ) :
    (registry.authenticate ref session limit).2 = registry ∨
      ¬session.cancelled = true ∧ (registry.authenticate ref session limit).2 =
        registry.update ref fun session => { session with phase := .authenticating } := by
  unfold authenticate
  split
  · exact .inl rfl
  split
  · exact .inl rfl
  next hcancelled =>
  split
  · exact .inl rfl
  split
  · exact .inl rfl
  · exact .inr ⟨hcancelled, rfl⟩

@[simp] theorem authenticate_cancels (limit : Option ℕ) :
    (registry.authenticate ref session limit).2.cancels = registry.cancels := by
  rcases registry.authenticate_cases ref session limit with h | ⟨-, h⟩
  · rw [h]
  · rw [h, update]

variable (instanceId : String)

theorem collect_sessions : (registry.collect instanceId).sessions = registry.sessions := by
  unfold collect
  split <;> rfl

theorem active_sessions : (registry.active instanceId).sessions = registry.sessions := by
  unfold active
  split <;> rfl

theorem drop_sessions :
    (registry.drop ref session).sessions =
      (registry.update ref fun session => { session with phase := .dropped }).sessions := by
  simp only [drop]
  split
  · rfl
  split <;> rfl

@[simp] theorem drop_cancels : (registry.drop ref session).cancels = registry.cancels := by
  simp only [drop]
  split
  · rfl
  split <;> rfl

variable {session}

variable {registry}

theorem drop_dropped (hsession : registry.sessions[ref]? = some session) :
    (registry.drop ref session).sessions[ref]? = some { session with phase := .dropped } := by
  simp [drop_sessions, update, hsession]

end Registry

/-! ## What a session keeps

No step of the registry changes whom a session belongs to, reopens or un-flags it, and a session
flagged outside `authenticate` before it was authenticated stays unauthenticated. -/

/-- Flagged, not authenticated and outside `authenticate`. -/
def Session.Sealed (session : Session) : Prop :=
  session.cancelled = true ∧ session.authenticated = false ∧
    (session.phase = .held ∨ session.phase = .dropped)

instance (session : Session) : Decidable session.Sealed :=
  inferInstanceAs (Decidable (_ ∧ _ ∧ (_ ∨ _)))

/-- A session, some steps later. -/
structure Session.Later (session later : Session) : Prop where
  sameInstance : later.instanceId = session.instanceId
  sameId : later.id = session.id
  opened : session.opened = true → later.opened = true
  dropped : session.phase = .dropped → later.phase = .dropped
  cancelled : session.cancelled = true → later.cancelled = true
  sealed : session.Sealed → later.Sealed

theorem Session.Later.refl (session : Session) : session.Later session :=
  ⟨rfl, rfl, fun h => h, fun h => h, fun h => h, fun h => h⟩

theorem Session.Later.trans {first second third : Session} (h : first.Later second)
    (h' : second.Later third) : first.Later third where
  sameInstance := h'.sameInstance.trans h.sameInstance
  sameId := h'.sameId.trans h.sameId
  opened := h'.opened ∘ h.opened
  dropped := h'.dropped ∘ h.dropped
  cancelled := h'.cancelled ∘ h.cancelled
  sealed := h'.sealed ∘ h.sealed

theorem Session.later_of_opening {later : Session} (hphase : session.phase = .opening)
    (hinstance : later.instanceId = session.instanceId) (hid : later.id = session.id)
    (hcancelled : later.cancelled = session.cancelled) : session.Later later where
  sameInstance := hinstance
  sameId := hid
  opened h := by simp [Session.opened, hphase] at h
  dropped h := by simp [hphase] at h
  cancelled h := hcancelled.trans h
  sealed h := by simp [Session.Sealed, hphase] at h

namespace Registry

/-- Every session of a registry is there later. -/
def Continues (registry later : Registry) : Prop :=
  ∀ (ref : Ref) (session : Session), registry.sessions[ref]? = some session →
    ∃ session', later.sessions[ref]? = some session' ∧ session.Later session'

variable {later : Registry}

theorem Continues.of_sessions
    (h : later.sessions = registry.sessions) : registry.Continues later :=
  fun _ session hsession => ⟨session, h ▸ hsession, .refl session⟩

theorem Continues.trans {first second third : Registry} (h : first.Continues second)
    (h' : second.Continues third) : first.Continues third := by
  intro ref session hsession
  obtain ⟨middle, hmiddle, hlater⟩ := h ref session hsession
  obtain ⟨last, hlast, hlater'⟩ := h' ref middle hmiddle
  exact ⟨last, hlast, hlater.trans hlater'⟩

variable {change : Session → Session}

/-- A change of one session that the session may undergo. -/
theorem Continues.of_update (hsessions : later.sessions = (registry.update ref change).sessions)
    (hchange : ∀ session, registry.sessions[ref]? = some session → session.Later (change session)) :
    registry.Continues later := by
  intro place session hsession
  rw [hsessions]
  by_cases hplace : ref = place
  · subst hplace
    exact ⟨change session, by rw [update_self, hsession]; rfl, hchange session hsession⟩
  · exact ⟨session, by rw [update_ne _ _ hplace, hsession], .refl session⟩

theorem draw_continues (registry : Registry) (instanceId : String) (limit : Option ℕ)
    (opensAuthenticated : Bool) :
    registry.Continues (registry.draw instanceId limit opensAuthenticated) := by
  intro ref session hsession
  exact ⟨session, getElem?_concat_eq_some.mpr (.inl hsession), .refl session⟩

theorem insert_continues
    (hsession : registry.sessions[ref]? = some session) (hphase : session.phase = .opening) :
    registry.Continues (registry.insert ref session).2 := by
  simp only [insert]
  split
  all_goals
    refine .of_update rfl fun found hfound => ?_
    obtain rfl := Option.some.inj (hsession.symm.trans hfound)
    exact Session.later_of_opening hphase rfl rfl rfl

variable (registry)

theorem collect_continues (instanceId : String) :
    registry.Continues (registry.collect instanceId) :=
  .of_sessions (registry.collect_sessions instanceId)

theorem active_continues (instanceId : String) : registry.Continues (registry.active instanceId) :=
  .of_sessions (registry.active_sessions instanceId)

theorem flag_continues (index : ℕ) : registry.Continues (registry.flag index) := by
  unfold flag
  split
  · exact .of_sessions rfl
  split
  · exact .of_sessions rfl
  · exact .of_update rfl fun session _ =>
      ⟨rfl, rfl, id, id, fun _ => rfl, fun h => ⟨rfl, h.2⟩⟩

variable {registry}

theorem authenticate_continues
    (hsession : registry.sessions[ref]? = some session) (hphase : session.phase = .held)
    (limit : Option ℕ) : registry.Continues (registry.authenticate ref session limit).2 := by
  rcases registry.authenticate_cases ref session limit with h | ⟨hcancelled, h⟩ <;> rw [h]
  · exact .of_sessions rfl
  · refine .of_update rfl fun found hfound => ?_
    obtain rfl := Option.some.inj (hsession.symm.trans hfound)
    exact ⟨rfl, rfl, fun _ => rfl, fun h => by simp [hphase] at h, id,
      fun h => absurd h.1 hcancelled⟩

theorem commit_continues (hsession : registry.sessions[ref]? = some session)
    (hphase : session.phase = .authenticating) : registry.Continues (registry.commit ref) := by
  refine .of_update rfl fun found hfound => ?_
  obtain rfl := Option.some.inj (hsession.symm.trans hfound)
  exact ⟨rfl, rfl, fun _ => rfl, fun h => by simp [hphase] at h, id,
    fun h => by simp [Session.Sealed, hphase] at h⟩

theorem drop_continues (registry : Registry) (ref : Ref) (session : Session) :
    registry.Continues (registry.drop ref session) :=
  .of_update (registry.drop_sessions ref session) fun _ _ =>
    ⟨rfl, rfl, fun _ => rfl, fun _ => rfl, id, fun h => ⟨h.1, h.2.1, .inr rfl⟩⟩

/-! ## Where a live session is filed

As long as the id counter has not wrapped, the id of a session is its place on the heap, so no two
sessions share a slot: every live session stands in its tenant's entry, and `cancel` finds it. -/

/-- Ids are places, and every live session is filed under its tenant and its id. -/
structure Filed (registry : Registry) : Prop where
  nextId : registry.nextId = registry.sessions.length
  ids : ∀ (ref : Ref) (session : Session), registry.sessions[ref]? = some session →
    session.id = ref
  slot : ∀ (ref : Ref) (session : Session), registry.sessions[ref]? = some session →
    session.live = true →
    ∃ entry, registry.tenants.lookup session.instanceId = some entry ∧
      entry.lookup session.id = some ref

theorem filed_empty : Filed {} :=
  ⟨rfl, fun _ _ h => absurd h (by simp), fun _ _ h => absurd h (by simp)⟩

theorem Filed.withCancels (h : registry.Filed) (cancels : List CancelCall) :
    Filed { registry with cancels } :=
  ⟨h.nextId, h.ids, h.slot⟩

theorem strong_of_live
    (hsession : registry.sessions[ref]? = some session) (hlive : session.live = true) :
    registry.strong ref = true := by
  simp [strong, hsession, hlive]

variable {entry : TenantEntry}

/-- Pruning keeps the slot of a live session. -/
theorem lookup_prune_of_live (hsession : registry.sessions[ref]? = some session)
    (hlive : session.live = true) (hslot : entry.lookup session.id = some ref) :
    (registry.pruneDroppedSessions entry).lookup session.id = some ref :=
  Map.lookup_retain_of_keep hslot (strong_of_live hsession hlive)

theorem mem_upgraded {id : ℕ} (hslot : entry.lookup id = some ref)
    (hstrong : registry.strong ref = true) : ref ∈ registry.upgraded entry := by
  refine List.mem_filter.mpr ⟨List.mem_map.mpr ⟨⟨id, ref⟩, ?_, rfl⟩, hstrong⟩
  exact AList.mem_lookup_iff.mp hslot

variable (h : registry.Filed)
include h

variable {instanceId : String}

/-- Another entry under one tenant that keeps the slots of its live sessions. -/
theorem Filed.reenter {cancels : List CancelCall}
    (hentry : ∀ (ref : Ref) (session : Session), registry.sessions[ref]? = some session →
      session.live = true → session.instanceId = instanceId →
      entry.lookup session.id = some ref) :
    Filed { registry with tenants := registry.tenants.insert instanceId entry, cancels } where
  nextId := h.nextId
  ids := h.ids
  slot ref session hsession hlive := by
    by_cases hinstance : session.instanceId = instanceId
    · exact ⟨entry, by rw [hinstance]; exact AList.lookup_insert _,
        hentry ref session hsession hlive hinstance⟩
    · obtain ⟨other, hother, hslot⟩ := h.slot ref session hsession hlive
      exact ⟨other, (AList.lookup_insert_ne hinstance).trans hother, hslot⟩

/-- The pruned entry of a tenant keeps the slots of its live sessions. -/
theorem Filed.lookup_prune (hentry : (registry.tenants.lookup instanceId).getD ∅ = entry)
    (hsession : registry.sessions[ref]? = some session) (hlive : session.live = true)
    (hinstance : session.instanceId = instanceId) :
    (registry.pruneDroppedSessions entry).lookup session.id = some ref := by
  obtain ⟨found, hfound, hslot⟩ := h.slot ref session hsession hlive
  rw [hinstance] at hfound
  rw [hfound, Option.getD_some] at hentry
  exact lookup_prune_of_live hsession hlive (hentry ▸ hslot)

/-- A change of one session that leaves its id alone and makes it live only where its slot is. -/
theorem Filed.update (hid : ∀ session, (change session).id = session.id)
    (hinstance : ∀ session, (change session).instanceId = session.instanceId)
    (hlive : ∀ session, registry.sessions[ref]? = some session →
      (change session).live = true → session.live = true ∨
        ∃ entry, registry.tenants.lookup session.instanceId = some entry ∧
          entry.lookup session.id = some ref) :
    Filed (registry.update ref change) where
  nextId := by simpa [Registry.update] using h.nextId
  ids place session hsession := by
    by_cases hplace : ref = place
    · subst hplace
      obtain ⟨before, hbefore, rfl⟩ := Option.map_eq_some_iff.mp (update_self .. ▸ hsession)
      exact (hid before).trans (h.ids ref before hbefore)
    · exact h.ids place session (update_ne _ _ hplace ▸ hsession)
  slot place session hsession hlater := by
    by_cases hplace : ref = place
    · subst hplace
      obtain ⟨before, hbefore, rfl⟩ := Option.map_eq_some_iff.mp (update_self .. ▸ hsession)
      rw [hinstance, hid]
      rcases hlive before hbefore hlater with hbefore' | hslot
      · exact h.slot ref before hbefore hbefore'
      · exact hslot
    · exact h.slot place session (update_ne _ _ hplace ▸ hsession) hlater

variable (instanceId : String)

theorem Filed.draw (limit : Option ℕ) (opensAuthenticated : Bool)
    (hwrap : registry.nextId ≤ (registry.draw instanceId limit opensAuthenticated).nextId) :
    Filed (registry.draw instanceId limit opensAuthenticated) where
  nextId := by
    have hlength := h.nextId
    simp only [Registry.draw, List.length_append, List.length_singleton] at hwrap ⊢
    omega
  ids ref session hsession := by
    rcases getElem?_concat_eq_some.mp hsession with hold | ⟨hlast, hnew⟩
    · exact h.ids ref session hold
    · rw [hlast, hnew]
      exact h.nextId
  slot ref session hsession hlive := by
    rcases getElem?_concat_eq_some.mp hsession with hold | ⟨-, hnew⟩
    · exact h.slot ref session hold hlive
    · rw [hnew] at hlive
      exact absurd hlive (by simp [Session.live])

theorem Filed.insert (hsession : registry.sessions[ref]? = some session)
    (hphase : session.phase = .opening) : Filed (registry.insert ref session).2 := by
  simp only [Registry.insert]
  -- the session itself is not live yet, so only the slots of the others have to be kept
  have hother : ∀ (place : Ref) (other : Session), registry.sessions[place]? = some other →
      other.live = true → other.id ≠ session.id := by
    intro place other hfound hlive hsame
    have hplace : place = ref :=
      ((h.ids place other hfound).symm.trans hsame).trans (h.ids ref session hsession)
    subst hplace
    obtain rfl := Option.some.inj (hsession.symm.trans hfound)
    simp [Session.live, hphase] at hlive
  split
  · refine Filed.update (h.reenter (fun _ _ hfound hlive hinstance =>
      h.lookup_prune rfl hfound hlive hinstance)) (fun _ => rfl) (fun _ => rfl) ?_
    exact fun _ _ hlive => absurd hlive (by simp [Session.live])
  · refine Filed.update (h.reenter fun place other hfound hlive hinstance => ?_)
      (fun _ => rfl) (fun _ => rfl) fun found hfound _ => .inr ?_
    · rw [AList.lookup_insert_ne (hother place other hfound hlive)]
      exact h.lookup_prune rfl hfound hlive hinstance
    · obtain rfl := Option.some.inj (hsession.symm.trans hfound)
      exact ⟨_, AList.lookup_insert _, AList.lookup_insert _⟩

theorem Filed.active : Filed (registry.active instanceId) := by
  unfold Registry.active
  split
  · exact h
  next entry hentry =>
    exact h.reenter fun _ _ hfound hlive hinstance =>
      h.lookup_prune (by rw [hentry]; rfl) hfound hlive hinstance

theorem Filed.collect : Filed (registry.collect instanceId) := by
  unfold Registry.collect
  split
  · exact h.withCancels _
  next entry hentry =>
    exact h.reenter fun _ _ hfound hlive hinstance =>
      h.lookup_prune (by rw [hentry]; rfl) hfound hlive hinstance

/-- **`cancel` finds every live session of the tenant.** -/
theorem Filed.mem_collect (hsession : registry.sessions[ref]? = some session)
    (hlive : session.live = true) :
    ∃ call, (registry.collect session.instanceId).cancels = registry.cancels ++ [call] ∧
      ref ∈ call.remaining := by
  obtain ⟨entry, hentry, -⟩ := h.slot ref session hsession hlive
  refine ⟨{ sessions := registry.upgraded (registry.pruneDroppedSessions entry) }, ?_, ?_⟩
  · simp [Registry.collect, hentry]
  · exact mem_upgraded (h.lookup_prune (by rw [hentry]; rfl) hsession hlive rfl)
      (strong_of_live hsession hlive)

theorem Filed.flag (index : ℕ) : Filed (registry.flag index) := by
  unfold Registry.flag
  split
  · exact h
  split
  · exact h
  · exact (h.withCancels _).update (fun _ => rfl) (fun _ => rfl) fun _ _ hlive => .inl hlive

variable (hsession : registry.sessions[ref]? = some session)
include hsession

theorem Filed.authenticate (hphase : session.phase = .held) (limit : Option ℕ) :
    Filed (registry.authenticate ref session limit).2 := by
  rcases registry.authenticate_cases ref session limit with hsame | ⟨-, hsame⟩ <;> rw [hsame]
  · exact h
  · refine h.update (fun _ => rfl) (fun _ => rfl) fun found hfound _ => .inl ?_
    obtain rfl := Option.some.inj (hsession.symm.trans hfound)
    simp [Session.live, hphase]

theorem Filed.commit (hphase : session.phase = .authenticating) : Filed (registry.commit ref) := by
  refine h.update (fun _ => rfl) (fun _ => rfl) fun found hfound _ => .inl ?_
  obtain rfl := Option.some.inj (hsession.symm.trans hfound)
  simp [Session.live, hphase]

theorem Filed.drop : Filed (registry.drop ref session) := by
  have hdropped : Filed (registry.update ref fun session => { session with phase := .dropped }) :=
    h.update (fun _ => rfl) (fun _ => rfl) fun _ _ hlive =>
      absurd hlive (by simp [Session.live])
  -- what is still live after the drop is another session, in another slot
  have hother : ∀ (place : Ref) (other : Session),
      (registry.update ref fun session => { session with phase := .dropped }).sessions[place]? =
        some other → other.live = true → other.id ≠ session.id := by
    intro place other hfound hlive hsame
    have hplace : place = ref :=
      ((hdropped.ids place other hfound).symm.trans hsame).trans (h.ids ref session hsession)
    subst hplace
    rw [update_self, hsession] at hfound
    obtain rfl := Option.some.inj hfound
    simp [Session.live] at hlive
  simp only [Registry.drop]
  split
  · exact hdropped
  rename_i entry hentry
  have hrest : ∀ (place : Ref) (other : Session),
      (registry.update ref fun session => { session with phase := .dropped }).sessions[place]? =
        some other → other.live = true → other.instanceId = session.instanceId →
      (entry.erase session.id).lookup other.id = some place := by
    intro place other hfound hlive hinstance
    obtain ⟨found, hlookup, hslot⟩ := hdropped.slot place other hfound hlive
    rw [hinstance] at hlookup
    obtain rfl := Option.some.inj (hentry.symm.trans hlookup)
    rw [AList.lookup_erase_ne (hother place other hfound hlive)]
    exact hslot
  split
  next hempty =>
    refine ⟨hdropped.nextId, hdropped.ids, fun place other hfound hlive => ?_⟩
    obtain ⟨found, hlookup, hslot⟩ := hdropped.slot place other hfound hlive
    refine ⟨found, ?_, hslot⟩
    have hne : other.instanceId ≠ session.instanceId := by
      intro hinstance
      have hmem := AList.mem_lookup_iff.mp (hrest place other hfound hlive hinstance)
      rw [List.isEmpty_iff.mp hempty] at hmem
      exact absurd hmem (by simp)
    exact (AList.lookup_erase_ne hne).trans hlookup
  · exact hdropped.reenter hrest

end Registry

end DatabasesEverywhere.Gateway
