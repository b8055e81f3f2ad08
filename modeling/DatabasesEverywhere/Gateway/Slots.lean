import DatabasesEverywhere.Gateway.Sessions

/-!
# Gateway/Slots — what the registry files is what is live

As long as the ids have not come around, the slots of a tenant are exactly its live sessions, each
filed under its own place (`Exact`).  Pruning then removes nothing, and `authenticated_count` is the
number of live authenticated sessions (`Lists.authenticatedCount_eq`).
-/

open Foundations

namespace DatabasesEverywhere.Gateway

/-! ## The sessions of a tenant -/

namespace Registry

variable (registry : Registry)

/-- The places of the sessions with a property. -/
def sessionsWhere (p : Session → Bool) : Finset Ref :=
  (Finset.range registry.sessions.length).filter fun ref => registry.sessions[ref]?.any p

def liveSessions (instanceId : String) : Finset Ref :=
  registry.sessionsWhere fun session => session.instanceId = instanceId && session.live

def authenticatedSessions (instanceId : String) : Finset Ref :=
  registry.sessionsWhere fun session =>
    session.instanceId = instanceId && session.live && session.authenticated

/-- What a tenant sees of the heap. -/
def sessionsOf (instanceId : String) (ref : Ref) : Option Session :=
  registry.sessions[ref]?.filter fun session => session.instanceId = instanceId

/-- The entry of a tenant, empty if there is none. -/
def slots (instanceId : String) : TenantEntry :=
  (registry.tenants.lookup instanceId).getD ∅

variable {later : Registry} {registry} {p : Session → Bool} {ref : Ref} {session : Session}
  {instanceId : String}

theorem sessionsWhere_congr (h : later.sessions = registry.sessions) :
    later.sessionsWhere p = registry.sessionsWhere p := by
  simp only [sessionsWhere, h]

theorem mem_sessionsWhere :
    ref ∈ registry.sessionsWhere p ↔
      ∃ session, registry.sessions[ref]? = some session ∧ p session = true := by
  simp only [sessionsWhere, Finset.mem_filter, Finset.mem_range, Option.any_eq_true]
  constructor
  · exact fun h => h.2
  · rintro ⟨session, hsession, hp⟩
    exact ⟨(List.getElem?_eq_some_iff.mp hsession).1, session, hsession, hp⟩

theorem mem_sessionsWhere_of (h : registry.sessions[ref]? = some session) :
    ref ∈ registry.sessionsWhere p ↔ p session = true := by
  rw [mem_sessionsWhere, h]
  simp

theorem mem_liveSessions :
    ref ∈ registry.liveSessions instanceId ↔ ∃ session,
      registry.sessions[ref]? = some session ∧ session.instanceId = instanceId ∧
        session.live = true := by
  simp [liveSessions, mem_sessionsWhere]

/-- A session that was drawn has none of the properties yet. -/
theorem sessionsWhere_draw (instanceId : String) (limit : Option ℕ) (opensAuthenticated : Bool)
    (hp : ∀ session : Session, session.phase = .opening → p session = false) :
    (registry.draw instanceId limit opensAuthenticated).sessionsWhere p =
      registry.sessionsWhere p := by
  ext ref
  simp only [mem_sessionsWhere, draw, getElem?_concat_eq_some]
  constructor
  · rintro ⟨session, hold | ⟨-, rfl⟩, hsession⟩
    · exact ⟨session, hold, hsession⟩
    · exact absurd ((hp _ rfl).symm.trans hsession) Bool.false_ne_true
  · rintro ⟨session, hold, hsession⟩
    exact ⟨session, .inl hold, hsession⟩

variable {change : Session → Session}

section Updated

variable (h : registry.sessions[ref]? = some session)
include h

/-- One session changes: whether its place counts after that is up to the session it is now. -/
theorem mem_sessionsWhere_update {place : Ref} :
    place ∈ (registry.update ref change).sessionsWhere p ↔
      place = ref ∧ p (change session) = true ∨ place ≠ ref ∧ place ∈ registry.sessionsWhere p := by
  by_cases hplace : place = ref
  · subst hplace
    rw [mem_sessionsWhere, update_self, h]
    simp
  · simp [mem_sessionsWhere, update_ne registry change (Ne.symm hplace), hplace]

theorem sessionsWhere_update_eq (hp : p (change session) = p session) :
    (registry.update ref change).sessionsWhere p = registry.sessionsWhere p := by
  ext place
  rw [mem_sessionsWhere_update h, hp]
  by_cases hplace : place = ref
  · subst hplace
    simp [mem_sessionsWhere_of h]
  · simp [hplace]

theorem sessionsWhere_update_insert (hp : p (change session) = true) :
    (registry.update ref change).sessionsWhere p =
      Insert.insert ref (registry.sessionsWhere p) := by
  ext place
  rw [mem_sessionsWhere_update h, hp, Finset.mem_insert]
  by_cases hplace : place = ref <;> simp [hplace]

end Updated

theorem sessionsOf_draw {other : String} (limit : Option ℕ) (opensAuthenticated : Bool)
    (hother : instanceId ≠ other) :
    (registry.draw instanceId limit opensAuthenticated).sessionsOf other =
      registry.sessionsOf other := by
  funext ref
  refine Option.ext fun session => ?_
  simp only [sessionsOf, Option.filter_eq_some_iff, draw, getElem?_concat_eq_some]
  constructor
  · rintro ⟨hold | ⟨-, rfl⟩, hsession⟩
    · exact ⟨hold, hsession⟩
    · exact absurd (of_decide_eq_true hsession) hother
  · rintro ⟨hold, hsession⟩
    exact ⟨.inl hold, hsession⟩

theorem sessionsOf_update (h : registry.sessions[ref]? = some session)
    (hchange : (change session).instanceId = session.instanceId) {other : String}
    (hother : session.instanceId ≠ other) :
    (registry.update ref change).sessionsOf other = registry.sessionsOf other := by
  funext place
  by_cases hplace : place = ref
  · subst hplace
    simp [sessionsOf, update_self, h, Option.filter, hchange, hother]
  · simp [sessionsOf, update_ne registry change (Ne.symm hplace)]

/-! ## The files are exact -/

/-- An entry files the live sessions of a tenant, each under its own place. -/
def Lists (registry : Registry) (instanceId : String) (entry : TenantEntry) : Prop :=
  ∀ id ref, entry.lookup id = some ref ↔ id = ref ∧ ref ∈ registry.liveSessions instanceId

structure Exact (registry : Registry) : Prop where
  nextId : registry.nextId = registry.sessions.length
  ids : ∀ (ref : Ref) (session : Session), registry.sessions[ref]? = some session →
    session.id = ref
  lists : ∀ instanceId, registry.Lists instanceId (registry.slots instanceId)

theorem exact_empty : Exact {} := by
  refine ⟨rfl, fun ref session h => by simp at h, fun instanceId id ref => ?_⟩
  simp [slots, liveSessions, sessionsWhere]

theorem slots_insert (tenants : Map String TenantEntry) (entry : TenantEntry) (other : String) :
    ((tenants.insert instanceId entry).lookup other).getD ∅ =
      if other = instanceId then entry else (tenants.lookup other).getD ∅ := by
  rw [Map.lookup_insert_ite]
  split <;> rfl

section Listed

variable {entry : TenantEntry} (h : registry.Lists instanceId entry)
include h

/-- Nothing is pruned from an entry that files live sessions. -/
theorem Lists.prune : registry.Lists instanceId (registry.pruneDroppedSessions entry) := by
  intro id ref
  rw [← h id ref]
  constructor
  · exact Map.lookup_of_retain
  · intro hslot
    obtain ⟨-, hlive⟩ := (h id ref).mp hslot
    obtain ⟨session, hsession, -, hlive⟩ := mem_liveSessions.mp hlive
    exact Map.lookup_retain_of_keep hslot (strong_of_live hsession hlive)

/-- The values of such an entry are its keys. -/
theorem Lists.values : entry.entries.map Sigma.snd = entry.keys := by
  refine List.map_congr_left fun slot hslot => ?_
  exact ((h slot.1 slot.2).mp (AList.mem_lookup_iff.mpr hslot)).1.symm

theorem Lists.mem_upgraded_iff :
    ref ∈ registry.upgraded entry ↔ ref ∈ registry.liveSessions instanceId := by
  constructor
  · intro hmem
    obtain ⟨⟨id, found⟩, hslot, rfl⟩ := List.mem_map.mp (List.mem_filter.mp hmem).1
    exact ((h id found).mp (AList.mem_lookup_iff.mpr hslot)).2
  · intro hlive
    obtain ⟨session, hsession, -, hsome⟩ := mem_liveSessions.mp hlive
    exact mem_upgraded ((h ref ref).mpr ⟨rfl, hlive⟩) (strong_of_live hsession hsome)

/-- **`authenticated_count` is the number of live authenticated sessions.** -/
theorem Lists.authenticatedCount_eq :
    registry.authenticatedCount entry = (registry.authenticatedSessions instanceId).card := by
  have hnodup : (registry.upgraded entry).Nodup := by
    rw [upgraded, h.values]
    exact entry.nodupKeys.filter _
  rw [authenticatedCount, List.countP_eq_length_filter,
    ← List.toFinset_card_of_nodup (hnodup.filter _)]
  congr 1
  ext ref
  rw [List.mem_toFinset, List.mem_filter, h.mem_upgraded_iff, mem_liveSessions]
  simp only [authenticatedSessions, mem_sessionsWhere, Option.any_eq_true, Bool.and_eq_true,
    decide_eq_true_eq]
  constructor
  · rintro ⟨⟨session, hsession, hinstance, hlive⟩, found, hfound, hauthenticated⟩
    obtain rfl := Option.some.inj (hsession.symm.trans hfound)
    exact ⟨session, hsession, ⟨hinstance, hlive⟩, hauthenticated⟩
  · rintro ⟨session, hsession, ⟨hinstance, hlive⟩, hauthenticated⟩
    exact ⟨⟨session, hsession, hinstance, hlive⟩, session, hsession, hauthenticated⟩

end Listed

namespace Exact

/-- The entry of one tenant is written again, with the same live sessions. -/
theorem reenter (h : registry.Exact) {entry : TenantEntry}
    (hentry : registry.Lists instanceId entry) (cancels : List CancelCall) :
    Exact { registry with tenants := registry.tenants.insert instanceId entry, cancels } where
  nextId := h.nextId
  ids := h.ids
  lists other := by
    rw [slots, slots_insert]
    split
    · subst other
      exact hentry
    · exact h.lists other

theorem filed (h : registry.Exact) : registry.Filed where
  nextId := h.nextId
  ids := h.ids
  slot ref session hsession hlive := by
    have hslot := (h.lists session.instanceId ref ref).mpr
      ⟨rfl, mem_liveSessions.mpr ⟨session, hsession, rfl, hlive⟩⟩
    rw [h.ids ref session hsession]
    cases hentry : registry.tenants.lookup session.instanceId with
    | none =>
      rw [slots, hentry] at hslot
      cases hslot
    | some entry =>
      rw [slots, hentry] at hslot
      exact ⟨entry, rfl, hslot⟩

/-- Every live session is filed, and nothing else is. -/
theorem of_filed (h : registry.Filed)
    (hlive : ∀ {instanceId id ref}, (registry.slots instanceId).lookup id = some ref →
      id = ref ∧ ref ∈ registry.liveSessions instanceId) : registry.Exact where
  nextId := h.nextId
  ids := h.ids
  lists instanceId id ref := by
    refine ⟨hlive, ?_⟩
    rintro ⟨rfl, hmem⟩
    obtain ⟨session, hsession, rfl, hlive⟩ := mem_liveSessions.mp hmem
    obtain ⟨entry, hentry, hslot⟩ := h.slot id session hsession hlive
    rw [h.ids id session hsession] at hslot
    rw [slots, hentry]
    exact hslot

/-- A session changes and the same are live. -/
theorem update (h : registry.Exact) (hsession : registry.sessions[ref]? = some session)
    (hid : (change session).id = session.id)
    (hinstance : (change session).instanceId = session.instanceId)
    (hlive : (change session).live = session.live) : Exact (registry.update ref change) where
  nextId := by simpa [Registry.update] using h.nextId
  ids place found hfound := by
    by_cases hplace : ref = place
    · subst hplace
      rw [update_self, hsession] at hfound
      obtain rfl := Option.some.inj hfound
      exact hid.trans (h.ids ref session hsession)
    · exact h.ids place found (update_ne registry change hplace ▸ hfound)
  lists other := by
    have hsame : (registry.update ref change).liveSessions other = registry.liveSessions other :=
      sessionsWhere_update_eq hsession (by simp [hinstance, hlive])
    intro id place
    rw [hsame]
    exact h.lists other id place

theorem draw (h : registry.Exact) (instanceId : String) (limit : Option ℕ)
    (opensAuthenticated : Bool) (hleft : registry.nextId + 1 < 2 ^ 64) :
    Exact (registry.draw instanceId limit opensAuthenticated) where
  nextId := by
    have hlength := h.nextId
    simp only [Registry.draw, List.length_append, List.length_singleton]
    omega
  ids ref session hsession := by
    rcases getElem?_concat_eq_some.mp hsession with hold | ⟨hlast, hnew⟩
    · exact h.ids ref session hold
    · rw [hlast, hnew]
      exact h.nextId
  lists other := by
    have hsame : (registry.draw instanceId limit opensAuthenticated).liveSessions other =
        registry.liveSessions other :=
      sessionsWhere_draw _ _ _ fun session hphase => by simp [Session.live, hphase]
    intro id ref
    rw [hsame]
    exact h.lists other id ref

theorem slots_pruned (h : registry.Exact) (instanceId : String) :
    registry.Lists instanceId (registry.pruneDroppedSessions (registry.slots instanceId)) :=
  (h.lists instanceId).prune

/-- What `insert` compares with the limit. -/
theorem count_eq (h : registry.Exact) (instanceId : String) :
    registry.authenticatedCount (registry.pruneDroppedSessions (registry.slots instanceId)) =
      (registry.authenticatedSessions instanceId).card :=
  (h.slots_pruned instanceId).authenticatedCount_eq

theorem not_live (hsession : registry.sessions[ref]? = some session)
    (hlive : session.live = false) : ref ∉ registry.liveSessions instanceId := by
  rintro hmem
  obtain ⟨found, hfound, -, hfoundLive⟩ := mem_liveSessions.mp hmem
  obtain rfl := Option.some.inj (hsession.symm.trans hfound)
  exact absurd (hlive.symm.trans hfoundLive) Bool.false_ne_true

variable (h : registry.Exact)
include h

theorem insert (hsession : registry.sessions[ref]? = some session)
    (hphase : session.phase = .opening) : Exact (registry.insert ref session).2 := by
  have hopening : session.live = false := by simp [Session.live, hphase]
  have hpruned := h.slots_pruned session.instanceId
  have hfiled := h.filed.insert hsession hphase
  revert hfiled
  unfold Registry.insert
  dsimp only
  split
  · intro _
    have hreentered := h.reenter hpruned registry.cancels
    exact hreentered.update hsession rfl rfl hopening.symm
  refine fun hfiled => of_filed hfiled fun {instanceId id place} hslot => ?_
  -- what is filed is the session itself, or another that was live before
  have hlater : ∀ {change tenants}, place ∈ registry.liveSessions instanceId →
      place ∈ ({ registry with tenants }.update ref change).liveSessions instanceId := by
    intro change tenants hmem
    refine (mem_sessionsWhere_update hsession).mpr (.inr ⟨?_, hmem⟩)
    rintro rfl
    exact not_live hsession hopening hmem
  change (((registry.tenants.insert session.instanceId _).lookup instanceId).getD ∅).lookup id =
    some place at hslot
  rw [slots_insert] at hslot
  split at hslot
  · next hinstance =>
    subst hinstance
    rcases Map.lookup_insert_eq hslot with ⟨rfl, rfl⟩ | ⟨-, hold⟩
    · refine ⟨h.ids place session hsession, (mem_sessionsWhere_update hsession).mpr (.inl ?_)⟩
      simp [Session.live]
    · obtain ⟨hid, hmem⟩ := (hpruned id place).mp hold
      exact ⟨hid, hlater hmem⟩
  · obtain ⟨hid, hmem⟩ := (h.lists instanceId id place).mp hslot
    exact ⟨hid, hlater hmem⟩

theorem drop (hsession : registry.sessions[ref]? = some session) (hlive : session.live = true) :
    Exact (registry.drop ref session) := by
  obtain ⟨entry, hentry, -⟩ := h.filed.slot ref session hsession hlive
  have hfiled := h.filed.drop hsession
  have hslots : ∀ other, (registry.drop ref session).slots other =
      if other = session.instanceId then entry.erase session.id else registry.slots other := by
    intro other
    simp only [Registry.drop, hentry]
    split
    · next hempty =>
      have hentries : entry.erase session.id = ∅ := AList.ext (List.isEmpty_iff.mp hempty)
      rw [hentries]
      by_cases hother : other = session.instanceId
      · rw [if_pos hother, hother, slots, AList.lookup_erase]
        rfl
      · rw [if_neg hother, slots, AList.lookup_erase_ne hother]
        rfl
    · exact slots_insert _ _ _
  refine of_filed hfiled fun {instanceId id place} hslot => ?_
  rw [liveSessions, sessionsWhere_congr (drop_sessions ..), mem_sessionsWhere_update hsession]
  rw [hslots] at hslot
  split at hslot
  · next hinstance =>
    subst hinstance
    have hne : id ≠ session.id := by
      rintro rfl
      rw [AList.lookup_erase] at hslot
      cases hslot
    rw [AList.lookup_erase_ne hne] at hslot
    have hold : (registry.slots session.instanceId).lookup id = some place := by
      rw [slots, hentry]
      exact hslot
    obtain ⟨rfl, hmem⟩ := (h.lists _ id place).mp hold
    exact ⟨rfl, .inr ⟨(h.ids ref session hsession).symm ▸ hne, hmem⟩⟩
  · next hinstance =>
    obtain ⟨rfl, hmem⟩ := (h.lists instanceId id place).mp hslot
    refine ⟨rfl, .inr ⟨?_, hmem⟩⟩
    rintro rfl
    obtain ⟨found, hfound, rfl, -⟩ := mem_liveSessions.mp hmem
    exact hinstance (congrArg Session.instanceId (Option.some.inj (hfound.symm.trans hsession)))

variable (instanceId)

theorem active : Exact (registry.active instanceId) := by
  unfold Registry.active
  split
  · exact h
  · next entry hentry =>
    have hslots : registry.slots instanceId = entry := by rw [slots, hentry]; rfl
    exact h.reenter (hslots ▸ h.slots_pruned instanceId) registry.cancels

theorem collect : Exact (registry.collect instanceId) := by
  unfold Registry.collect
  split
  · exact ⟨h.nextId, h.ids, h.lists⟩
  · next entry hentry =>
    have hslots : registry.slots instanceId = entry := by rw [slots, hentry]; rfl
    exact h.reenter (hslots ▸ h.slots_pruned instanceId) _

end Exact

end Registry

end DatabasesEverywhere.Gateway
