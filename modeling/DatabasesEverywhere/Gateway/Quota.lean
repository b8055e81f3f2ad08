import DatabasesEverywhere.Foundations.Runs
import DatabasesEverywhere.Gateway.Slots

/-!
# Gateway/Quota — the connection quota of a tenant

One registry, any number of callers, and for each tenant one limit that all of them use.  A session
comes to hold quota on two paths, and both compare the limit under the lock with every session that
holds some:

    try_open       draw ─▸ [ prune, compare, file ]
    open_pending   draw ─▸ [ prune, file ] … authenticate [ compare, store ]

**The quota is kept** (`quota_kept`) as long as the 64-bit counter of ids does not come around;
`comeAround_over_quota` is what happens then.
-/

open Foundations

namespace DatabasesEverywhere.Gateway

open Registry

/-! ## The quota -/

variable {registry : Registry} {instanceId : String}

namespace Registry

/-- The sessions that hold quota: authenticated, or about to be. -/
def holders (registry : Registry) (instanceId : String) : Finset Ref :=
  registry.sessionsWhere fun session =>
    session.instanceId = instanceId && session.live &&
      (session.authenticated || session.phase = .authenticating)

variable {later : Registry} {ref : Ref} {session : Session}

theorem locked_eq_false_iff : registry.locked = false ↔
    ∀ (ref : Ref) (session : Session), registry.sessions[ref]? = some session →
      session.phase ≠ .authenticating := by
  simp only [locked, List.any_eq_false, decide_eq_true_eq]
  constructor
  · exact fun h ref session hsession => h session (List.mem_of_getElem? hsession)
  · intro h session hmem
    obtain ⟨ref, hsession⟩ := List.mem_iff_getElem?.mp hmem
    exact h ref session hsession

theorem unlocked_draw (h : registry.locked = false) (instanceId : String) (limit : Option ℕ)
    (opensAuthenticated : Bool) :
    (registry.draw instanceId limit opensAuthenticated).locked = false := by
  simpa [locked, draw] using h

theorem unlocked_update (h : registry.locked = false)
    (hsession : registry.sessions[ref]? = some session) {change : Session → Session}
    (hphase : (change session).phase ≠ .authenticating) :
    (registry.update ref change).locked = false := by
  refine locked_eq_false_iff.mpr fun place found hfound => ?_
  by_cases hplace : ref = place
  · subst hplace
    rw [update_self, hsession] at hfound
    obtain rfl := Option.some.inj hfound
    exact hphase
  · rw [update_ne _ _ hplace] at hfound
    exact locked_eq_false_iff.mp h place found hfound

theorem authenticatedSessions_subset_holders (registry : Registry) (instanceId : String) :
    registry.authenticatedSessions instanceId ⊆ registry.holders instanceId := by
  intro ref hmem
  obtain ⟨session, hsession, hp⟩ := mem_sessionsWhere.mp hmem
  refine mem_sessionsWhere.mpr ⟨session, hsession, ?_⟩
  simp only [Bool.and_eq_true, Bool.or_eq_true] at hp ⊢
  exact ⟨hp.1, .inl hp.2⟩

/-- While the lock is free nobody is about to be authenticated. -/
theorem holders_of_unlocked (hlock : registry.locked = false) (instanceId : String) :
    registry.holders instanceId = registry.authenticatedSessions instanceId := by
  refine Finset.Subset.antisymm (fun ref hmem => ?_) (authenticatedSessions_subset_holders _ _)
  obtain ⟨session, hsession, hp⟩ := mem_sessionsWhere.mp hmem
  have hphase := locked_eq_false_iff.mp hlock ref session hsession
  refine mem_sessionsWhere.mpr ⟨session, hsession, ?_⟩
  simpa [hphase] using hp

/-- Every tenant is within its limit. -/
def WithinQuota (limits : String → Option ℕ) (registry : Registry) : Prop :=
  ∀ instanceId limit, limits instanceId = some limit → (registry.holders instanceId).card ≤ limit

namespace WithinQuota

variable {limits : String → Option ℕ} {change : Session → Session}

variable (h : registry.WithinQuota limits)
include h

/-- One session changes and holds as much quota as before, or less. -/
theorem update (hsession : registry.sessions[ref]? = some session)
    (hinstance : (change session).instanceId = session.instanceId)
    (hholds : (change session).live = true →
      (change session).authenticated = true ∨ (change session).phase = .authenticating →
      session.live = true ∧ (session.authenticated = true ∨ session.phase = .authenticating)) :
    (registry.update ref change).WithinQuota limits := by
  intro instanceId limit hlimit
  refine (Finset.card_le_card fun place hmem => ?_).trans (h instanceId limit hlimit)
  rcases (mem_sessionsWhere_update hsession).mp hmem with ⟨rfl, hp⟩ | ⟨-, hold⟩
  · refine (mem_sessionsWhere_of hsession).mpr ?_
    simp only [hinstance, Bool.and_eq_true, Bool.or_eq_true, decide_eq_true_eq] at hp ⊢
    obtain ⟨hlive, hauthenticated⟩ := hholds hp.1.2 hp.2
    exact ⟨⟨hp.1.1, hlive⟩, hauthenticated⟩
  · exact hold

/-- **One session comes to hold quota**, and there was room for it. -/
theorem admitted (hsession : registry.sessions[ref]? = some session)
    (hinstance : (change session).instanceId = session.instanceId) (hlock : registry.locked = false)
    (hroom : ∀ limit, limits session.instanceId = some limit →
      (registry.authenticatedSessions session.instanceId).card < limit) :
    (registry.update ref change).WithinQuota limits := by
  intro instanceId limit hlimit
  by_cases hsame : instanceId = session.instanceId
  swap
  · refine (Finset.card_le_card fun place hmem => ?_).trans (h instanceId limit hlimit)
    rcases (mem_sessionsWhere_update hsession).mp hmem with ⟨-, hp⟩ | ⟨-, hold⟩
    · simp only [hinstance, Bool.and_eq_true, decide_eq_true_eq] at hp
      exact absurd hp.1.1.symm hsame
    · exact hold
  subst hsame
  have hsubset : (registry.update ref change).holders session.instanceId ⊆
      Insert.insert ref (registry.authenticatedSessions session.instanceId) := by
    intro place hmem
    rcases (mem_sessionsWhere_update hsession).mp hmem with ⟨rfl, -⟩ | ⟨-, hold⟩
    · exact Finset.mem_insert_self _ _
    · rw [← holders_of_unlocked hlock]
      exact Finset.mem_insert_of_mem hold
  calc ((registry.update ref change).holders session.instanceId).card
      ≤ (Insert.insert ref (registry.authenticatedSessions session.instanceId)).card :=
        Finset.card_le_card hsubset
    _ ≤ (registry.authenticatedSessions session.instanceId).card + 1 := Finset.card_insert_le _ _
    _ ≤ limit := hroom limit hlimit

theorem congr (hsessions : later.sessions = registry.sessions) :
    later.WithinQuota limits := fun instanceId limit hlimit => by
  rw [holders, sessionsWhere_congr hsessions]
  exact h instanceId limit hlimit

theorem draw (instanceId : String) (limit : Option ℕ) (opensAuthenticated : Bool) :
    (registry.draw instanceId limit opensAuthenticated).WithinQuota limits := by
  intro other bound hbound
  rw [holders, sessionsWhere_draw _ _ _ fun session hphase => by simp [Session.live, hphase]]
  exact h other bound hbound

/-- `insert` compares the limit with the sessions that hold quota. -/
theorem insert (hexact : registry.Exact) (hsession : registry.sessions[ref]? = some session)
    (hlock : registry.locked = false)
    (hasked : session.opensAuthenticated = true → session.limit = limits session.instanceId) :
    (registry.insert ref session).2.WithinQuota limits := by
  have hcount := hexact.count_eq session.instanceId
  rw [slots] at hcount
  unfold Registry.insert
  dsimp only
  split
  · exact (h.congr rfl).update hsession rfl fun hlive => by simp [Session.live] at hlive
  next hcheck =>
  cases hopens : session.opensAuthenticated with
  | false =>
    refine (h.congr rfl).update hsession rfl fun _ hholds => ?_
    simp [hopens] at hholds
  | true =>
    refine (h.congr rfl).admitted hsession rfl hlock fun limit hlimit => ?_
    rw [hasked hopens, hlimit, hcount, Option.filter_eq_none_iff] at hcheck
    simpa using hcheck limit rfl

/-- So does `authenticate`. -/
theorem authenticate (hexact : registry.Exact) (hsession : registry.sessions[ref]? = some session)
    (hlock : registry.locked = false) :
    (registry.authenticate ref session (limits session.instanceId)).2.WithinQuota limits := by
  unfold Registry.authenticate
  split
  · exact h
  next entry hentry =>
  have hslots : registry.slots session.instanceId = entry := by rw [slots, hentry]; rfl
  have hcount := (hslots ▸ hexact.lists session.instanceId :
    registry.Lists session.instanceId entry).authenticatedCount_eq
  split
  · exact h
  split
  · exact h
  split
  · exact h
  · next hcheck =>
    refine h.admitted hsession rfl hlock fun limit hlimit => ?_
    rw [hlimit, hcount, Option.filter_eq_none_iff] at hcheck
    simpa using hcheck limit rfl

end WithinQuota

/-- An `authenticate` that answers before its store has changed nothing. -/
theorem authenticate_answered {limit : Option ℕ} {answer : Except AuthenticateError Unit}
    (h : (registry.authenticate ref session limit).1 = some answer) :
    (registry.authenticate ref session limit).2 = registry := by
  unfold authenticate at h ⊢
  split
  · rfl
  next hentry =>
  simp only [hentry] at h
  split
  · rfl
  next hcancelled =>
  rw [if_neg hcancelled] at h
  split
  · rfl
  next hauthenticated =>
  rw [if_neg hauthenticated] at h
  split
  · rfl
  · next hcheck =>
    simp only [hcheck] at h
    cases h

end Registry

/-! ## Callers of one registry -/

/-- The registry, and the tenants that `cancel` was called for. -/
structure TenantSessions where
  registry : Registry := {}
  cancelled : List String := []

/-- One turn of one caller; a call is split at its lock and at its stores. -/
inductive SessionAction
  | tryOpen (instanceId : String)
  | openPending (instanceId : String)
  | insert (ref : Ref)
  | authenticate (ref : Ref)
  | commit (ref : Ref)
  | cancel (instanceId : String)
  | flag (index : ℕ)
  | active (instanceId : String)
  | drop (ref : Ref)

namespace TenantSessions

/-- The session of a caller that may take the lock now. -/
def ready (s : TenantSessions) (ref : Ref) (phase : Phase) : Option Session :=
  if s.registry.locked then none
  else s.registry.sessions[ref]?.filter fun session => session.phase = phase

variable (limits : String → Option ℕ)

/-- A caller that has to wait for the lock does nothing. -/
def step (s : TenantSessions) : SessionAction → TenantSessions
  | .tryOpen instanceId =>
    { s with registry := s.registry.draw instanceId (limits instanceId) true }
  | .openPending instanceId => { s with registry := s.registry.draw instanceId none false }
  | .insert ref =>
    match s.ready ref .opening with
    | none => s
    | some session => { s with registry := (s.registry.insert ref session).2 }
  | .authenticate ref =>
    match s.ready ref .held with
    | none => s
    | some session =>
      { s with registry := (s.registry.authenticate ref session (limits session.instanceId)).2 }
  | .commit ref =>
    match s.registry.sessions[ref]?.filter fun session => session.phase = .authenticating with
    | none => s
    | some _ => { s with registry := s.registry.commit ref }
  | .cancel instanceId =>
    if s.registry.locked then s
    else ⟨s.registry.collect instanceId, s.cancelled ++ [instanceId]⟩
  | .flag index => { s with registry := s.registry.flag index }
  | .active instanceId =>
    if s.registry.locked then s else { s with registry := s.registry.active instanceId }
  | .drop ref =>
    match s.ready ref .held with
    | none => s
    | some session => { s with registry := s.registry.drop ref session }

/-- The tenant that a turn is about. -/
def tenantOf (s : TenantSessions) : SessionAction → Option String
  | .tryOpen instanceId | .openPending instanceId | .cancel instanceId | .active instanceId =>
    some instanceId
  | .insert ref | .authenticate ref | .commit ref | .drop ref =>
    s.registry.sessions[ref]?.map (·.instanceId)
  | .flag index => s.cancelled[index]?

/-- The turn ends a call of `try_open` or of `authenticate` with an error. -/
def rejects (s : TenantSessions) : SessionAction → Bool
  | .insert ref =>
    (s.ready ref .opening).any fun session => !(s.registry.insert ref session).1.isOk
  | .authenticate ref =>
    (s.ready ref .held).any fun session =>
      (s.registry.authenticate ref session (limits session.instanceId)).1.any fun answer =>
        !answer.isOk
  | _ => false

/-- The turn draws an id, and the counter does not come around. -/
def IdsLeft (s : TenantSessions) : SessionAction → Prop
  | .tryOpen _ | .openPending _ => s.registry.nextId + 1 < 2 ^ 64
  | _ => True

instance (s : TenantSessions) : ∀ action, Decidable (s.IdsLeft action)
  | .tryOpen _ | .openPending _ => inferInstanceAs (Decidable (_ < _))
  | .insert _ | .authenticate _ | .commit _ | .cancel _ | .flag _ | .active _ | .drop _ =>
    inferInstanceAs (Decidable True)

variable {limits} {s : TenantSessions} {ref : Ref} {session : Session}

theorem ready_eq_some {phase : Phase} (h : s.ready ref phase = some session) :
    s.registry.locked = false ∧ s.registry.sessions[ref]? = some session ∧
      session.phase = phase := by
  unfold ready at h
  split at h
  · cases h
  · next hlock =>
    obtain ⟨hsession, hphase⟩ := Option.filter_eq_some_iff.mp h
    exact ⟨Bool.eq_false_iff.mpr hlock, hsession, of_decide_eq_true hphase⟩

/-! ## Every turn -/

/-- What holds at every turn. -/
structure Kept (limits : String → Option ℕ) (s : TenantSessions) : Prop where
  exact : s.registry.Exact
  quota : s.registry.WithinQuota limits
  asked : ∀ (ref : Ref) (session : Session), s.registry.sessions[ref]? = some session →
    session.phase = .opening → session.opensAuthenticated = true →
    session.limit = limits session.instanceId
  cancels : s.registry.cancels.length = s.cancelled.length
  caught : ∀ (index : ℕ) (call : CancelCall) (instanceId : String),
    s.registry.cancels[index]? = some call → s.cancelled[index]? = some instanceId →
    ∀ ref ∈ call.sessions, ∃ session, s.registry.sessions[ref]? = some session ∧
      session.instanceId = instanceId

theorem kept_start : Kept limits {} := by
  refine ⟨exact_empty, fun instanceId limit _ => ?_, fun ref session h => ?_, rfl,
    fun index call instanceId h => ?_⟩
  · simp [Registry.holders, Registry.sessionsWhere]
  · simp at h
  · simp at h

namespace Kept

variable (h : s.Kept limits)
include h

/-- The sessions are those of before, one step later, and no new one asks for a limit. -/
theorem pass (hexact : registry.Exact) (hquota : registry.WithinQuota limits)
    (hcontinues : s.registry.Continues registry) (hcancels : registry.cancels = s.registry.cancels)
    (hasked : ∀ (ref : Ref) (session : Session), registry.sessions[ref]? = some session →
      session.phase = .opening → session.opensAuthenticated = true →
      session.limit = limits session.instanceId) : Kept limits { s with registry } := by
  refine ⟨hexact, hquota, hasked, hcancels ▸ h.cancels, fun index call instanceId hcall htenant ref
    hmem => ?_⟩
  obtain ⟨session, hsession, hinstance⟩ :=
    h.caught index call instanceId (hcancels ▸ hcall) htenant ref hmem
  obtain ⟨after, hafter, hlater⟩ := hcontinues ref session hsession
  exact ⟨after, hafter, hlater.sameInstance.trans hinstance⟩

/-- A session that changes still asks for the limit, or is past its opening. -/
theorem asked_update {change : Session → Session}
    (hsession : s.registry.sessions[ref]? = some session)
    (hasked : (change session).phase = .opening → (change session).opensAuthenticated = true →
      (change session).limit = limits (change session).instanceId) (place : Ref) (found : Session)
    (hfound : (s.registry.update ref change).sessions[place]? = some found)
    (hopening : found.phase = .opening) (hopens : found.opensAuthenticated = true) :
    found.limit = limits found.instanceId := by
  by_cases hplace : ref = place
  · subst hplace
    rw [update_self, hsession] at hfound
    obtain rfl := Option.some.inj hfound
    exact hasked hopening hopens
  · rw [update_ne _ _ hplace] at hfound
    exact h.asked place found hfound hopening hopens

variable (instanceId : String)

theorem draw (limit : Option ℕ) (authenticated : Bool) (hleft : s.registry.nextId + 1 < 2 ^ 64)
    (hlimit : authenticated = true → limit = limits instanceId) :
    Kept limits { s with registry := s.registry.draw instanceId limit authenticated } := by
  refine h.pass (h.exact.draw _ _ _ hleft) (h.quota.draw _ _ _)
    (draw_continues _ _ _ _) rfl fun ref session hsession hopening hopens => ?_
  rcases getElem?_concat_eq_some.mp hsession with hold | ⟨-, rfl⟩
  · exact h.asked ref session hold hopening hopens
  · exact hlimit hopens

theorem insert (hready : s.ready ref .opening = some session) :
    Kept limits { s with registry := (s.registry.insert ref session).2 } := by
  obtain ⟨hlock, hsession, hphase⟩ := ready_eq_some hready
  refine h.pass (h.exact.insert hsession hphase)
    (h.quota.insert h.exact hsession hlock (h.asked ref session hsession hphase))
    (insert_continues hsession hphase) (insert_cancels _ _ _) ?_
  unfold Registry.insert
  dsimp only
  split
  all_goals exact h.asked_update hsession (by simp)

theorem authenticate (hready : s.ready ref .held = some session) :
    Kept limits { s with
      registry := (s.registry.authenticate ref session (limits session.instanceId)).2 } := by
  obtain ⟨hlock, hsession, hphase⟩ := ready_eq_some hready
  refine h.pass ?_ (h.quota.authenticate h.exact hsession hlock)
    (authenticate_continues hsession hphase _) (authenticate_cancels _ _ _ _) ?_
  all_goals rcases s.registry.authenticate_cases ref session (limits session.instanceId) with
    hsame | ⟨-, hsame⟩ <;> rw [hsame]
  · exact h.exact
  · exact h.exact.update hsession rfl rfl (by simp [Session.live, hphase])
  · exact h.asked
  · exact h.asked_update hsession (by simp)

theorem commit (hsession : s.registry.sessions[ref]? = some session)
    (hphase : session.phase = .authenticating) :
    Kept limits { s with registry := s.registry.commit ref } := by
  refine h.pass (h.exact.update hsession rfl rfl (by simp [Session.live, hphase]))
    (h.quota.update hsession rfl fun _ _ => ⟨by simp [Session.live, hphase], .inr hphase⟩)
    (commit_continues hsession hphase) rfl ?_
  exact h.asked_update hsession (by simp)

theorem drop (hready : s.ready ref .held = some session) :
    Kept limits { s with registry := s.registry.drop ref session } := by
  obtain ⟨-, hsession, hphase⟩ := ready_eq_some hready
  have hquota := @Registry.WithinQuota.update s.registry ref session limits
    (fun session => { session with phase := .dropped }) h.quota hsession rfl
    fun hlive => by simp [Session.live] at hlive
  refine h.pass (h.exact.drop hsession (by simp [Session.live, hphase]))
    (hquota.congr (s.registry.drop_sessions ref session)) (drop_continues _ _ _)
    (drop_cancels _ _ _) ?_
  rw [drop_sessions]
  exact h.asked_update hsession (by simp)

theorem active : Kept limits { s with registry := s.registry.active instanceId } := by
  have hsessions := s.registry.active_sessions instanceId
  refine h.pass (h.exact.active instanceId) (h.quota.congr hsessions)
    (active_continues _ _) ?_ (hsessions ▸ h.asked)
  unfold Registry.active
  split <;> rfl

/-- A call of `cancel` flags a session of the tenant that it was called for. -/
theorem flagged {index : ℕ} {call : CancelCall} {rest : List Ref}
    (hcall : s.registry.cancels[index]? = some call) (hremaining : call.remaining = ref :: rest) :
    ∃ session, s.registry.sessions[ref]? = some session ∧
      s.cancelled[index]? = some session.instanceId := by
  have hmem : ref ∈ call.sessions := List.mem_of_mem_drop (hremaining ▸ List.mem_cons_self)
  have hlt : index < s.cancelled.length := h.cancels ▸ (List.getElem?_eq_some_iff.mp hcall).1
  have htenant := List.getElem?_eq_getElem hlt
  obtain ⟨session, hsession, hinstance⟩ := h.caught index call _ hcall htenant ref hmem
  exact ⟨session, hsession, hinstance ▸ htenant⟩

theorem flag (index : ℕ) : Kept limits { s with registry := s.registry.flag index } := by
  unfold Registry.flag
  split
  · exact h
  next call hcall =>
  split
  · exact h
  next ref rest hremaining =>
  obtain ⟨session, hsession, -⟩ := h.flagged hcall hremaining
  have hexact : Registry.Exact { s.registry with
      cancels := s.registry.cancels.set index { call with flagged := call.flagged + 1 } } :=
    ⟨h.exact.nextId, h.exact.ids, h.exact.lists⟩
  refine ⟨hexact.update hsession rfl rfl rfl,
    (h.quota.congr rfl).update hsession rfl fun hlive hholds => ⟨hlive, hholds⟩,
    h.asked_update hsession (h.asked ref session hsession),
    by simpa [Registry.update] using h.cancels,
    fun other found instanceId hfound htenant place hplace => ?_⟩
  · -- the call has the sessions that it had
    have hbefore : ∃ before, s.registry.cancels[other]? = some before ∧
        before.sessions = found.sessions := by
      simp only [Registry.update, List.getElem?_set] at hfound
      split at hfound
      · next hother =>
        subst hother
        split at hfound
        · obtain rfl := Option.some.inj hfound
          exact ⟨call, hcall, rfl⟩
        · cases hfound
      · exact ⟨found, hfound, rfl⟩
    obtain ⟨before, hbefore, hsessions⟩ := hbefore
    obtain ⟨session', hsession', hinstance⟩ :=
      h.caught other before instanceId hbefore htenant place (hsessions ▸ hplace)
    by_cases hsame : ref = place
    · subst hsame
      rw [update_self, hsession']
      exact ⟨_, rfl, hinstance⟩
    · rw [update_ne _ _ hsame]
      exact ⟨session', hsession', hinstance⟩

theorem collect : Kept limits ⟨s.registry.collect instanceId, s.cancelled ++ [instanceId]⟩ := by
  have hsessions := s.registry.collect_sessions instanceId
  obtain ⟨call, hcancels, hcall⟩ : ∃ call,
      (s.registry.collect instanceId).cancels = s.registry.cancels ++ [call] ∧
      ∀ ref ∈ call.sessions, ref ∈ s.registry.liveSessions instanceId := by
    unfold Registry.collect
    split
    · exact ⟨_, rfl, fun _ hmem => absurd hmem List.not_mem_nil⟩
    · next entry hentry =>
      have hslots : s.registry.slots instanceId = entry := by rw [Registry.slots, hentry]; rfl
      have hlists := hslots ▸ h.exact.slots_pruned instanceId
      exact ⟨_, rfl, fun _ hmem => hlists.mem_upgraded_iff.mp hmem⟩
  refine ⟨h.exact.collect instanceId, h.quota.congr hsessions, hsessions ▸ h.asked, ?_,
    fun index found tenant hfound htenant ref hmem => ?_⟩
  · rw [hcancels, List.length_append, List.length_append, h.cancels]
    rfl
  rw [hcancels] at hfound
  rw [hsessions]
  rcases getElem?_concat_eq_some.mp hfound with hold | ⟨rfl, rfl⟩
  · rcases getElem?_concat_eq_some.mp htenant with htenant | ⟨hindex, -⟩
    · exact h.caught index found tenant hold htenant ref hmem
    · have hlt := (List.getElem?_eq_some_iff.mp hold).1
      have := h.cancels
      omega
  · rw [h.cancels, List.getElem?_concat_length] at htenant
    obtain rfl := Option.some.inj htenant
    obtain ⟨session, hsession, hinstance, -⟩ := mem_liveSessions.mp (hcall ref hmem)
    exact ⟨session, hsession, hinstance⟩

/-- **Every turn keeps it.** -/
theorem step {action : SessionAction} (hleft : s.IdsLeft action) :
    (s.step limits action).Kept limits := by
  cases action with
  | tryOpen instanceId => exact h.draw instanceId _ true hleft fun _ => rfl
  | openPending instanceId => exact h.draw instanceId none false hleft (by simp)
  | flag index => exact h.flag index
  | _ =>
    -- a caller that has to wait does nothing
    simp only [TenantSessions.step]
    split
    · exact h
    next hready =>
    first
    | exact h.insert hready
    | exact h.authenticate hready
    | exact h.commit (Option.filter_eq_some_iff.mp hready).1
        (of_decide_eq_true (Option.filter_eq_some_iff.mp hready).2)
    | exact h.collect _
    | exact h.active _
    | exact h.drop hready

end Kept

/-! ## Rejected calls and other tenants -/

/-- **A rejected call changes nothing**: the same sessions are live, and the same authenticated. -/
theorem rejected_unchanged {action : SessionAction} (h : s.rejects limits action = true)
    (instanceId : String) :
    (s.step limits action).registry.liveSessions instanceId =
        s.registry.liveSessions instanceId ∧
      (s.step limits action).registry.authenticatedSessions instanceId =
        s.registry.authenticatedSessions instanceId := by
  cases action with
  | insert ref =>
    obtain ⟨session, hready, herror⟩ := (Option.any_eq_true ..).mp h
    obtain ⟨-, hsession, hphase⟩ := ready_eq_some hready
    simp only [step, hready]
    simp only [Registry.insert] at herror ⊢
    split at herror
    · next hlimit =>
      exact ⟨sessionsWhere_update_eq hsession (by simp [Session.live, hphase]),
        sessionsWhere_update_eq hsession (by simp [Session.live, hphase])⟩
    · cases herror
  | authenticate ref =>
    obtain ⟨session, hready, herror⟩ := (Option.any_eq_true ..).mp h
    obtain ⟨answer, hanswer, -⟩ := (Option.any_eq_true ..).mp herror
    simp only [step, hready, authenticate_answered hanswer, and_self]
  | _ => cases h

/-- **Other tenants are left alone.** -/
theorem sessionsOf_step (h : s.Kept limits) (action : SessionAction) {other : String}
    (hother : s.tenantOf action ≠ some other) :
    (s.step limits action).registry.sessionsOf other = s.registry.sessionsOf other := by
  have hsame : ∀ {registry : Registry}, registry.sessions = s.registry.sessions →
      registry.sessionsOf other = s.registry.sessionsOf other := by
    intro registry hsessions
    unfold Registry.sessionsOf
    rw [hsessions]
  have hdiffers : ∀ {ref : Ref} {session : Session}, s.registry.sessions[ref]? = some session →
      s.registry.sessions[ref]?.map (·.instanceId) ≠ some other →
      session.instanceId ≠ other := by
    rintro ref session hsession hne rfl
    rw [hsession] at hne
    exact hne rfl
  cases action with
  | tryOpen | openPending =>
    exact sessionsOf_draw _ _ fun heq => hother (congrArg some heq)
  | insert ref =>
    simp only [step]
    split
    · rfl
    next session hready =>
    obtain ⟨-, hsession, -⟩ := ready_eq_some hready
    have hne := hdiffers hsession hother
    unfold Registry.insert
    dsimp only
    split
    all_goals exact sessionsOf_update hsession rfl hne
  | authenticate ref =>
    simp only [step]
    split
    · rfl
    next session hready =>
    obtain ⟨-, hsession, -⟩ := ready_eq_some hready
    rcases s.registry.authenticate_cases ref session (limits session.instanceId) with
      hsame | ⟨-, hsame⟩ <;> rw [hsame]
    exact sessionsOf_update hsession rfl (hdiffers hsession hother)
  | commit ref =>
    simp only [step]
    split
    · rfl
    · next session hfound =>
      obtain ⟨hsession, -⟩ := Option.filter_eq_some_iff.mp hfound
      exact sessionsOf_update hsession rfl (hdiffers hsession hother)
  | cancel instanceId =>
    simp only [step]
    split
    · rfl
    · exact hsame (s.registry.collect_sessions instanceId)
  | flag index =>
    simp only [step]
    unfold Registry.flag
    split
    · rfl
    next call hcall =>
    split
    · rfl
    next ref rest hremaining =>
    obtain ⟨session, hsession, htenant⟩ := h.flagged hcall hremaining
    have hne : session.instanceId ≠ other := fun heq => hother (htenant.trans (congrArg some heq))
    exact sessionsOf_update hsession rfl hne
  | active instanceId =>
    simp only [step]
    split
    · rfl
    · exact hsame (s.registry.active_sessions instanceId)
  | drop ref =>
    simp only [step]
    split
    · rfl
    next session hready =>
    obtain ⟨-, hsession, -⟩ := ready_eq_some hready
    have hne := hdiffers hsession hother
    unfold Registry.sessionsOf
    rw [drop_sessions]
    exact sessionsOf_update hsession rfl hne

/-! ## The quota is available -/

/-- With room, `insert` files the session. -/
theorem step_insert (hlock : s.registry.locked = false)
    (hsession : s.registry.sessions[ref]? = some session) (hphase : session.phase = .opening)
    (hroom : ∀ limit, session.limit = some limit → s.registry.authenticatedCount
      (s.registry.pruneDroppedSessions (s.registry.slots session.instanceId)) < limit) :
    s.step limits (.insert ref) = { s with
      registry := { s.registry with
        tenants := s.registry.tenants.insert session.instanceId
          ((s.registry.pruneDroppedSessions (s.registry.slots session.instanceId)).insert
            session.id ref)
        }.update ref fun session =>
          { session with phase := .held, authenticated := session.opensAuthenticated } } := by
  have hready : s.ready ref .opening = some session := by
    rw [ready, if_neg (Bool.eq_false_iff.mp hlock), hsession]
    exact Option.filter_some_pos (by simp [hphase])
  have hcheck : session.limit.filter (fun limit => limit ≤ s.registry.authenticatedCount
      (s.registry.pruneDroppedSessions ((s.registry.tenants.lookup session.instanceId).getD ∅))) =
      none := by
    refine Option.filter_eq_none_iff.mpr fun limit hlimit => ?_
    simpa [Registry.slots] using hroom limit hlimit
  simp only [step, hready, Registry.insert, hcheck]
  rfl

/-- One caller after the other opens a session; the first is to stand at `place`. -/
def openings (instanceId : String) (place : Ref) : ℕ → List SessionAction
  | 0 => []
  | count + 1 => .tryOpen instanceId :: .insert place :: openings instanceId (place + 1) count

/-- With room left, a session is opened. -/
theorem opens (h : s.Kept limits) (hlock : s.registry.locked = false)
    (hroom : ∀ limit, limits instanceId = some limit →
      (s.registry.authenticatedSessions instanceId).card < limit)
    (hleft : s.registry.nextId + 1 < 2 ^ 64) (s' : TenantSessions)
    (hs' : s' = run (step limits) s [.tryOpen instanceId, .insert s.registry.sessions.length]) :
    s'.Kept limits ∧ s'.registry.locked = false ∧
      s'.registry.sessions.length = s.registry.sessions.length + 1 ∧
      (s'.registry.authenticatedSessions instanceId).card =
        (s.registry.authenticatedSessions instanceId).card + 1 := by
  subst hs'
  set ref := s.registry.sessions.length with href
  let session : Session := ⟨instanceId, s.registry.nextId, limits instanceId, true, .opening, false,
    false⟩
  let registry := s.registry.draw instanceId (limits instanceId) true
  have hkept : Kept limits { s with registry } := h.draw instanceId _ true hleft fun _ => rfl
  have hsession : registry.sessions[ref]? = some session := List.getElem?_concat_length
  have hopening : registry.locked = false := unlocked_draw hlock _ _ _
  have hsame : registry.authenticatedSessions instanceId =
      s.registry.authenticatedSessions instanceId :=
    sessionsWhere_draw _ _ _ fun found hphase => by simp [Session.live, hphase]
  have hstep := @step_insert limits { s with registry } ref session hopening hsession rfl
    fun limit hlimit => by
      rw [hkept.exact.count_eq instanceId, hsame]
      exact hroom limit hlimit
  have hnext := @Kept.step limits { s with registry } hkept (.insert ref) trivial
  have hnotin : ref ∉ registry.authenticatedSessions instanceId := fun hmem => by
    simp [Registry.authenticatedSessions, mem_sessionsWhere_of hsession, session,
      Session.live] at hmem
  have hrun : run (step limits) s [.tryOpen instanceId, .insert ref] =
    step limits { s with registry } (.insert ref) := rfl
  rw [hrun]
  refine ⟨hnext, ?_⟩
  rw [hstep]
  refine ⟨unlocked_update hopening hsession (by simp), ?_, ?_⟩
  · simp [Registry.update, registry, Registry.draw, href]
  · rw [← hsame, ← Finset.card_insert_of_notMem hnotin]
    exact congrArg Finset.card
      (sessionsWhere_update_insert hsession (by simp [session, Session.live]))

theorem openings_run {limit : ℕ} (hlimit : limits instanceId = some limit) :
    ∀ (count : ℕ) {s : TenantSessions}, s.Kept limits → s.registry.locked = false →
      (s.registry.authenticatedSessions instanceId).card + count ≤ limit →
      RunsWithin (step limits) IdsLeft s
        (openings instanceId s.registry.sessions.length count) →
      ((run (step limits) s (openings instanceId s.registry.sessions.length
        count)).registry.authenticatedSessions instanceId).card =
        (s.registry.authenticatedSessions instanceId).card + count
  | 0, _, _, _, _, _ => rfl
  | count + 1, s, h, hlock, hroom, hrun => by
    obtain ⟨hleft, -, hrest⟩ := hrun
    obtain ⟨hkept, hlock', hlength, hcard⟩ := opens h hlock
      (fun bound hbound => by
        obtain rfl := Option.some.inj (hlimit.symm.trans hbound)
        omega) hleft _ rfl
    rw [← hlength] at hrest
    have ih := openings_run hlimit count hkept hlock' (by omega) hrest
    rw [hlength] at ih
    exact ih.trans (by omega)

end TenantSessions

open TenantSessions

/-- **The quota is kept**, in every run in which the ids do not come around: no tenant has more live
authenticated sessions than its limit; a rejected call leaves the live and the authenticated sessions
of every tenant alone; a turn changes sessions of its own tenant only; and when a tenant has no live
session left, it can open as many as its limit says. -/
theorem quota_kept (limits : String → Option ℕ) (actions : List SessionAction)
    (h : RunsWithin (step limits) IdsLeft {} actions) (s : TenantSessions)
    (hs : s = run (step limits) {} actions) :
    (∀ instanceId limit, limits instanceId = some limit →
      (s.registry.authenticatedSessions instanceId).card ≤ limit) ∧
    (∀ action, s.rejects limits action = true → ∀ instanceId,
      (s.step limits action).registry.liveSessions instanceId =
          s.registry.liveSessions instanceId ∧
        (s.step limits action).registry.authenticatedSessions instanceId =
          s.registry.authenticatedSessions instanceId) ∧
    (∀ action other, s.tenantOf action ≠ some other →
      (s.step limits action).registry.sessionsOf other = s.registry.sessionsOf other) ∧
    ∀ instanceId limit, limits instanceId = some limit →
      s.registry.liveSessions instanceId = ∅ → s.registry.locked = false → ∀ count ≤ limit,
      RunsWithin (step limits) IdsLeft s
        (openings instanceId s.registry.sessions.length count) →
      ((run (step limits) s (openings instanceId s.registry.sessions.length
        count)).registry.authenticatedSessions instanceId).card = count := by
  have hkept : s.Kept limits := by
    rw [hs]
    exact RunsWithin.invariant (fun _ _ h hleft => h.step hleft) actions kept_start h
  refine ⟨fun instanceId limit hlimit => ?_, fun action => rejected_unchanged,
    fun action other => sessionsOf_step hkept action,
    fun instanceId limit hlimit hnone hlock count hcount hrun => ?_⟩
  · exact (Finset.card_le_card (Registry.authenticatedSessions_subset_holders _ _)).trans
      (hkept.quota instanceId limit hlimit)
  have hzero : (s.registry.authenticatedSessions instanceId).card = 0 := by
    refine Finset.card_eq_zero.mpr (Finset.subset_empty.mp fun ref hmem => ?_)
    rw [← hnone]
    obtain ⟨session, hsession, hp⟩ := Registry.mem_sessionsWhere.mp hmem
    simp only [Bool.and_eq_true, decide_eq_true_eq] at hp
    exact Registry.mem_liveSessions.mpr ⟨session, hsession, hp.1⟩
  have hopened := openings_run hlimit count hkept hlock (by omega) hrun
  rw [hopened, hzero, Nat.zero_add]

/-! ## One session -/

/-- A second session is turned away while there is the first, and let in after it is dropped. -/
def openedTwice : List SessionAction :=
  [.tryOpen "a", .insert 0, .tryOpen "a", .insert 1, .drop 0, .tryOpen "a", .insert 2]

theorem openedTwice_within_quota :
    ((run (step fun _ => some 1) {} openedTwice).registry.authenticatedSessions "a").card ≤ 1 :=
  (quota_kept (fun _ => some 1) openedTwice (by decide +kernel) _ rfl).1 "a" 1 rfl

/-! ## The ids come around

The run below is longer than any daemon lives; it shows that the hypothesis is needed. -/

/-- The first session, in the slot of the id 0. -/
def heldFirst : Session := ⟨"a", 0, some 1, true, .held, true, false⟩

/-- A registry with the first session and others that have drawn their ids. -/
def waitingBehind (nextId : ℕ) (others : List Session) : Registry where
  tenants := AList.singleton "a" (AList.singleton 0 0)
  nextId
  sessions := heldFirst :: others

theorem run_waiting : ∀ count, ∃ others : List Session,
    run (step fun _ => some 1) ⟨waitingBehind 1 [], []⟩
        (List.replicate count (.tryOpen "b")) =
      ⟨waitingBehind ((count + 1) % 2 ^ 64) others, []⟩ ∧
    others.length = count ∧ ∀ session ∈ others, session.phase = .opening
  | 0 => ⟨[], rfl, rfl, fun _ hmem => absurd hmem List.not_mem_nil⟩
  | count + 1 => by
    obtain ⟨others, hrun, hlength, hopening⟩ := run_waiting count
    refine ⟨others ++ [⟨"b", (count + 1) % 2 ^ 64, some 1, true, .opening, false, false⟩], ?_,
      by simp [hlength], ?_⟩
    · rw [List.replicate_succ', run_append, hrun]
      simp [run, step, Registry.draw, waitingBehind]
    · simpa [or_imp, forall_and] using hopening

variable {others : List Session}

theorem waitingBehind_unlocked {nextId : ℕ} (h : ∀ session ∈ others, session.phase = .opening) :
    (waitingBehind nextId others).locked = false := by
  simpa [Registry.locked, waitingBehind, heldFirst] using fun session hmem => by simp [h session hmem]

/-- Nobody is counted if nobody in the entry is authenticated. -/
theorem Registry.authenticatedCount_eq_zero {entry : TenantEntry}
    (h : ∀ id ref, entry.lookup id = some ref →
      registry.sessions[ref]?.any Session.authenticated = false) :
    registry.authenticatedCount entry = 0 := by
  refine List.countP_eq_zero.mpr fun ref hmem => ?_
  obtain ⟨⟨id, found⟩, hslot, rfl⟩ := List.mem_map.mp (List.mem_filter.mp hmem).1
  simp [h id found (AList.mem_lookup_iff.mpr hslot)]

/-- A pending session overwrites the slot of the first one, and the next to be authenticated is not
compared with it. -/
theorem slot_overwritten (hopening : ∀ session ∈ others, session.phase = .opening) :
    1 < ((run (step fun _ => some 1) ⟨waitingBehind 0 others, []⟩
      [.openPending "a", .insert (others.length + 1), .tryOpen "a",
        .insert (others.length + 2)]).registry.authenticatedSessions "a").card := by
  let drawn := (waitingBehind 0 others).draw "a" none false
  let pending : Session := ⟨"a", 0, none, false, .opening, false, false⟩
  have hpending : drawn.sessions[others.length + 1]? = some pending := by
    simp [drawn, Registry.draw, waitingBehind, pending]
  have hdrawn : drawn.locked = false :=
    unlocked_draw (waitingBehind_unlocked hopening) _ _ _
  have hfile := @step_insert (fun _ => some 1) ⟨drawn, []⟩ (others.length + 1) pending hdrawn
    hpending rfl (fun limit hlimit => by simp [pending] at hlimit)
  let filed := { drawn with
    tenants := drawn.tenants.insert "a"
      ((drawn.pruneDroppedSessions (drawn.slots "a")).insert 0 (others.length + 1))
    }.update (others.length + 1) fun session =>
      { session with phase := .held, authenticated := session.opensAuthenticated }
  let again := filed.draw "a" (some 1) true
  let last : Session := ⟨"a", 1, some 1, true, .opening, false, false⟩
  have hlength : filed.sessions.length = others.length + 2 := by
    simp [filed, Registry.update, drawn, Registry.draw, waitingBehind]
  have hlast : again.sessions[others.length + 2]? = some last := by
    rw [← hlength]
    exact List.getElem?_concat_length
  have hagain : again.locked = false :=
    unlocked_draw (unlocked_update hdrawn hpending (by simp)) _ _ _
  have hold : ∀ {ref : Ref} {session : Session}, filed.sessions[ref]? = some session →
      again.sessions[ref]? = some session :=
    fun h => getElem?_concat_eq_some.mpr (.inl h)
  have hfirst : again.sessions[0]? = some heldFirst := by
    rfl
  have hheld : again.sessions[others.length + 1]? =
      some { pending with phase := .held, authenticated := false } := by
    refine hold ?_
    rw [update_self]
    exact congrArg _ hpending
  have hnobody : again.authenticatedCount (again.pruneDroppedSessions (again.slots "a")) = 0 := by
    refine authenticatedCount_eq_zero fun id ref hslot => ?_
    have hslot : ((drawn.pruneDroppedSessions (drawn.slots "a")).insert 0
        (others.length + 1)).lookup id = some ref := by
      have hfound := Map.lookup_of_retain hslot
      rwa [Registry.slots, show again.tenants = drawn.tenants.insert "a" _ from rfl,
        slots_insert, if_pos rfl] at hfound
    rcases Map.lookup_insert_eq hslot with ⟨-, rfl⟩ | ⟨hne, hbefore⟩
    · simp [hheld]
    · have hsingle : (AList.singleton 0 0 : TenantEntry).lookup id = some ref :=
        Map.lookup_of_retain hbefore
      rw [AList.lookup, AList.singleton, List.dlookup_cons_ne _ _ hne] at hsingle
      cases hsingle
  have hlet := @step_insert (fun _ => some 1) ⟨again, []⟩ (others.length + 2) last hagain hlast rfl
    fun limit hlimit => by
      obtain rfl := Option.some.inj hlimit
      rw [hnobody]
      exact Nat.one_pos
  have hrun : run (step fun _ => some 1) ⟨waitingBehind 0 others, []⟩ [.openPending "a",
      .insert (others.length + 1), .tryOpen "a", .insert (others.length + 2)] =
      step (fun _ => some 1) ⟨again, []⟩ (.insert (others.length + 2)) := by
    rw [run_cons, run_cons, show step _ (step _ ⟨waitingBehind 0 others, []⟩ _) _ = _ from hfile]
    rfl
  rw [hrun, hlet]
  refine Finset.one_lt_card.mpr ⟨0, ?_, others.length + 2, ?_, (Nat.succ_ne_zero _).symm⟩
  · refine (mem_sessionsWhere_update hlast).mpr (.inr ⟨(Nat.succ_ne_zero _).symm, ?_⟩)
    exact (mem_sessionsWhere_of hfirst).mpr (by decide)
  · exact (mem_sessionsWhere_update hlast).mpr (.inl ⟨rfl, by simp [last, Session.live]⟩)

/-- The ids are drawn until the counter is back at the first. -/
def comeAround : List SessionAction :=
  [.tryOpen "a", .insert 0] ++ List.replicate (2 ^ 64 - 1) (.tryOpen "b") ++
    [.openPending "a", .insert (2 ^ 64 - 1 + 1), .tryOpen "a", .insert (2 ^ 64 - 1 + 2)]

/-- **The ids must not come around**: a tenant with a limit of one then has two sessions. -/
theorem comeAround_over_quota :
    1 < ((run (step fun _ => some 1) {} comeAround).registry.authenticatedSessions "a").card := by
  obtain ⟨others, hrun, hlength, hopening⟩ := run_waiting (2 ^ 64 - 1)
  have hfirst : run (step fun _ => some 1) {} [.tryOpen "a", .insert 0] =
    ⟨waitingBehind 1 [], []⟩ := rfl
  have hwrapped : (2 ^ 64 - 1 + 1) % 2 ^ 64 = 0 := by decide
  rw [comeAround, run_append, run_append, hfirst, hrun, hwrapped]
  have hover := slot_overwritten hopening
  rwa [hlength] at hover

end DatabasesEverywhere.Gateway
