import DatabasesEverywhere.Disk.PlannerGenerations

/-!
# Disk/PlannerCadence — how often a directory is scanned

A run is observed with a clock.  Every event is logged with the time of its action and with the
entry that it found.

    partial scans   due       = max (now + debounce) (last activity + scanInterval)
    full scans      deadline  = last full scan + fullScanInterval

A partial scan waits for its due time, which lies an interval behind every dispatch and every
recorded completion of its entry.  A due time that is set when the deadline has passed lies behind
the deadline, and the full scan comes first.  Both rest on one fact: an entry with a baseline is
released only by the worker that holds its lease, and then its due time starts anew.
-/

open Foundations

namespace DatabasesEverywhere.Disk

/-! ## Ticks -/

theorem addTick_le_tickMax (left right : PlannerTick) : addTick left right ≤ tickMax :=
  Nat.min_le_right _ _

variable {left : PlannerTick}

theorem addTick_mono {later : PlannerTick} (h : left ≤ later) (right : PlannerTick) :
    addTick left right ≤ addTick later right :=
  min_le_min_right _ (Nat.add_le_add_right h right)

theorem le_addTick {due now : PlannerTick} (h : due ≤ now) (hmax : due ≤ tickMax)
    (right : PlannerTick) : due ≤ addTick now right :=
  Nat.le_min.mpr ⟨Nat.le_add_right_of_le h, hmax⟩

/-- A sum below the greatest time is exact. -/
theorem addTick_eq_of_lt {right : PlannerTick} (h : addTick left right < tickMax) :
    addTick left right = left + right :=
  Nat.min_eq_left ((min_lt_iff.mp h).resolve_right (Nat.lt_irrefl _)).le

variable {candidate : ScanCandidate} {config : PlannerConfig}

namespace TargetState

/-- The last dispatch or the last recorded completion of the entry is not before the time. -/
def Reaches (target : TargetState) (now : PlannerTick) : Prop :=
  ∃ last, laterTick target.lastScanAt target.lastDispatchAt = some last ∧ now ≤ last

variable {now earlier : PlannerTick}

theorem reaches_dispatch (target : TargetState) (h : earlier ≤ now)
    (token dispatchOrder : ℕ) : (target.dispatch now token dispatchOrder).Reaches earlier := by
  cases hscan : target.lastScanAt with
  | none => exact ⟨now, by simp [dispatch, hscan, laterTick], h⟩
  | some scan =>
    exact ⟨max scan now, by simp [dispatch, hscan, laterTick], h.trans (le_max_right scan now)⟩

variable {target : TargetState}

theorem reaches_of_lastScanAt
    (hscan : target.lastScanAt = some now) (h : earlier ≤ now) : target.Reaches earlier := by
  cases hdispatch : target.lastDispatchAt with
  | none => exact ⟨now, by rw [hscan, hdispatch]; rfl, h⟩
  | some dispatched =>
    exact ⟨max now dispatched, by rw [hscan, hdispatch]; rfl, h.trans (le_max_left now dispatched)⟩

/-- The due time of a notification lies an interval behind what the entry has seen … -/
theorem Reaches.le_nextDirtyDue
    (h : target.Reaches earlier) (now : PlannerTick) (config : PlannerConfig) :
    addTick earlier config.scanInterval ≤ target.nextDirtyDue now config := by
  obtain ⟨last, hlast, hle⟩ := h
  refine (addTick_mono hle _).trans ?_
  simp only [nextDirtyDue, hlast, Option.map_some, Option.getD_some]
  exact le_max_right _ _

/-- … and not before the notification. -/
theorem le_nextDirtyDue {due now : PlannerTick} (h : due ≤ now)
    (hmax : due ≤ tickMax) (config : PlannerConfig) : due ≤ target.nextDirtyDue now config :=
  (le_addTick h hmax _).trans (le_max_left _ _)

/-- A partial scan is due: there is a baseline, no full scan is required, and the due time lies
before the deadline. -/
theorem dueWork_partly {work : DueWork}
    (h : target.dueWork config = some work) (hpartly : work.kind = .partly) :
    target.baselineAvailable = true ∧ target.inFlight = none ∧ target.fullRequirement = none ∧
      target.dirtyDue = some work.dueAt ∧ work.dueAt < target.fullDeadline := by
  have hinFlight := dueWork_inFlight h
  have hrequired : target.fullRequirement = none := by
    cases hrequired : target.fullRequirement with
    | none => rfl
    | some required =>
      rw [dueWork_required h hrequired] at hpartly
      cases hpartly
  simp only [dueWork, hrequired, Option.ite_none_left_eq_some] at h
  obtain ⟨-, h⟩ := h
  -- Every way to a candidate but one gives a full one.
  have hfull : ∀ {dueAt reason}, some (DueWork.mk dueAt .full reason) ≠ some work := by
    rintro dueAt reason ⟨rfl⟩
    cases hpartly
  split at h
  · exact absurd h hfull
  next hbaseline =>
  split at h
  · exact absurd h hfull
  split at h
  · exact absurd h hfull
  split at h
  · exact absurd h hfull
  next due hdue =>
  split at h
  · next hlt =>
    obtain rfl := Option.some.inj h
    exact ⟨by simpa using hbaseline, hinFlight, hrequired, hdue, hlt⟩
  · exact absurd h hfull

end TargetState

/-! ## A clock for the planner -/

variable {id : String} {event : PlannerEvent}

namespace PlannerEvent

/-- The entry that is dispatched, or whose completion is recorded. -/
def activity : PlannerEvent → Option String
  | dispatched candidate | completed candidate _ .applied => some candidate.targetId
  | _ => none

theorem target_of_activity (h : event.activity = some id) : event.target = some id := by
  unfold activity at h
  split at h
  · exact h
  · exact h
  · cases h

/-- A partial scan of the entry is handed out. -/
def DispatchesPartly (id : String) (event : PlannerEvent) : Prop :=
  ∃ candidate, event = .dispatched candidate ∧ candidate.targetId = id ∧ candidate.kind = .partly

/-- A full scan of the entry is recorded. -/
def CompletesFull (id : String) (event : PlannerEvent) : Prop :=
  ∃ candidate, event = .completed candidate (.succeeded .full) .applied ∧ candidate.targetId = id

theorem DispatchesPartly.target (h : event.DispatchesPartly id) : event.target = some id:= by
  obtain ⟨candidate, rfl, rfl, -⟩ := h
  rfl

end PlannerEvent

/-- An event with its time and the entry it found. -/
structure Moment where
  now : PlannerTick
  entry : Option TargetState
  event : PlannerEvent
  deriving DecidableEq

/-- A planner with a clock; the log is newest first. -/
structure TimedPlanner where
  observed : ObservedPlanner
  clock : PlannerTick
  log : List Moment

variable {timed : TimedPlanner} {action : PlannerAction}

namespace TimedPlanner

def start (config : PlannerConfig) : TimedPlanner := ⟨.start config, 0, []⟩

/-- The time of an action; one without a time happens at once. -/
def tick (timed : TimedPlanner) (action : PlannerAction) : PlannerTick :=
  action.now.getD timed.clock

def moment (timed : TimedPlanner) (action : PlannerAction) : Moment where
  now := timed.tick action
  entry := (timed.observed.event action).target.bind fun id =>
    timed.observed.planner.targets.lookup id
  event := timed.observed.event action

def observe (timed : TimedPlanner) (action : PlannerAction) : TimedPlanner where
  observed := timed.observed.observe action
  clock := timed.tick action
  log := timed.moment action :: timed.log

/-- Ticks do not decrease. -/
def OnTime (timed : TimedPlanner) (action : PlannerAction) : Prop :=
  timed.clock ≤ timed.tick action

/-- Ticks do not decrease, candidates that were dispatched are reported, and tokens are left. -/
def Punctual (timed : TimedPlanner) (action : PlannerAction) : Prop :=
  timed.OnTime action ∧ timed.observed.Issued action ∧ timed.observed.TokensLeft action

instance (timed : TimedPlanner) (action : PlannerAction) : Decidable (timed.OnTime action) :=
  inferInstanceAs (Decidable (_ ≤ _))

instance (timed : TimedPlanner) (action : PlannerAction) : Decidable (timed.Punctual action) :=
  inferInstanceAs (Decidable (_ ∧ _ ∧ _))

end TimedPlanner

/-! ## The due time of a partial scan -/

/-- What the log says about the times of an entry with a baseline. -/
structure Paced (scanInterval : PlannerTick) (log : List Moment) (id : String)
    (target : TargetState) : Prop where
  activity : ∀ moment ∈ log, moment.event.activity = some id → target.Reaches moment.now
  due : target.inFlight = none → target.fullRequirement = none →
    ∀ due, target.dirtyDue = some due → ∀ moment ∈ log, moment.event.activity = some id →
      addTick moment.now scanInterval ≤ due
  /-- The entry has not changed since the worker with its lease was sent. -/
  lease : ∀ lease, target.inFlight = some lease →
    ∃ candidate, .dispatched candidate ∈ log.map Moment.event ∧
      HybridScanPlanner.Current candidate target
  deadline : target.fullDeadline ≤ tickMax

def PacedEntry (scanInterval : PlannerTick) (log : List Moment) (id : String)
    (entry : Option TargetState) : Prop :=
  ∀ target, entry = some target → target.baselineAvailable = true →
    Paced scanInterval log id target

variable {log : List Moment}

section Entries

variable {moment : Moment} {now : PlannerTick} {target : TargetState}

theorem Paced.cons (h : Paced config.scanInterval log id target)
    (hmoment : moment.event.activity ≠ some id) :
    Paced config.scanInterval (moment :: log) id target where
  activity := List.forall_mem_cons.mpr ⟨fun hid => absurd hid hmoment, h.activity⟩
  due hinFlight hrequired due hdue := List.forall_mem_cons.mpr
    ⟨fun hid => absurd hid hmoment, h.due hinFlight hrequired due hdue⟩
  lease lease hlease := by
    obtain ⟨candidate, hmem, hcurrent⟩ := h.lease lease hlease
    exact ⟨candidate, List.mem_cons_of_mem _ hmem, hcurrent⟩
  deadline := h.deadline

theorem PacedEntry.frame {entry : Option TargetState} (htarget : moment.event.target ≠ some id)
    (h : PacedEntry config.scanInterval log id entry) :
    PacedEntry config.scanInterval (moment :: log) id entry :=
  fun target hentry hbaseline =>
    (h target hentry hbaseline).cons fun hid => htarget (PlannerEvent.target_of_activity hid)

/-- A notification that stands keeps its due time; a new one looks at the last activity. -/
theorem Paced.recordDirty (h : Paced config.scanInterval log id target) (now : PlannerTick)
    (generation : ℕ) :
    Paced config.scanInterval log id (target.recordDirty config now generation) where
  activity := h.activity
  due hinFlight hrequired due hdue m hm hid := by
    obtain rfl : (target.dirtyDue.getD (target.nextDirtyDue now config)) = due :=
      Option.some.inj hdue
    cases hstands : target.dirtyDue with
    | none => exact (h.activity m hm hid).le_nextDirtyDue now config
    | some stands => exact h.due hinFlight hrequired stands hstands m hm hid
  lease := h.lease
  deadline := h.deadline

variable {after : TargetState}

theorem Paced.overflow {accepted : Bool} (h : Paced config.scanInterval log id target)
    (hat : TargetState.Overflowed target after accepted) :
    Paced config.scanInterval log id after where
  activity m hm hid := by
    obtain ⟨last, hlast, hle⟩ := h.activity m hm hid
    exact ⟨last, by rw [hat.scanned, hat.dispatched, hlast], hle⟩
  due hinFlight hrequired due hdue := by
    obtain ⟨hnone, hsame⟩ := hat.unrequired hrequired
    exact h.due (hat.inFlight ▸ hinFlight) hnone due (hsame ▸ hdue)
  lease lease hlease := by
    obtain ⟨candidate, hmem, hcurrent, hrevision, hfingerprint, hroot⟩ :=
      h.lease lease (hat.inFlight ▸ hlease)
    exact ⟨candidate, hmem, hat.inFlight.trans hcurrent, hat.revision.trans hrevision,
      by rw [hat.spec]; exact hfingerprint, by rw [hat.spec]; exact hroot⟩
  deadline := hat.deadline ▸ h.deadline

theorem Paced.dispatch (h : Paced config.scanInterval log id target)
    (hclock : ∀ m ∈ moment :: log, m.now ≤ now) (work : TargetState.DueWork) (token order : ℕ)
    (hmoment : moment.event = .dispatched (target.candidate id work token)) :
    Paced config.scanInterval (moment :: log) id (target.dispatch now token order) where
  activity m hm _ := target.reaches_dispatch (hclock m hm) token order
  due hinFlight := by cases hinFlight
  lease lease _ := ⟨target.candidate id work token, by simp [hmoment], rfl, rfl, rfl, rfl⟩
  deadline := h.deadline

variable {completion : ScanCompletion}

theorem Paced.finish (hclock : ∀ m ∈ log, m.now ≤ now)
    (hat : target.Finished config candidate now completion after)
    (hdeadline : after.fullDeadline ≤ tickMax) : Paced config.scanInterval log id after where
  activity m hm _ := TargetState.reaches_of_lastScanAt hat.scanned (hclock m hm)
  due _ hrequired due hdue m hm _ :=
    (addTick_mono (hclock m hm) _).trans (hat.due hrequired due hdue)
  lease lease hlease := by
    rw [hat.inFlight] at hlease
    cases hlease
  deadline := hdeadline

/-- Without a baseline nothing is said. -/
theorem pacedEntry_of_baseline (h : target.baselineAvailable = false) :
    PacedEntry config.scanInterval log id (some target) := by
  rintro _ ⟨rfl⟩ hbaseline
  rw [h] at hbaseline
  cases hbaseline

/-- **An entry with a baseline is released by its own worker**, and heard. -/
theorem PacedEntry.completes {disposition : CompletionDisposition}
    (h : PacedEntry config.scanInterval log id (some target))
    (hcompletes : target.Completes config candidate now completion after disposition)
    (hbaseline : after.baselineAvailable = true)
    (hunique : ∀ owner, .dispatched owner ∈ log.map Moment.event → owner.token = candidate.token →
      owner = candidate) :
    after = target ∧ disposition = .stale ∨
      after = target.finish config candidate now completion ∧ disposition = .applied := by
  cases hcompletes with
  | foreign => exact .inl ⟨rfl, rfl⟩
  | released hlease hmoved =>
    obtain ⟨owner, howner, hcurrent⟩ := (h target rfl hbaseline).lease _ hlease
    have htoken := (InFlight.mk.inj (Option.some.inj (hcurrent.1.symm.trans hlease))).1
    obtain rfl := hunique owner howner htoken
    obtain ⟨-, hrevision, hfingerprint, hroot⟩ := hcurrent
    simp [hrevision, hfingerprint, hroot] at hmoved
  | applied => exact .inr ⟨rfl, rfl⟩

variable {before after : Option TargetState}

/-- One event keeps the pace. -/
theorem Touch.pacedEntry (h : Touch config now id before event after)
    (hbefore : PacedEntry config.scanInterval log id before) (hmoment : moment.event = event)
    (hclock : ∀ m ∈ moment :: log, m.now ≤ now)
    (hunique : ∀ owner reported completion disposition,
      event = .completed reported completion disposition →
      .dispatched owner ∈ log.map Moment.event → owner.token = reported.token → owner = reported) :
    PacedEntry config.scanInterval (moment :: log) id after := by
  -- An entry that the event leaves in pace, unless it is an activity.
  have hcons : ∀ {target}, event.activity = none → Paced config.scanInterval log id target →
      Paced config.scanInterval (moment :: log) id target := fun hevent hpaced =>
    hpaced.cons (by simp [hmoment, hevent])
  cases h with
  | inserted | reset => exact pacedEntry_of_baseline rfl
  | removed | missing =>
    rintro _ hnone
    cases hnone
  | marked target generation =>
    rintro _ ⟨rfl⟩ hbaseline
    exact hcons rfl ((hbefore target rfl hbaseline).recordDirty now generation)
  | overflowed target generation | merged target generation =>
    rintro _ ⟨rfl⟩ hbaseline
    have hat := target.markOverflow_spec config now generation
    exact hcons rfl ((hbefore target rfl (hat.baseline ▸ hbaseline)).overflow hat)
  | dispatched target work token order =>
    rintro _ ⟨rfl⟩ hbaseline
    exact (hbefore target rfl hbaseline).dispatch hclock work token order hmoment
  | @completed target _ candidate completion disposition hid hcompletes =>
    rintro completed ⟨rfl⟩ hbaseline
    rcases hbefore.completes hcompletes hbaseline (fun owner => hunique owner _ _ _ rfl) with
      ⟨rfl, rfl⟩ | ⟨rfl, rfl⟩
    · exact hcons rfl (hbefore _ rfl hbaseline)
    · have hat := target.finish_spec config candidate now completion
      refine Paced.finish hclock hat ?_
      rcases hat.deadline with ⟨-, hdeadline⟩ | ⟨hdeadline, hsame⟩
      · exact hdeadline ▸ addTick_le_tickMax _ _
      · exact hdeadline ▸ (hbefore target rfl (hsame ▸ hbaseline)).deadline
  | quiet => exact fun target hentry hbaseline => hcons rfl (hbefore target hentry hbaseline)

/-! ## Past the deadline -/

/-- The deadline of the entry has passed, and no partial scan is due before it. -/
def Overdue (since : PlannerTick) (entry : Option TargetState) : Prop :=
  ∀ target, entry = some target → target.baselineAvailable = true →
    target.fullDeadline ≤ since ∧
      (target.inFlight = none → target.fullRequirement = none →
        ∀ due, target.dirtyDue = some due → target.fullDeadline ≤ due)

variable {since : PlannerTick}

theorem overdue_of_baseline (h : target.baselineAvailable = false) :
    Overdue since (some target) := by
  rintro _ ⟨rfl⟩ hbaseline
  rw [h] at hbaseline
  cases hbaseline

/-- One event, unless it records a full scan. -/
theorem Touch.overdue (h : Touch config now id before event after)
    (hpaced : PacedEntry config.scanInterval log id before) (hbefore : Overdue since before)
    (hsince : since ≤ now)
    (hunique : ∀ owner reported completion disposition,
      event = .completed reported completion disposition →
      .dispatched owner ∈ log.map Moment.event → owner.token = reported.token → owner = reported)
    (hfull : ¬ event.CompletesFull id) : Overdue since after := by
  cases h with
  | inserted | reset => exact overdue_of_baseline rfl
  | removed | missing =>
    rintro _ hnone
    cases hnone
  | marked target generation =>
    rintro _ ⟨rfl⟩ hbaseline
    obtain ⟨hdeadline, hdue⟩ := hbefore target rfl hbaseline
    refine ⟨hdeadline, fun hinFlight hrequired due hmarked => ?_⟩
    obtain rfl : (target.dirtyDue.getD (target.nextDirtyDue now config)) = due :=
      Option.some.inj hmarked
    cases hstands : target.dirtyDue with
    | none =>
      exact TargetState.le_nextDirtyDue (hdeadline.trans hsince)
        (hpaced target rfl hbaseline).deadline config
    | some stands => exact hdue hinFlight hrequired stands hstands
  | overflowed target generation | merged target generation =>
    rintro _ ⟨rfl⟩ hbaseline
    have hat := target.markOverflow_spec config now generation
    obtain ⟨hdeadline, hdue⟩ := hbefore target rfl (hat.baseline ▸ hbaseline)
    rw [hat.deadline]
    refine ⟨hdeadline, fun hinFlight hrequired due hmarked => ?_⟩
    obtain ⟨hnone, hsame⟩ := hat.unrequired hrequired
    exact hdue (hat.inFlight ▸ hinFlight) hnone due (hsame ▸ hmarked)
  | dispatched target =>
    rintro _ ⟨rfl⟩ hbaseline
    exact ⟨(hbefore target rfl hbaseline).1, nofun⟩
  | @completed target _ candidate completion disposition hid hcompletes =>
    rintro completed ⟨rfl⟩ hbaseline
    rcases hpaced.completes hcompletes hbaseline (fun owner => hunique owner _ _ _ rfl) with
      ⟨rfl, -⟩ | ⟨rfl, rfl⟩
    · exact hbefore _ rfl hbaseline
    have hat := target.finish_spec config candidate now completion
    rcases hat.deadline with ⟨rfl, -⟩ | ⟨hdeadline, hsame⟩
    · exact absurd ⟨candidate, rfl, hid⟩ hfull
    have htarget := hsame ▸ hbaseline
    have hpassed := (hbefore target rfl htarget).1
    rw [hdeadline]
    refine ⟨hpassed, fun _ hrequired due hdue => ?_⟩
    exact (le_addTick (hpassed.trans hsince) (hpaced target rfl htarget).deadline _).trans
      (hat.due hrequired due hdue)
  | quiet => exact hbefore

end Entries

/-- A partial scan of the entry had been handed out past the deadline, and no full scan has been
recorded since. -/
structure PassedDeadline (id : String) (log later : List Moment) (first : Moment) : Prop where
  split : ∃ earlier, log = later ++ first :: earlier
  partly : first.event.DispatchesPartly id
  passed : ∃ target, first.entry = some target ∧ target.fullDeadline ≤ first.now
  unscanned : ∀ moment ∈ later, ¬ moment.event.CompletesFull id

theorem PassedDeadline.head {later : List Moment} {moment first : Moment}
    (h : PassedDeadline id (moment :: log) later first) :
    later = [] ∧ moment = first ∨
      ∃ rest, later = moment :: rest ∧ PassedDeadline id log rest first := by
  obtain ⟨earlier, hsplit⟩ := h.split
  cases later with
  | nil => exact .inl ⟨rfl, List.head_eq_of_cons_eq hsplit⟩
  | cons latest rest =>
    obtain rfl := List.head_eq_of_cons_eq hsplit
    exact .inr ⟨rest, rfl, ⟨earlier, List.tail_eq_of_cons_eq hsplit⟩, h.partly, h.passed,
      fun m hm => h.unscanned m (List.mem_cons_of_mem _ hm)⟩

def OverdueKept (log : List Moment) (id : String) (entry : Option TargetState) : Prop :=
  ∀ later first, PassedDeadline id log later first → Overdue first.now entry

/-! ## The cadence -/

/-- A partial scan keeps the interval to every dispatch and every recorded completion before it. -/
def Spaced (scanInterval : PlannerTick) (log : List Moment) : Prop :=
  ∀ later moment earlier id, log = later ++ moment :: earlier → moment.event.DispatchesPartly id →
    ∀ previous ∈ earlier, previous.event.activity = some id →
      previous.now + scanInterval ≤ moment.now

/-- Between two partial scans of an entry whose deadline had passed at the first, a full scan is
recorded. -/
def FullBetween (log : List Moment) : Prop :=
  ∀ later second between first earlier id target,
    log = later ++ second :: (between ++ first :: earlier) →
    first.event.DispatchesPartly id → first.entry = some target → target.fullDeadline ≤ first.now →
    second.event.DispatchesPartly id → ∃ moment ∈ between, moment.event.CompletesFull id

/-- The entry for which a partial scan is handed out. -/
theorem Touch.partly {now : PlannerTick} {before after : Option TargetState}
    (h : Touch config now id before event after) (hpartly : event.DispatchesPartly id) :
    ∃ target due, before = some target ∧ target.baselineAvailable = true ∧
      target.inFlight = none ∧ target.fullRequirement = none ∧ target.dirtyDue = some due ∧
      due < target.fullDeadline ∧ due ≤ now := by
  obtain ⟨candidate, rfl, -, hkind⟩ := hpartly
  cases h with
  | dispatched target work token order hdue hnow =>
    obtain ⟨hbaseline, hinFlight, hrequired, hdirty, hlt⟩ := TargetState.dueWork_partly hdue hkind
    exact ⟨target, work.dueAt, rfl, hbaseline, hinFlight, hrequired, hdirty, hlt, hnow⟩

namespace TimedPlanner

variable (timed action) in
/-- What the action does to an entry, at its time. -/
theorem entry (id : String) :
    Touch timed.observed.planner.config (timed.tick action) id
        (timed.observed.planner.targets.lookup id) (timed.observed.event action)
        ((timed.observed.observe action).planner.targets.lookup id) ∨
      (timed.observed.event action).target ≠ some id ∧
        timed.observed.planner.targets.lookup id =
          (timed.observed.observe action).planner.targets.lookup id :=
  (timed.observed.observe_step action timed.clock).entry id

theorem touch_of_target (h : (timed.observed.event action).target = some id) :
    Touch timed.observed.planner.config (timed.tick action) id
      (timed.observed.planner.targets.lookup id) (timed.observed.event action)
      ((timed.observed.observe action).planner.targets.lookup id) :=
  (timed.entry action id).resolve_right fun hframe => hframe.1 h

/-- What holds along the punctual runs. -/
structure Cadenced (config : PlannerConfig) (timed : TimedPlanner) : Prop where
  config_eq : timed.observed.planner.config = config.normalized
  tokens : timed.observed.TokensFresh
  history : timed.log.map Moment.event = timed.observed.history
  clock : ∀ moment ∈ timed.log, moment.now ≤ timed.clock
  paced : ∀ id, PacedEntry config.normalized.scanInterval timed.log id
    (timed.observed.planner.targets.lookup id)
  overdue : ∀ id, OverdueKept timed.log id (timed.observed.planner.targets.lookup id)
  spaced : Spaced config.normalized.scanInterval timed.log
  between : FullBetween timed.log

section Step

section CadencedRuns

variable (h : Cadenced config timed)
include h

theorem Cadenced.clock_le (hontime : timed.OnTime action) :
    ∀ moment ∈ timed.moment action :: timed.log, moment.now ≤ timed.tick action := by
  intro moment hmoment
  rcases List.mem_cons.mp hmoment with rfl | hmoment
  · exact Nat.le_refl _
  · exact (h.clock moment hmoment).trans hontime

/-- A worker is known by its token. -/
theorem Cadenced.owner_eq (hissued : timed.observed.Issued action) (owner reported : ScanCandidate)
    (completion : ScanCompletion) (disposition : CompletionDisposition)
    (hevent : timed.observed.event action = .completed reported completion disposition)
    (howner : .dispatched owner ∈ timed.log.map Moment.event)
    (htoken : owner.token = reported.token) : owner = reported :=
  h.tokens.unique owner reported (h.history ▸ howner) (hissued.mem hevent) htoken

theorem Cadenced.paced_observe (hontime : timed.OnTime action)
    (hissued : timed.observed.Issued action) (id : String) :
    PacedEntry config.normalized.scanInterval (timed.observe action).log id
      ((timed.observe action).observed.planner.targets.lookup id) := by
  rcases timed.entry action id with htouch | ⟨htarget, hsame⟩
  · rw [h.config_eq] at htouch
    exact htouch.pacedEntry (h.paced id) rfl (h.clock_le hontime) (h.owner_eq hissued)
  · exact hsame ▸ (h.paced id).frame htarget

theorem Cadenced.overdue_observe (hontime : timed.OnTime action)
    (hissued : timed.observed.Issued action) (id : String) :
    OverdueKept (timed.observe action).log id
      ((timed.observe action).observed.planner.targets.lookup id) := by
  intro later first hpassed
  rcases hpassed.head with ⟨rfl, rfl⟩ | ⟨rest, rfl, hrest⟩
  · -- The entry is leased to the worker that is sent.
    have htarget := hpassed.partly.target
    have htouch := touch_of_target htarget
    obtain ⟨candidate, hevent, -, -⟩ := hpassed.partly
    obtain ⟨target, hentry, hdeadline⟩ := hpassed.passed
    have hlookup : timed.observed.planner.targets.lookup id = some target := by
      change (timed.observed.event action).target = some id at htarget
      rw [← hentry, moment, htarget]
      rfl
    rw [hlookup, show timed.observed.event action = .dispatched candidate from hevent] at htouch
    change Overdue _ ((timed.observed.observe action).planner.targets.lookup id)
    generalize (timed.observed.observe action).planner.targets.lookup id = after at htouch
    cases htouch with
    | dispatched =>
      rintro _ ⟨rfl⟩ -
      exact ⟨hdeadline, nofun⟩
  rcases timed.entry action id with htouch | ⟨-, hsame⟩
  · obtain ⟨earlier, hsplit⟩ := hrest.split
    have hsince : first.now ≤ timed.tick action := h.clock_le hontime first (by simp [hsplit])
    rw [h.config_eq] at htouch
    exact htouch.overdue (h.paced id) (h.overdue id rest first hrest) hsince
      (h.owner_eq hissued) (hpassed.unscanned _ List.mem_cons_self)
  · exact hsame ▸ h.overdue id rest first hrest

theorem Cadenced.spaced_observe :
    Spaced config.normalized.scanInterval (timed.observe action).log := by
  intro later m earlier id hsplit hpartly previous hprevious hactivity
  cases later with
  | cons latest rest =>
    exact h.spaced rest m earlier id (List.tail_eq_of_cons_eq hsplit) hpartly previous hprevious
      hactivity
  | nil =>
    obtain rfl : timed.moment action = m := List.head_eq_of_cons_eq hsplit
    obtain rfl : timed.log = earlier := List.tail_eq_of_cons_eq hsplit
    obtain ⟨target, due, hlookup, hbaseline, hinFlight, hrequired, hdirty, hlt, hnow⟩ :=
      (touch_of_target hpartly.target).partly hpartly
    have hpaced := h.paced id target hlookup hbaseline
    have hdue := hpaced.due hinFlight hrequired due hdirty previous hprevious hactivity
    rw [addTick_eq_of_lt (hdue.trans_lt (hlt.trans_le hpaced.deadline))] at hdue
    exact hdue.trans hnow

theorem Cadenced.between_observe : FullBetween (timed.observe action).log := by
  intro later second between first earlier id target hsplit hfirst hentry hpassed hsecond
  cases later with
  | cons latest rest =>
    exact h.between rest second between first earlier id target (List.tail_eq_of_cons_eq hsplit)
      hfirst hentry hpassed hsecond
  | nil =>
    obtain rfl : timed.moment action = second := List.head_eq_of_cons_eq hsplit
    have hlog : timed.log = between ++ first :: earlier := List.tail_eq_of_cons_eq hsplit
    by_contra hnone
    have hopen : PassedDeadline id timed.log between first :=
      ⟨⟨earlier, hlog⟩, hfirst, ⟨target, hentry, hpassed⟩,
        fun moment hmoment hfull => hnone ⟨moment, hmoment, hfull⟩⟩
    obtain ⟨target, due, hlookup, hbaseline, hinFlight, hrequired, hdirty, hlt, -⟩ :=
      (touch_of_target hsecond.target).partly hsecond
    have hdue := (h.overdue id between first hopen target hlookup hbaseline).2 hinFlight hrequired
      due hdirty
    exact absurd hlt (Nat.not_lt.mpr hdue)

theorem Cadenced.observe (hguard : timed.Punctual action) :
    Cadenced config (timed.observe action) where
  config_eq := (timed.observed.observe_step action 0).config.trans h.config_eq
  tokens := h.tokens.observe hguard.2.1 hguard.2.2
  history := congrArg (timed.observed.event action :: ·) h.history
  clock := h.clock_le hguard.1
  paced := h.paced_observe hguard.1 hguard.2.1
  overdue := h.overdue_observe hguard.1 hguard.2.1
  spaced := h.spaced_observe
  between := h.between_observe

end CadencedRuns

theorem cadenced_start (config : PlannerConfig) : Cadenced config (start config) where
  config_eq := rfl
  tokens := (ObservedPlanner.leases_start config).tokens
  history := rfl
  clock moment hmoment := absurd hmoment List.not_mem_nil
  paced id target htarget := by cases htarget
  overdue id later first hpassed := by
    obtain ⟨earlier, hsplit⟩ := hpassed.split
    simp [start] at hsplit
  spaced later moment earlier id hsplit := by simp [start] at hsplit
  between later second between first earlier id target hsplit := by simp [start] at hsplit

end Step

end TimedPlanner

/-- **The cadence of the planner.**  In every run with non-decreasing ticks that does not run out of
tokens, a partial scan is handed out no earlier than an interval after every dispatch and every
recorded completion of its entry; and of the partial scans that are handed out past the deadline
every two have a recorded full scan between them. -/
theorem planner_cadence (config : PlannerConfig) (actions : List PlannerAction)
    (hrun : RunsWithin TimedPlanner.observe TimedPlanner.Punctual (.start config) actions) :
    let timed := run TimedPlanner.observe (.start config) actions
    Spaced config.normalized.scanInterval timed.log ∧ FullBetween timed.log := by
  have hcadenced := RunsWithin.invariant
    (fun timed action (h : timed.Cadenced config) hguard => h.observe hguard) actions
    (TimedPlanner.cadenced_start config) hrun
  exact ⟨hcadenced.spaced, hcadenced.between⟩

/-- A partial scan ten ticks after the first full one. -/
theorem dirtyRun_cadence :
    (run TimedPlanner.observe (.start exampleConfig) dirtyRun).log.map
        (fun moment => (moment.now, moment.event.activity)) =
      [(12, some "data"), (11, some "data"), (2, none), (1, some "data"), (0, some "data"),
        (0, none)] ∧
      Spaced 10 (run TimedPlanner.observe (.start exampleConfig) dirtyRun).log :=
  ⟨by decide +kernel, (planner_cadence exampleConfig dirtyRun (by decide +kernel)).1⟩

/-! ## Without tokens

Once the tokens have run out, a worker from before a removal holds the token of the worker that was
sent last.  Its report releases the entry without a completion. -/

namespace CounterBounds

/-- Everything but the bound on tokens. -/
def ClockGuard (timed : TimedPlanner) (action : PlannerAction) : Prop :=
  timed.OnTime action ∧ timed.observed.Issued action ∧ timed.observed.RevisionsLeft action

instance (timed : TimedPlanner) (action : PlannerAction) : Decidable (ClockGuard timed action) :=
  inferInstanceAs (Decidable (_ ∧ _ ∧ _))

/-- A run at time zero. -/
theorem clockGuard_zero : ∀ (actions : List PlannerAction) {timed : TimedPlanner},
    timed.clock = 0 → (∀ action ∈ actions, action.now.getD 0 = 0) →
    RunsWithin ObservedPlanner.observe RevisionsGuard timed.observed actions →
    RunsWithin TimedPlanner.observe ClockGuard timed actions ∧
      (run TimedPlanner.observe timed actions).clock = 0 ∧
      (run TimedPlanner.observe timed actions).observed =
        run ObservedPlanner.observe timed.observed actions
  | [], _, hclock, _, _ => ⟨trivial, hclock, rfl⟩
  | action :: actions, timed, hclock, hzero, ⟨hguard, hrest⟩ => by
    have htick : timed.tick action = 0 := by
      rw [TimedPlanner.tick, hclock]
      exact hzero action List.mem_cons_self
    obtain ⟨hwithin, hlater, hobserved⟩ := @clockGuard_zero actions (timed.observe action) htick
      (fun action haction => hzero action (List.mem_cons_of_mem _ haction)) hrest
    refine ⟨⟨⟨?_, hguard⟩, hwithin⟩, hlater, hobserved⟩
    rw [TimedPlanner.OnTime, hclock]
    exact Nat.zero_le _

theorem now_rounds (n : ℕ) : ∀ action ∈ rounds n, action.now.getD 0 = 0 := by
  intro action haction
  obtain ⟨part, hpart, hmem⟩ := List.mem_flatten.mp haction
  rw [List.eq_of_mem_replicate hpart] at hmem
  have hround : ∀ action ∈ round, action.now.getD 0 = 0 := by decide
  exact hround action hmem

/-- A longer history allows more reports. -/
theorem clockGuard_mono : ∀ (actions : List PlannerAction) {planner : HybridScanPlanner}
    {clock : PlannerTick} {history history' : List PlannerEvent} {log log' : List Moment},
    history ⊆ history' →
    RunsWithin TimedPlanner.observe ClockGuard ⟨⟨planner, history⟩, clock, log⟩ actions →
    RunsWithin TimedPlanner.observe ClockGuard ⟨⟨planner, history'⟩, clock, log'⟩ actions
  | [], _, _, _, _, _, _, _, _ => trivial
  | _ :: actions, _, _, _, _, _, _, hsubset, ⟨⟨hontime, hissued, hrevisions⟩, hrest⟩ =>
    ⟨⟨hontime, fun candidate hreported => hsubset (hissued candidate hreported), hrevisions⟩,
      clockGuard_mono actions (List.cons_subset_cons _ hsubset) hrest⟩

/-- What a run logs does not depend on what was logged before. -/
theorem run_log : ∀ (actions : List PlannerAction) (planner : HybridScanPlanner)
    (clock : PlannerTick) (history : List PlannerEvent) (log : List Moment),
    (run TimedPlanner.observe ⟨⟨planner, history⟩, clock, log⟩ actions).log =
      (run TimedPlanner.observe ⟨⟨planner, []⟩, clock, []⟩ actions).log ++ log
  | [], _, _, _, _ => rfl
  | action :: actions, planner, clock, history, log => by
    let timed : TimedPlanner := ⟨⟨planner, []⟩, clock, []⟩
    have hlog := run_log actions (planner.step action).1 (timed.tick action)
    calc (run TimedPlanner.observe ⟨⟨planner, history⟩, clock, log⟩ (action :: actions)).log
      _ = _ ++ timed.moment action :: log := hlog _ _
      _ = (_ ++ [timed.moment action]) ++ log := (List.append_cons _ _ _)
      _ = _ := congrArg (· ++ log) (hlog _ _).symm

/-- A worker of an entry that is removed. -/
def removedScan : ScanCandidate := { tokenScan u64Max 0 with fingerprint := "generation-0" }

def crowdedScan : ScanCandidate :=
  { tokenScan u64Max 5 with kind := .partly, reason := .dirty, dueAt := 10 }

/-- The entry comes anew, is scanned, and is marked; the removed worker reports past the deadline. -/
def crowdedTail : List PlannerAction :=
  [.upsertTarget 0 { exampleSpec with fingerprint := "generation-0" }, .nextCandidate 0,
    .removeTarget "data", .upsertTarget 0 exampleSpec, .nextCandidate 0,
    .complete (tokenScan u64Max 0) 0 (.succeeded .full), .markDirty "data" 0 5,
    .nextCandidate 100, .complete removedScan 100 .failed, .nextCandidate 100]

/-- The last dispatch with a fresh token is still to come. -/
def crowdedStart : TimedPlanner := ⟨⟨dispatchedTimes (u64Max - 1) ∅, []⟩, 0, []⟩

theorem crowdedTail_guard :
    RunsWithin TimedPlanner.observe ClockGuard crowdedStart crowdedTail := by
  decide +kernel

/-- A log that ends in two partial scans at one time, past the deadline. -/
def Crowded (log : List Moment) : Prop :=
  (log.take 3).map (fun moment =>
      (moment.now, moment.entry.map TargetState.fullDeadline, moment.event)) =
    [(100, some 100, .dispatched crowdedScan),
      (100, some 100, .completed removedScan .failed .stale),
      (100, some 100, .dispatched crowdedScan)]

theorem crowdedTail_log : Crowded (run TimedPlanner.observe crowdedStart crowdedTail).log := by
  rw [Crowded]
  decide +kernel

theorem not_spaced_of_crowded (scanInterval : PlannerTick)
    (hpos : 0 < scanInterval) (h : Crowded log) :
    ¬ Spaced scanInterval log ∧ ¬ FullBetween log := by
  obtain ⟨second, stale, first, rest, rfl⟩ :
      ∃ second stale first rest, log = second :: stale :: first :: rest := by
    have hlength := congrArg List.length h
    match log with
    | [] | [_] | [_, _] => simp at hlength
    | second :: stale :: first :: rest => exact ⟨second, stale, first, rest, rfl⟩
  simp only [Crowded, List.take_succ_cons, List.take_zero, List.map_cons, List.map_nil, List.cons.injEq,
    Prod.mk.injEq, and_true] at h
  obtain ⟨⟨hnow, -, hsecond⟩, ⟨-, -, hstale⟩, hnow', hentry, hfirst⟩ := h
  obtain ⟨target, htarget, hdeadline⟩ := Option.map_eq_some_iff.mp hentry
  have hpartly : (PlannerEvent.dispatched crowdedScan).DispatchesPartly "data" :=
    ⟨crowdedScan, rfl, rfl, rfl⟩
  constructor
  · intro hspaced
    have hinterval := hspaced [] second (stale :: first :: rest) "data" rfl (hsecond ▸ hpartly)
      first (.tail _ (.head _)) (by rw [hfirst]; rfl)
    rw [hnow, hnow'] at hinterval
    exact absurd hinterval (Nat.not_le.mpr (Nat.lt_add_of_pos_right hpos))
  · intro hbetween
    obtain ⟨moment, hmoment, candidate, hcompleted, -⟩ := hbetween [] second [stale] first rest
      "data" target rfl (hfirst ▸ hpartly) htarget (by rw [hdeadline, hnow']) (hsecond ▸ hpartly)
    rw [List.mem_singleton.mp hmoment, hstale] at hcompleted
    cases hcompleted

/-- **The bound on tokens matters**: a run that exhausts them hands out two partial scans of one
entry at one time, past its deadline. -/
theorem scans_crowd_without_tokens :
    ∃ (config : PlannerConfig) (actions : List PlannerAction),
      RunsWithin TimedPlanner.observe ClockGuard (.start config) actions ∧
      ¬ Spaced config.normalized.scanInterval
        (run TimedPlanner.observe (.start config) actions).log ∧
      ¬ FullBetween (run TimedPlanner.observe (.start config) actions).log := by
  obtain ⟨history, hrounds, hguard⟩ := run_rounds (u64Max - 1)
  obtain ⟨hwithin, hclock, hobserved⟩ := @clockGuard_zero (rounds (u64Max - 1))
    (.start exampleConfig) rfl (now_rounds _) hguard
  refine ⟨exampleConfig, rounds (u64Max - 1) ++ crowdedTail, ?_⟩
  rw [run_append]
  generalize htimed : run TimedPlanner.observe (.start exampleConfig) (rounds (u64Max - 1)) = timed
    at hclock hobserved
  obtain ⟨observed, clock, log⟩ := timed
  obtain rfl : clock = 0 := hclock
  obtain rfl : observed = ⟨dispatchedTimes (u64Max - 1) ∅, history⟩ := hobserved.trans hrounds
  refine ⟨runsWithin_append hwithin ?_, ?_⟩
  · rw [htimed]
    exact clockGuard_mono crowdedTail (List.nil_subset _) crowdedTail_guard
  · refine not_spaced_of_crowded _ (by decide) ?_
    rw [Crowded, run_log, List.take_append_of_le_length (by decide +kernel)]
    exact crowdedTail_log

end CounterBounds

end DatabasesEverywhere.Disk
