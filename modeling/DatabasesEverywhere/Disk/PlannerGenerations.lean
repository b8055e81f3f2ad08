import DatabasesEverywhere.Disk.PlannerRuns

/-!
# Disk/PlannerGenerations — no change is lost between two scans

The history of an entry since it last started anew says which generations were marked, which scans
were dispatched and which of them were applied.  The entry itself keeps only two numbers and a due
time; `Tracked` ties them to that history.

    marked g ─────── dispatched c (captured ≥ g) ─────── completed c, applied
       └─ due ───────────────────────────────────────────────┘  acknowledged ≥ g

The lease of an entry is what carries the argument across a scan: as long as its revision is the
entry's, the candidate behind it was dispatched since the last start.
-/

open Foundations

namespace DatabasesEverywhere.Disk

/-! ## Since the last start -/

/-- The events since an entry last started anew. -/
def sinceStart (id : String) (history : List PlannerEvent) : List PlannerEvent :=
  history.takeWhile fun event => ¬ event.Disturbs id

variable {id : String} {event : PlannerEvent}

variable (history : List PlannerEvent)

theorem sinceStart_of_disturbs (h : event.Disturbs id) : sinceStart id (event :: history) = [] :=
  List.takeWhile_cons_of_neg (by simp [h])

theorem sinceStart_cons (h : ¬ event.Disturbs id) :
    sinceStart id (event :: history) = event :: sinceStart id history :=
  List.takeWhile_cons_of_pos (by simp [h])

/-- A scan of the entry that had captured a generation was applied, and before its dispatch came
the events given. -/
def ScannedAfter (recent : List PlannerEvent) (id : String) (revision generation : ℕ)
    (before : List PlannerEvent) : Prop :=
  ∃ candidate completion, TargetState.Acknowledges candidate completion ∧
    candidate.targetId = id ∧ candidate.revision = revision ∧
    generation ≤ candidate.capturedGeneration ∧
    List.Sublist (.completed candidate completion .applied :: .dispatched candidate :: before) recent

variable {recent : List PlannerEvent}

theorem ScannedAfter.cons {before : List PlannerEvent} {revision generation : ℕ}
    (h : ScannedAfter recent id revision generation before) (event : PlannerEvent) :
    ScannedAfter (event :: recent) id revision generation before := by
  obtain ⟨candidate, completion, hack, hid, hrevision, hcaptured, hsublist⟩ := h
  exact ⟨candidate, completion, hack, hid, hrevision, hcaptured, hsublist.cons event⟩

/-- The candidate behind the lease of an entry that has not been reset since its dispatch. -/
structure LeaseTracked (recent : List PlannerEvent) (id : String) (dirtyGeneration : ℕ)
    (candidate : ScanCandidate) : Prop where
  dispatched : .dispatched candidate ∈ recent
  targetId : candidate.targetId = id
  captured_le : candidate.capturedGeneration ≤ dirtyGeneration
  /-- What was marked up to the captured generation was marked before the dispatch. -/
  marked : ∀ generation, .marked id generation ∈ recent →
    generation ≤ candidate.capturedGeneration →
      List.Sublist [.dispatched candidate, .marked id generation] recent

/-- What the numbers of an entry say about its history. -/
structure Tracked (recent : List PlannerEvent) (id : String) (target : TargetState) : Prop where
  acknowledged_le : target.acknowledgedGeneration ≤ target.dirtyGeneration
  due : target.acknowledgedGeneration < target.dirtyGeneration →
    target.dirtyDue.isSome = true ∧ target.spec.enabled = true
  scanned : 0 < target.acknowledgedGeneration →
    ScannedAfter recent id target.revision target.acknowledgedGeneration []
  marked_le : ∀ generation, .marked id generation ∈ recent → generation ≤ target.dirtyGeneration
  marked : ∀ generation, .marked id generation ∈ recent →
    generation ≤ target.acknowledgedGeneration →
      ScannedAfter recent id target.revision generation [.marked id generation]
  lease : ∀ lease, target.inFlight = some lease → lease.revision ≤ target.revision ∧
    (lease.revision = target.revision →
      ∃ candidate, lease = ⟨candidate.token, candidate.revision⟩ ∧
        LeaseTracked recent id target.dirtyGeneration candidate)

/-! ## One event -/

variable {candidate : ScanCandidate}

theorem LeaseTracked.cons {dirtyGeneration later : ℕ}
    (h : LeaseTracked recent id dirtyGeneration candidate) (hle : dirtyGeneration ≤ later)
    (hevent : ∀ generation, event = .marked id generation → dirtyGeneration < generation) :
    LeaseTracked (event :: recent) id later candidate where
  dispatched := List.mem_cons_of_mem _ h.dispatched
  targetId := h.targetId
  captured_le := h.captured_le.trans hle
  marked generation hmem hcaptured := by
    rcases List.mem_cons.mp hmem with hnew | hmem
    · have := hevent generation hnew.symm
      have := h.captured_le
      omega
    · exact (h.marked generation hmem hcaptured).cons event

variable {target : TargetState}

/-- An event that is no mark of the entry leaves it tracked. -/
theorem Tracked.cons (h : Tracked recent id target)
    (hevent : ∀ generation, event ≠ .marked id generation) :
    Tracked (event :: recent) id target where
  acknowledged_le := h.acknowledged_le
  due := h.due
  scanned hpos := (h.scanned hpos).cons event
  marked_le generation hmem := by
    rcases List.mem_cons.mp hmem with hnew | hmem
    · exact absurd hnew.symm (hevent generation)
    · exact h.marked_le generation hmem
  marked generation hmem hle := by
    rcases List.mem_cons.mp hmem with hnew | hmem
    · exact absurd hnew.symm (hevent generation)
    · exact (h.marked generation hmem hle).cons event
  lease lease hlease := by
    obtain ⟨hrevision, hcurrent⟩ := h.lease lease hlease
    refine ⟨hrevision, fun heq => ?_⟩
    obtain ⟨candidate, hown, htracked⟩ := hcurrent heq
    exact ⟨candidate, hown, htracked.cons (Nat.le_refl _)
      fun generation hnew => absurd hnew (hevent generation)⟩

variable {after : TargetState}

/-- The same entry with a new lease, or none, and another requirement. -/
theorem Tracked.congr (h : Tracked recent id target)
    (hspec : after.spec = target.spec) (hrevision : after.revision = target.revision)
    (hdirty : after.dirtyGeneration = target.dirtyGeneration)
    (hack : after.acknowledgedGeneration = target.acknowledgedGeneration)
    (hdue : after.dirtyDue = target.dirtyDue)
    (hlease : ∀ lease, after.inFlight = some lease → lease.revision ≤ target.revision ∧
      (lease.revision = target.revision →
        ∃ candidate, lease = ⟨candidate.token, candidate.revision⟩ ∧
          LeaseTracked recent id target.dirtyGeneration candidate)) :
    Tracked recent id after where
  acknowledged_le := by rw [hack, hdirty]; exact h.acknowledged_le
  due := by rw [hack, hdirty, hdue, hspec]; exact h.due
  scanned := by rw [hack, hrevision]; exact h.scanned
  marked_le := by rw [hdirty]; exact h.marked_le
  marked := by rw [hack, hrevision]; exact h.marked
  lease := by rw [hrevision, hdirty]; exact hlease

/-- A new start: nothing is dirty, and a lease that was kept is of an earlier revision. -/
theorem tracked_of_start (hdirty : target.dirtyGeneration = 0)
    (hack : target.acknowledgedGeneration = 0)
    (hlease : ∀ lease, target.inFlight = some lease → lease.revision < target.revision) :
    Tracked [] id target where
  acknowledged_le := by rw [hack]; exact Nat.zero_le _
  due h := by rw [hack, hdirty] at h; exact absurd h (Nat.lt_irrefl 0)
  scanned h := by rw [hack] at h; exact absurd h (Nat.lt_irrefl 0)
  marked_le _ h := absurd h List.not_mem_nil
  marked _ h := absurd h List.not_mem_nil
  lease lease h := ⟨Nat.le_of_lt (hlease lease h), fun heq => absurd heq (Nat.ne_of_lt (hlease lease h))⟩

section Followed

variable (h : Tracked recent id target)
include h

/-- The dirty generation moves on, with a due time. -/
theorem Tracked.advance (hrevision : after.revision = target.revision)
    (hinFlight : after.inFlight = target.inFlight)
    (hack : after.acknowledgedGeneration = target.acknowledgedGeneration)
    (hdirty : target.dirtyGeneration ≤ after.dirtyGeneration)
    (hdue : after.dirtyDue.isSome = true ∧ after.spec.enabled = true)
    (hevent : ∀ generation, event = .marked id generation →
      target.dirtyGeneration < generation ∧ generation ≤ after.dirtyGeneration) :
    Tracked (event :: recent) id after where
  acknowledged_le := by rw [hack]; exact h.acknowledged_le.trans hdirty
  due _ := hdue
  scanned hpos := by
    rw [hack] at hpos ⊢
    rw [hrevision]
    exact (h.scanned hpos).cons event
  marked_le generation hmem := by
    rcases List.mem_cons.mp hmem with hnew | hmem
    · exact (hevent generation hnew.symm).2
    · exact (h.marked_le generation hmem).trans hdirty
  marked generation hmem hle := by
    rw [hack] at hle
    rcases List.mem_cons.mp hmem with hnew | hmem
    · have := (hevent generation hnew.symm).1
      have := h.acknowledged_le
      omega
    · rw [hrevision]
      exact (h.marked generation hmem hle).cons event
  lease lease hlease := by
    rw [hinFlight] at hlease
    obtain ⟨hle, hcurrent⟩ := h.lease lease hlease
    rw [hrevision]
    refine ⟨hle, fun heq => ?_⟩
    obtain ⟨candidate, hown, htracked⟩ := hcurrent heq
    exact ⟨candidate, hown, htracked.cons hdirty fun generation hnew => (hevent generation hnew).1⟩

theorem Tracked.overflow {accepted : Bool} (hspec : TargetState.Overflowed target after accepted)
    (hevent : ∀ generation, event ≠ .marked id generation) :
    Tracked (event :: recent) id after := by
  rcases hspec.due with ⟨hdirty, hdue⟩ | hdue
  · refine (h.cons hevent).congr hspec.spec hspec.revision hdirty hspec.acknowledged hdue ?_
    rw [hspec.inFlight]
    exact (h.cons hevent).lease
  · exact h.advance hspec.revision hspec.inFlight hspec.acknowledged hspec.dirty hdue
      fun generation hnew => absurd hnew (hevent generation)

/-- A dispatch: everything marked so far was marked before it. -/
theorem Tracked.dispatch (work : TargetState.DueWork) (now : PlannerTick) (token order : ℕ) :
    Tracked (.dispatched (target.candidate id work token) :: recent) id
      (target.dispatch now token order) := by
  have hcons :=
    @Tracked.cons id (.dispatched (target.candidate id work token)) recent target h nofun
  refine hcons.congr rfl rfl rfl rfl rfl fun lease hlease => ?_
  obtain rfl := Option.some.inj hlease
  refine ⟨Nat.le_refl _, fun _ => ⟨target.candidate id work token, rfl, ?_⟩⟩
  exact
    { dispatched := List.mem_cons_self
      targetId := rfl
      captured_le := Nat.le_refl _
      marked := fun generation hmem _ =>
        (List.singleton_sublist.mpr ((List.mem_cons.mp hmem).resolve_left nofun)).cons_cons _ }

end Followed

/-- A completion that is applied acknowledges what its candidate had captured. -/
theorem Tracked.finish {config : PlannerConfig} {now : PlannerTick} {completion : ScanCompletion}
    (h : Tracked recent id target)
    (hfinished : target.Finished config candidate now completion after)
    (hrevision : target.revision = candidate.revision)
    (hlease : LeaseTracked recent id target.dirtyGeneration candidate) :
    Tracked (.completed candidate completion .applied :: recent) id after := by
  have hcons := @Tracked.cons id (.completed candidate completion .applied) recent target h nofun
  have hnone : ∀ lease, after.inFlight ≠ some lease := fun lease => by
    rw [hfinished.inFlight]
    exact nofun
  rcases hfinished.generations with ⟨hacknowledges, hack, hdue⟩ | ⟨hack, hdue⟩
  case inr =>
    exact hcons.congr hfinished.spec hfinished.revision hfinished.dirty hack hdue
      fun lease hown => absurd hown (hnone lease)
  case inl =>
    -- The scan just applied, with any earlier events that came before its dispatch.
    have hscanned : ∀ {generation before}, generation ≤ candidate.capturedGeneration →
        List.Sublist (.dispatched candidate :: before) recent →
        ScannedAfter (.completed candidate completion .applied :: recent) id after.revision
          generation before := fun hcaptured hsublist =>
      ⟨candidate, completion, hacknowledges, hlease.targetId,
        (hfinished.revision.trans hrevision).symm, hcaptured, hsublist.cons_cons _⟩
    have hold : ∀ {generation before},
        ScannedAfter (.completed candidate completion .applied :: recent) id target.revision
          generation before →
        ScannedAfter (.completed candidate completion .applied :: recent) id after.revision
          generation before := fun hscan => hfinished.revision ▸ hscan
    refine ⟨?_, fun hlt => ?_, fun hpos => ?_, fun generation hmem => ?_,
      fun generation hmem hle => ?_, fun lease hown => absurd hown (hnone lease)⟩
    · rw [hack, hfinished.dirty]
      exact Nat.max_le.mpr ⟨h.acknowledged_le, hlease.captured_le⟩
    · rw [hack, hfinished.dirty, Nat.max_lt] at hlt
      exact ⟨hdue hlt.2, hfinished.spec ▸ (h.due hlt.1).2⟩
    · rw [hack] at hpos ⊢
      rcases Nat.le_total target.acknowledgedGeneration candidate.capturedGeneration with hle | hle
      · rw [Nat.max_eq_right hle]
        exact hscanned (Nat.le_refl _) (List.singleton_sublist.mpr hlease.dispatched)
      · rw [Nat.max_eq_left hle] at hpos ⊢
        exact hold (hcons.scanned hpos)
    · rw [hfinished.dirty]
      exact hcons.marked_le generation hmem
    · rw [hack] at hle
      have hmem' := (List.mem_cons.mp hmem).resolve_left nofun
      by_cases hcaptured : generation ≤ candidate.capturedGeneration
      · exact hscanned hcaptured (hlease.marked generation hmem' hcaptured)
      · exact hold (hcons.marked generation hmem (by omega))

/-! ## Runs -/

variable {observed : ObservedPlanner} {action : PlannerAction} {actions : List PlannerAction}

namespace ObservedPlanner

/-- Every entry is tracked by its history since its last start. -/
def TrackedEntry (history : List PlannerEvent) (id : String) (entry : Option TargetState) : Prop :=
  ∀ target, entry = some target → Tracked (sinceStart id history) id target

variable {history}

theorem trackedEntry_cons (hevent : ¬ event.Disturbs id)
    (h : Tracked (event :: sinceStart id history) id target) :
    TrackedEntry (event :: history) id (some target) := by
  rintro _ ⟨rfl⟩
  rwa [sinceStart_cons history hevent]

theorem trackedEntry_start (hevent : event.Disturbs id) (h : Tracked [] id target) :
    TrackedEntry (event :: history) id (some target) := by
  rintro _ ⟨rfl⟩
  rwa [sinceStart_of_disturbs history hevent]

theorem TrackedEntry.frame {entry : Option TargetState} (htarget : event.target ≠ some id)
    (h : TrackedEntry history id entry) : TrackedEntry (event :: history) id entry := by
  intro target hentry
  rw [sinceStart_cons history fun hdisturbs => htarget hdisturbs.target]
  exact (h target hentry).cons fun generation hevent => htarget (by rw [hevent]; rfl)

variable {config : PlannerConfig}

/-- A touch keeps the entry tracked.  The candidate that is reported is the one behind the lease,
and a reset moves the revision on. -/
theorem Touch.trackedEntry {now : PlannerTick} {before after : Option TargetState}
    (h : Touch config now id before event after) (hbefore : TrackedEntry history id before)
    (hrevision : ∀ target, event = .reset id → before = some target → target.revision < u64Max)
    (hunique : ∀ candidate reported completion disposition,
      event = .completed reported completion disposition → .dispatched candidate ∈ history →
      candidate.token = reported.token → candidate = reported) :
    TrackedEntry (event :: history) id after := by
  have hrecent : ∀ {e}, .dispatched e ∈ sinceStart id history → .dispatched e ∈ history :=
    fun hmem => List.takeWhile_subset _ hmem
  cases h with
  | inserted =>
    exact trackedEntry_start (.inl rfl) (tracked_of_start rfl rfl fun _ hlease => by cases hlease)
  | reset target =>
    refine trackedEntry_start (.inr (.inl rfl)) (tracked_of_start rfl rfl fun lease hlease => ?_)
    have hle := ((hbefore target rfl).lease lease hlease).1
    have hlt := hrevision target rfl rfl
    simp only [TargetState.reset, saturatingAdd]
    omega
  | removed | missing =>
    intro _ hnone
    cases hnone
  | marked target generation henabled hlt =>
    refine trackedEntry_cons (PlannerEvent.not_disturbs (by simp) (by simp) (by simp)) ?_
    refine @Tracked.advance id _ _ target (target.recordDirty config now generation)
      (hbefore target rfl) rfl rfl rfl (Nat.le_of_lt hlt) ⟨rfl, henabled⟩ fun other hother => ?_
    obtain ⟨-, rfl⟩ := PlannerEvent.marked.inj hother
    exact ⟨hlt, Nat.le_refl _⟩
  | overflowed target generation | merged target generation =>
    refine trackedEntry_cons (PlannerEvent.not_disturbs (by simp) (by simp) (by simp)) ?_
    exact (hbefore target rfl).overflow (target.markOverflow_spec config now generation) (by simp)
  | dispatched target work token order hdue =>
    refine trackedEntry_cons (PlannerEvent.not_disturbs (by simp) (by simp) (by simp)) ?_
    exact (hbefore target rfl).dispatch work now token order
  | @completed target _ candidate completion disposition hid hcompletes =>
    refine trackedEntry_cons (PlannerEvent.not_disturbs (by simp) (by simp) (by simp)) ?_
    have htracked := hbefore target rfl
    have hcons := @Tracked.cons id (.completed candidate completion disposition) _ target htracked
      (by simp)
    cases hcompletes with
    | foreign => exact hcons
    | released => exact hcons.congr rfl rfl rfl rfl rfl (by simp)
    | applied hlease hcurrent =>
      obtain ⟨owner, hown, howner⟩ := (htracked.lease _ hlease).2 hcurrent.symm
      obtain rfl := hunique owner candidate completion .applied rfl (hrecent howner.dispatched)
        (InFlight.mk.inj hown).1.symm
      exact htracked.finish (target.finish_spec config owner now completion) hcurrent howner
  | quiet =>
    exact TrackedEntry.frame (by simp [PlannerEvent.target]) hbefore

theorem observe_tracked (htokens : observed.TokensFresh) (hissued : observed.Issued action)
    (hrevisions : observed.RevisionsLeft action)
    (h : ∀ id, TrackedEntry observed.history id (observed.planner.targets.lookup id)) (id : String) :
    TrackedEntry (observed.observe action).history id
      ((observed.observe action).planner.targets.lookup id) := by
  rcases (observed.observe_step action 0).entry id with htouch | ⟨htarget, hsame⟩
  · exact Touch.trackedEntry htouch (h id)
      (fun target hevent => hrevisions id (congrArg PlannerEvent.resetEntry hevent) target)
      fun candidate reported _ _ hevent hmem =>
        htokens.unique candidate reported hmem (hissued.mem hevent)
  · exact hsame ▸ (h id).frame htarget

/-- No counter of the planner runs out. -/
def Unsaturated (observed : ObservedPlanner) (action : PlannerAction) : Prop :=
  observed.Issued action ∧ observed.TokensLeft action ∧ observed.RevisionsLeft action

instance (observed : ObservedPlanner) (action : PlannerAction) :
    Decidable (observed.Unsaturated action) :=
  inferInstanceAs (Decidable (_ ∧ _ ∧ _))

theorem run_tracked (h : RunsWithin observe Unsaturated (start config) actions) (id : String) :
    TrackedEntry (run observe (start config) actions).history id
      ((run observe (start config) actions).planner.targets.lookup id) := by
  refine (@RunsWithin.invariant _ _ observe Unsaturated
    (fun observed => observed.Leases ∧
      ∀ id, TrackedEntry observed.history id (observed.planner.targets.lookup id)) ?_ actions
    (start config) ?_ h).2 id
  · rintro observed action ⟨hleases, htracked⟩ ⟨hissued, htokens, hrevisions⟩
    exact ⟨hleases.observe hissued htokens,
      observe_tracked hleases.tokens hissued hrevisions htracked⟩
  · exact ⟨leases_start config, fun id target hentry =>
      absurd hentry (by simp [start, HybridScanPlanner.new])⟩

end ObservedPlanner

/-- **No change is lost.**  In every run in which no counter runs out, the acknowledged generation
of an entry is at most its dirty one; while it is less, a scan is due; it is positive only through
a scan that had captured it; and after a mark the scan stays due, or held by a worker, until one
that was dispatched after the mark has succeeded. -/
theorem planner_loses_no_change (config : PlannerConfig) (actions : List PlannerAction)
    (hrun : RunsWithin ObservedPlanner.observe ObservedPlanner.Unsaturated (.start config) actions)
    (id : String) (target : TargetState)
    (htarget : (run ObservedPlanner.observe (.start config) actions).planner.targets.lookup id =
      some target) :
    let observed := run ObservedPlanner.observe (.start config) actions
    let recent := sinceStart id observed.history
    target.acknowledgedGeneration ≤ target.dirtyGeneration ∧
    (target.acknowledgedGeneration < target.dirtyGeneration → target.dirtyDue.isSome = true) ∧
    (0 < target.acknowledgedGeneration →
      ScannedAfter recent id target.revision target.acknowledgedGeneration []) ∧
    ∀ generation, .marked id generation ∈ recent →
      ScannedAfter recent id target.revision generation [.marked id generation] ∨
      target.dirtyDue.isSome = true ∧
        (target.inFlight.isSome = true ∨
          (target.dueWork observed.planner.config).isSome = true) := by
  have htracked := ObservedPlanner.run_tracked hrun id target htarget
  refine ⟨htracked.acknowledged_le, fun hlt => (htracked.due hlt).1, htracked.scanned,
    fun generation hmem => ?_⟩
  by_cases hle : generation ≤ target.acknowledgedGeneration
  · exact .inl (htracked.marked generation hmem hle)
  have hdirty := htracked.marked_le generation hmem
  obtain ⟨hdue, henabled⟩ := htracked.due (by omega)
  refine .inr ⟨hdue, ?_⟩
  cases hinFlight : target.inFlight with
  | none => exact .inr (TargetState.dueWork_isSome henabled hinFlight)
  | some lease => exact .inl rfl

/-- A mark, the scan dispatched after it, and its success. -/
def dirtyScan : ScanCandidate where
  targetId := "data"
  kind := .partly
  reason := .dirty
  fingerprint := "generation-1"
  rootIdentity := none
  capturedGeneration := 5
  revision := 1
  token := 2
  dueAt := 11

def dirtyRun : List PlannerAction :=
  [.upsertTarget 0 exampleSpec, .nextCandidate 0, .complete firstScan 1 (.succeeded .full),
    .markDirty "data" 2 5, .nextCandidate 11, .complete dirtyScan 12 (.succeeded .partly)]

theorem dirtyRun_scanned :
    ∃ target, (run ObservedPlanner.observe (.start exampleConfig)
        dirtyRun).planner.targets.lookup "data" = some target ∧ target.acknowledgedGeneration = 5 ∧
      ScannedAfter (sinceStart "data"
        (run ObservedPlanner.observe (.start exampleConfig) dirtyRun).history) "data" 1 5 [] := by
  have hsome : ((run ObservedPlanner.observe (.start exampleConfig)
      dirtyRun).planner.targets.lookup "data").isSome = true := by decide +kernel
  obtain ⟨target, htarget⟩ := Option.isSome_iff_exists.mp hsome
  have hnumbers : ((run ObservedPlanner.observe (.start exampleConfig)
      dirtyRun).planner.targets.lookup "data").map
        (fun target => (target.acknowledgedGeneration, target.revision)) = some (5, 1) := by
    decide +kernel
  rw [htarget] at hnumbers
  obtain ⟨hack, hrevision⟩ := Prod.mk.inj (Option.some.inj hnumbers)
  obtain ⟨-, -, hscanned, -⟩ :=
    planner_loses_no_change exampleConfig dirtyRun (by decide +kernel) "data" target htarget
  rw [hack, hrevision] at hscanned
  exact ⟨target, htarget, hack, hscanned (by decide)⟩

/-! ## Counters at their bounds

After `2 ^ 64 - 2` resets the revision of an entry stays where it is, and a scan dispatched before
the next reset is still taken for a scan of the entry.  After `2 ^ 64 - 1` dispatches all candidates
carry one token, and a scan of an entry that was removed is taken for a scan of the next one of that
name.  Either way a generation is acknowledged that the entry never had. -/

namespace CounterBounds

/-- An acknowledged generation beyond the dirty one. -/
def LosesChanges (planner : HybridScanPlanner) (id : String) : Prop :=
  ∃ target, planner.targets.lookup id = some target ∧
    target.dirtyGeneration < target.acknowledgedGeneration

variable {planner : HybridScanPlanner}

theorem losesChanges_of_numbers {dirty ack : ℕ} (h : (planner.targets.lookup id).map (fun target =>
      (target.dirtyGeneration, target.acknowledgedGeneration)) = some (dirty, ack))
    (hlt : dirty < ack) : LosesChanges planner id := by
  obtain ⟨target, htarget, hpair⟩ := Option.map_eq_some_iff.mp h
  obtain ⟨hdirty, hack⟩ := Prod.mk.inj hpair
  exact ⟨target, htarget, by omega⟩

/-- The planner of a run, without its history. -/
abbrev runPlanner (planner : HybridScanPlanner) (actions : List PlannerAction) :
    HybridScanPlanner :=
  run (fun planner action => (planner.step action).1) planner actions

theorem run_planner : ∀ (observed : ObservedPlanner) (actions : List PlannerAction),
    (run ObservedPlanner.observe observed actions).planner = runPlanner observed.planner actions
  | _, [] => rfl
  | observed, action :: actions => run_planner (observed.observe action) actions

theorem issued_of_reported
    (h : (observed.event action).reported = none) : observed.Issued action := by
  intro candidate hreported
  rw [h] at hreported
  cases hreported

theorem tokensLeft_of_handedOut
    (h : (observed.event action).handedOut = none) : observed.TokensLeft action := by
  intro hsome
  rw [h] at hsome
  cases hsome

theorem revisionsLeft_of_resetEntry
    (h : (observed.event action).resetEntry = none) : observed.RevisionsLeft action := by
  intro id hreset
  rw [h] at hreset
  cases hreset

/-- A longer history allows more reports. -/
theorem runsWithin_mono {guard : ObservedPlanner → PlannerAction → Prop}
    (hguard : ∀ {planner history history' action}, history ⊆ history' →
      guard ⟨planner, history⟩ action → guard ⟨planner, history'⟩ action) :
    ∀ (actions : List PlannerAction) {planner : HybridScanPlanner}
      {history history' : List PlannerEvent}, history ⊆ history' →
      RunsWithin ObservedPlanner.observe guard ⟨planner, history⟩ actions →
      RunsWithin ObservedPlanner.observe guard ⟨planner, history'⟩ actions
  | [], _, _, _, _, _ => trivial
  | _ :: actions, _, _, _, hsubset, ⟨h, hrest⟩ =>
    ⟨hguard hsubset h, runsWithin_mono hguard actions (List.cons_subset_cons _ hsubset) hrest⟩

/-! ### Resets -/

/-- Only the revisions may run out. -/
def TokensGuard (observed : ObservedPlanner) (action : PlannerAction) : Prop :=
  observed.Issued action ∧ observed.TokensLeft action

instance (observed : ObservedPlanner) (action : PlannerAction) :
    Decidable (TokensGuard observed action) :=
  inferInstanceAs (Decidable (_ ∧ _))

/-- The watcher of the entry fails and recovers in turn. -/
def flip (n : ℕ) : PlannerAction := .setWatcherTrusted "data" (n % 2 == 1) 0

/-- The entry after the turns up to `n`. -/
def flipped (n : ℕ) : TargetState :=
  { TargetState.new { exampleSpec with watcherTrusted := n % 2 == 1 } 0 with
    revision := min (n + 2) u64Max
    fullRequirement := some { dueAt := 0, generation := 0, reason := .targetChanged } }

def plannerWith (target : TargetState) : HybridScanPlanner :=
  (HybridScanPlanner.new exampleConfig).setTarget "data" target

variable (n : ℕ)

theorem step_flip :
    (plannerWith (flipped n)).step (flip (n + 1)) =
      (plannerWith (flipped (n + 1)), .reset "data") := by
  have hlookup : (plannerWith (flipped n)).targets.lookup "data" = some (flipped n) :=
    HybridScanPlanner.lookup_setTarget _ _ _
  have htrusted : (flipped n).spec.watcherTrusted ≠ ((n + 1) % 2 == 1) := by
    simp only [flipped, TargetState.new]
    rcases Nat.mod_two_eq_zero_or_one n with h | h <;> simp [h, Nat.add_mod]
  have hreset : TargetState.reset
      { flipped n with spec := { (flipped n).spec with watcherTrusted := (n + 1) % 2 == 1 } } 0
      .targetChanged = flipped (n + 1) := by
    simp only [TargetState.reset, flipped, TargetState.new, saturatingAdd, exampleSpec]
    simp [TargetState.firstRequirement]
    omega
  simp only [HybridScanPlanner.step, flip, HybridScanPlanner.setWatcherTrusted, hlookup,
    if_neg htrusted, hreset]
  simp [plannerWith, HybridScanPlanner.setTarget]

def flips : List PlannerAction :=
  .upsertTarget 0 exampleSpec :: (List.range (n + 1)).map flip

theorem run_flips : ∀ n, ∃ history,
    run ObservedPlanner.observe (.start exampleConfig) (flips n) =
        ⟨plannerWith (flipped n), history⟩ ∧
    RunsWithin ObservedPlanner.observe TokensGuard (.start exampleConfig) (flips n)
  | 0 => ⟨_, rfl, by decide +kernel⟩
  | n + 1 => by
    obtain ⟨history, hrun, hguard⟩ := run_flips n
    have hflips : flips (n + 1) = flips n ++ [flip (n + 1)] := by
      rw [flips, List.range_succ, List.map_append, ← List.cons_append]
      rfl
    have hevent : ObservedPlanner.event ⟨plannerWith (flipped n), history⟩ (flip (n + 1)) =
        .reset "data" :=
      congrArg Prod.snd (step_flip n)
    rw [hflips]
    refine ⟨.reset "data" :: history, ?_, runsWithin_append hguard ⟨?_, trivial⟩⟩
    · rw [run_append, hrun]
      simp only [run_cons, run_nil, ObservedPlanner.observe, step_flip]
    · rw [hrun]
      exact ⟨issued_of_reported (by rw [hevent]; rfl), tokensLeft_of_handedOut (by rw [hevent]; rfl)⟩

/-- The scan in flight when the revision no longer moves. -/
def boundScan : ScanCandidate where
  targetId := "data"
  kind := .full
  reason := .targetChanged
  fingerprint := "generation-1"
  rootIdentity := none
  capturedGeneration := 5
  revision := u64Max
  token := 1
  dueAt := 0

def boundTail : List PlannerAction :=
  [.markDirty "data" 0 5, .nextCandidate 0, .setWatcherTrusted "data" false 0,
    .complete boundScan 0 (.succeeded .full)]

/-- The last turn before the revision stops. -/
def lastFlip : ℕ := 2 ^ 64 - 3

/-! ### Dispatches -/

/-- Only the tokens may run out. -/
def RevisionsGuard (observed : ObservedPlanner) (action : PlannerAction) : Prop :=
  observed.Issued action ∧ observed.RevisionsLeft action

instance (observed : ObservedPlanner) (action : PlannerAction) :
    Decidable (RevisionsGuard observed action) :=
  inferInstanceAs (Decidable (_ ∧ _))

/-- The planner after `n` dispatches, with the entries given. -/
def dispatchedTimes (targets : Map String TargetState) : HybridScanPlanner :=
  { config := exampleConfig.normalized
    targets := targets
    nextToken := min n u64Max
    dispatchOrder := min n u64Max }

def newEntry : TargetState := .new exampleSpec 0

/-- A first scan, with the generation it captures. -/
def tokenScan (token capturedGeneration : ℕ) : ScanCandidate :=
  { firstScan with token := token, capturedGeneration := capturedGeneration }

theorem step_upsert :
    (dispatchedTimes n ∅).step (.upsertTarget 0 exampleSpec) =
      (dispatchedTimes n (AList.insert "data" newEntry ∅), .inserted "data") :=
  rfl

theorem step_dispatch :
    (dispatchedTimes n (AList.insert "data" newEntry ∅)).step (.nextCandidate 0) =
      (dispatchedTimes (n + 1) (AList.insert "data"
        (newEntry.dispatch 0 (min (n + 1) u64Max) (min (n + 1) u64Max)) ∅),
        .dispatched (tokenScan (min (n + 1) u64Max) 0)) := by
  have hnext : max (saturatingAdd u64Max (min n u64Max) 1) 1 = min (n + 1) u64Max := by
    simp only [saturatingAdd, u64Max]
    omega
  have hselected : (dispatchedTimes n (AList.insert "data" newEntry ∅)).selected 0 =
      some ⟨"data", newEntry, ⟨0, .full, .initial⟩⟩ := rfl
  simp only [HybridScanPlanner.step, HybridScanPlanner.nextCandidate, hselected]
  simp only [dispatchedTimes, hnext, HybridScanPlanner.setTarget, AList.insert_insert]
  rfl

theorem step_remove (target : TargetState) :
    (dispatchedTimes n (AList.insert "data" target ∅)).step (.removeTarget "data") =
      (dispatchedTimes n ∅, .removed "data") :=
  rfl

/-- An entry comes, is dispatched and goes. -/
def round : List PlannerAction :=
  [.upsertTarget 0 exampleSpec, .nextCandidate 0, .removeTarget "data"]

def rounds : List PlannerAction := (List.replicate n round).flatten

variable {after : HybridScanPlanner}

theorem observe_eq (h : planner.step action = (after, event)) (history : List PlannerEvent) :
    ObservedPlanner.observe ⟨planner, history⟩ action = ⟨after, event :: history⟩ := by
  simp only [ObservedPlanner.observe, h]

/-- A step that reports nothing and resets nothing meets the guard. -/
theorem revisionsGuard_cons {history : List PlannerEvent}
    (h : planner.step action = (after, event)) (hreported : event.reported = none)
    (hreset : event.resetEntry = none)
    (hrest : RunsWithin ObservedPlanner.observe RevisionsGuard ⟨after, event :: history⟩ actions) :
    RunsWithin ObservedPlanner.observe RevisionsGuard ⟨planner, history⟩ (action :: actions) := by
  have hevent : ObservedPlanner.event ⟨planner, history⟩ action = event := congrArg Prod.snd h
  refine ⟨⟨issued_of_reported (hevent ▸ hreported), revisionsLeft_of_resetEntry (hevent ▸ hreset)⟩, ?_⟩
  rwa [observe_eq h]

theorem run_round (history : List PlannerEvent) :
    run ObservedPlanner.observe ⟨dispatchedTimes n ∅, history⟩ round =
        ⟨dispatchedTimes (n + 1) ∅, .removed "data" ::
          .dispatched (tokenScan (min (n + 1) u64Max) 0) :: .inserted "data" :: history⟩ ∧
      RunsWithin ObservedPlanner.observe RevisionsGuard ⟨dispatchedTimes n ∅, history⟩ round := by
  constructor
  · rw [round, run_cons, run_cons, run_cons, run_nil, observe_eq (step_upsert n),
      observe_eq (step_dispatch n), observe_eq (step_remove (n + 1) _)]
  · exact revisionsGuard_cons (step_upsert n) rfl rfl (revisionsGuard_cons (step_dispatch n) rfl rfl
      (revisionsGuard_cons (step_remove (n + 1) _) rfl rfl trivial))

theorem run_rounds : ∀ n, ∃ history,
    run ObservedPlanner.observe (.start exampleConfig) (rounds n) = ⟨dispatchedTimes n ∅, history⟩ ∧
    RunsWithin ObservedPlanner.observe RevisionsGuard (.start exampleConfig) (rounds n)
  | 0 => ⟨_, rfl, trivial⟩
  | n + 1 => by
    obtain ⟨history, hrun, hguard⟩ := run_rounds n
    have hrounds : rounds (n + 1) = rounds n ++ round := by
      simp [rounds, List.replicate_succ']
    obtain ⟨hround, hwithin⟩ := run_round n history
    rw [hrounds]
    refine ⟨_, (run_append _ _ _ _).trans (hrun ▸ hround), runsWithin_append hguard ?_⟩
    rwa [hrun]

/-- Two entries of one name, and the scan of the first one. -/
def tokenTail : List PlannerAction :=
  [.upsertTarget 0 exampleSpec, .markDirty "data" 0 5, .nextCandidate 0, .removeTarget "data",
    .upsertTarget 0 exampleSpec, .nextCandidate 0,
    .complete (tokenScan u64Max 5) 0 (.succeeded .full)]

theorem tail_guards :
    RunsWithin ObservedPlanner.observe TokensGuard ⟨plannerWith (flipped lastFlip), history⟩
        boundTail ∧
      RunsWithin ObservedPlanner.observe RevisionsGuard
        ⟨dispatchedTimes (u64Max - 1) ∅, history⟩ tokenTail := by
  constructor <;>
    exact runsWithin_mono (fun hsubset h => ⟨fun c hc => hsubset (h.1 c hc), h.2⟩) _
      (List.nil_subset history) (by decide +kernel)

/-- **Both bounds matter**: a run that exhausts the revisions of an entry, and one that exhausts
the tokens, each lead to an entry whose acknowledged generation exceeds its dirty one. -/
theorem acknowledged_exceeds_dirty :
    (∃ (config : PlannerConfig) (actions : List PlannerAction) (id : String),
      RunsWithin ObservedPlanner.observe TokensGuard (.start config) actions ∧
      LosesChanges (run ObservedPlanner.observe (.start config) actions).planner id) ∧
    (∃ (config : PlannerConfig) (actions : List PlannerAction) (id : String),
      RunsWithin ObservedPlanner.observe RevisionsGuard (.start config) actions ∧
      LosesChanges (run ObservedPlanner.observe (.start config) actions).planner id) := by
  constructor
  · obtain ⟨history, hrun, hguard⟩ := run_flips lastFlip
    refine ⟨exampleConfig, flips lastFlip ++ boundTail, "data",
      runsWithin_append hguard (hrun ▸ (tail_guards history).1), ?_⟩
    rw [run_append, hrun, run_planner]
    exact @losesChanges_of_numbers "data" _ 0 5 (by dsimp only; decide +kernel) (by decide)
  · obtain ⟨history, hrun, hguard⟩ := run_rounds (u64Max - 1)
    refine ⟨exampleConfig, rounds (u64Max - 1) ++ tokenTail, "data",
      runsWithin_append hguard (hrun ▸ (tail_guards history).2), ?_⟩
    rw [run_append, hrun, run_planner]
    exact @losesChanges_of_numbers "data" _ 0 5 (by dsimp only; decide +kernel) (by decide)

end CounterBounds

end DatabasesEverywhere.Disk
