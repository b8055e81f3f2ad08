import DatabasesEverywhere.Foundations.Result
import DatabasesEverywhere.Foundations.Runs
import DatabasesEverywhere.Placement.Migration

/-!
# Placement/MigrationHistory — concurrent workers agree on one history

Workers read a record, think, and write it back; anything may happen in between.  The write names
the revision and the stage it was decided on, so it is accepted only on the record that was read.

    worker 1   read r ──────────────── write r → r+1   accepted
    worker 2        read r ───────────────── write r → r+1   stale

What is accepted for one migration is therefore one chain of steps (`Reaches`).  The cutover law is
a property of that chain.
-/

open Foundations

namespace DatabasesEverywhere.Placement

open Server (DeploymentMode)

/-! ## One migration -/

/-- One accepted step of a record. -/
structure Accepts (before after : DeploymentMigration) : Prop where
  migrationId : after.migrationId = before.migrationId
  instanceId : after.instanceId = before.instanceId
  revision : after.revision = before.revision + 1
  allowed : before.stage.allows after.stage = true
  committed : after.cutoverCommitted = true ↔
    before.cutoverCommitted = true ∨ after.stage = .cutoverCommitted
  checks : after.checks = true

theorem Accepts.checks_afterCommit {before after : DeploymentMigration} (h : Accepts before after)
    (hcommitted : after.cutoverCommitted = true) : after.stage.afterCommit = true :=
  DeploymentMigration.afterCommit_of_checks h.checks hcommitted

/-- The steps of a migration from its start to the record that stands. -/
inductive Reaches : List (DeploymentMigration × DeploymentMigration) → DeploymentMigration → Prop
  | start (row : DeploymentMigration) (hrevision : row.revision = 0) (hstage : row.stage = .requested)
      (hcommitted : row.cutoverCommitted = false) : Reaches [] row
  | step {steps : List (DeploymentMigration × DeploymentMigration)}
      {before after : DeploymentMigration} (h : Reaches steps before) (haccepts : Accepts before after) :
      Reaches (steps ++ [(before, after)]) after

/-- A step that does not take a record that was never cut over to the cleanup of its source. -/
def KeepsSource (step : DeploymentMigration × DeploymentMigration) : Prop :=
  step.1.stage = .manualIntervention → step.2.stage = .cleanupPending →
    step.1.cutoverCommitted = true

/-- Where the stages behind the cutover are entered from. -/
theorem crossedCutover_of_allows {before after : MigrationStage} (h : before.allows after = true)
    (hcrossed : after.crossedCutover = true) : after = .cutoverCommitted ∨
      before.crossedCutover = true ∨ before = .manualIntervention ∧ after = .cleanupPending := by
  -- Five stages lie behind the cutover; each is entered from at most three.
  cases after <;> first
    | exact absurd hcrossed Bool.false_ne_true
    | (cases before <;> first | exact absurd h Bool.false_ne_true | decide)

theorem not_afterCommit {stage : MigrationStage} (h : stage.afterCommit = true) :
    stage ≠ .rollingBack ∧ stage ≠ .failed ∧ stage ≠ .cancelled := by
  cases stage <;> first | exact absurd h Bool.false_ne_true | decide

namespace Reaches

variable {steps : List (DeploymentMigration × DeploymentMigration)} {row : DeploymentMigration}

variable (h : Reaches steps row)
include h

theorem revision : row.revision = steps.length := by
  induction h with
  | start row hrevision => exact hrevision
  | step _ haccepts ih => rw [haccepts.revision, ih, List.length_append, List.length_singleton]

/-- **One order**: the `k`-th step leads from revision `k` to revision `k + 1`. -/
theorem revisions :
    steps.map (fun step => (step.1.revision, step.2.revision)) =
      (List.range steps.length).map fun k => (k, k + 1) := by
  induction h with
  | start => rfl
  | step hreaches haccepts ih =>
    rw [List.length_append, List.length_singleton, List.range_succ, List.map_append,
      List.map_append, ih, List.map_singleton, List.map_singleton, haccepts.revision,
      hreaches.revision]

/-- A step starts on the record that the one before it left. -/
theorem chained :
    steps.IsChain (fun step next => step.2 = next.1) ∧ ∀ last ∈ steps.getLast?, last.2 = row := by
  induction h with
  | start => exact ⟨.nil, fun _ h => absurd h (by simp)⟩
  | @step steps before after hreaches haccepts ih =>
    refine ⟨List.isChain_append.mpr ⟨ih.1, .singleton _, ?_⟩, ?_⟩
    · rintro last hlast first ⟨rfl⟩
      exact ih.2 last hlast
    · intro last hlast
      rw [List.getLast?_concat] at hlast
      cases hlast
      rfl

/-- A commit is never taken back. -/
theorem committed_mono :
    ∀ step ∈ steps, step.2.cutoverCommitted = true → row.cutoverCommitted = true := by
  induction h with
  | start => exact fun _ h => absurd h List.not_mem_nil
  | step _ haccepts ih =>
    intro step hmem hcommitted
    rcases List.mem_append.mp hmem with hmem | hmem
    · exact haccepts.committed.mpr (.inl (ih step hmem hcommitted))
    · obtain rfl := List.mem_singleton.mp hmem
      exact hcommitted

/-- **After the cutover** no step rolls back, fails or cancels. -/
theorem no_way_back :
    steps.Pairwise fun earlier later => earlier.2.cutoverCommitted = true →
      later.2.stage ≠ .rollingBack ∧ later.2.stage ≠ .failed ∧ later.2.stage ≠ .cancelled := by
  induction h with
  | start => exact .nil
  | @step steps before after hreaches haccepts ih =>
    refine List.pairwise_append.mpr ⟨ih, List.pairwise_singleton _ _, ?_⟩
    intro earlier hearlier later hlater hcommitted
    obtain rfl := List.mem_singleton.mp hlater
    have hbefore := hreaches.committed_mono earlier hearlier hcommitted
    exact not_afterCommit
      (haccepts.checks_afterCommit (haccepts.committed.mpr (.inl hbefore)))

variable (hkeeps : ∀ step ∈ steps, KeepsSource step)
include hkeeps

/-- **Before the cutover** no step reaches the cleanup of the source. -/
theorem committed_of_crossedCutover :
    row.stage.crossedCutover = true → row.cutoverCommitted = true := by
  induction h with
  | start row hrevision hstage =>
    rw [hstage]
    exact fun h => absurd h Bool.false_ne_true
  | @step steps before after hreaches haccepts ih =>
    intro hcrossed
    have hsteps : ∀ step ∈ steps, KeepsSource step := fun step hmem =>
      hkeeps step (List.mem_append_left _ hmem)
    rcases crossedCutover_of_allows haccepts.allowed hcrossed with
      hcommit | hbefore | ⟨hmanual, hcleanup⟩
    · exact haccepts.committed.mpr (.inr hcommit)
    · exact haccepts.committed.mpr (.inl (ih hsteps hbefore))
    · have hlast := hkeeps (before, after) (List.mem_append_right _ (List.mem_singleton_self _))
      exact haccepts.committed.mpr (.inl (hlast hmanual hcleanup))

theorem steps_crossedCutover :
    ∀ step ∈ steps, step.2.stage.crossedCutover = true → step.2.cutoverCommitted = true := by
  induction h with
  | start => exact fun _ h => absurd h List.not_mem_nil
  | @step steps before after hreaches haccepts ih =>
    intro step hmem hcrossed
    have hsteps : ∀ step ∈ steps, KeepsSource step := fun step hmem =>
      hkeeps step (List.mem_append_left _ hmem)
    rcases List.mem_append.mp hmem with hmem | hmem
    · exact ih hsteps step hmem hcrossed
    · obtain rfl := List.mem_singleton.mp hmem
      exact (hreaches.step haccepts).committed_of_crossedCutover hkeeps hcrossed

end Reaches

/-! ## Workers -/

/-- A call between its read and its write. -/
inductive PendingCall
  | transition (call : TransitionCall)
  | commit (call : CommitCall)
  deriving DecidableEq

namespace PendingCall

def migrationId : PendingCall → String
  | transition call => call.migrationId
  | commit call => call.migrationId

/-- The write of a call, with the outcome of the other statements of a cutover. -/
def write (table : MigrationTable) (placement : Except DeploymentMigrationError Unit)
    (now : String) : PendingCall → Except DeploymentMigrationError MigrationTable
  | transition call => table.writeTransition call now
  | commit call => table.writeCommit call placement now

/-- What the checks of a call have established. -/
def Checked : PendingCall → Prop
  | transition call => call.current.stage.allows call.next = true
  | commit _ => True

end PendingCall

/-- The table, the calls under way, and the steps accepted so far, in their order. -/
structure MigrationSystem where
  table : MigrationTable
  pending : Map ℕ PendingCall
  accepted : List (DeploymentMigration × DeploymentMigration)

inductive MigrationAction
  | start (metadata : InstancePlacement) (targetMode : DeploymentMode)
      (targetPoolId targetLimitsJson : Option String) (migrationId now : String)
  | readTransition (worker : ℕ) (migrationId : String) (expectedRevision : ℕ)
      (next : MigrationStage) (patch : MigrationPatch)
  | readDedicatedToShared (worker : ℕ) (migrationId : String) (expectedRevision : ℕ)
      (target : InstancePlacement)
  | readSharedToDedicated (worker : ℕ) (migrationId : String) (expectedRevision : ℕ)
      (target : InstancePlacement)
  | write (worker : ℕ) (placement : Except DeploymentMigrationError Unit) (now : String)

namespace MigrationSystem

def init : MigrationSystem := ⟨.empty, ∅, []⟩

variable (system : MigrationSystem)

/-- A read that passed its checks leaves a call under way. -/
def await (worker : ℕ) : Except DeploymentMigrationError PendingCall → MigrationSystem
  | .ok call => { system with pending := system.pending.insert worker call }
  | .error _ => system

/-- The step that a write recorded, if it changed the record. -/
def recorded (before after : MigrationTable) (id : String) :
    List (DeploymentMigration × DeploymentMigration) :=
  match before.rows.lookup id, after.rows.lookup id with
  | some row, some row' => [(row, row')]
  | _, _ => []

def finish (worker : ℕ) (placement : Except DeploymentMigrationError Unit) (now : String)
    : MigrationSystem :=
  match system.pending.lookup worker with
  | none => system
  | some call =>
    let done := { system with pending := system.pending.erase worker }
    match call.write system.table placement now with
    | .ok after =>
      { done with
        table := after
        accepted := system.accepted ++ recorded system.table after call.migrationId }
    | .error _ => done

def step : MigrationAction → MigrationSystem
  | .start metadata targetMode targetPoolId targetLimitsJson migrationId now =>
    match system.table.start metadata targetMode targetPoolId targetLimitsJson migrationId now with
    | .ok table => { system with table := table }
    | .error _ => system
  | .readTransition worker migrationId expectedRevision next patch =>
    system.await worker
      ((system.table.readTransition migrationId expectedRevision next patch).map .transition)
  | .readDedicatedToShared worker migrationId expectedRevision target =>
    system.await worker
      ((system.table.readDedicatedToShared migrationId expectedRevision target).map .commit)
  | .readSharedToDedicated worker migrationId expectedRevision target =>
    system.await worker
      ((system.table.readSharedToDedicated migrationId expectedRevision target).map .commit)
  | .write worker placement now => system.finish worker placement now

/-- The accepted steps of one migration. -/
def stepsOf (id : String) : List (DeploymentMigration × DeploymentMigration) :=
  system.accepted.filter fun step => step.1.migrationId = id

/-- No record that was never cut over is about to be taken from manual intervention to the cleanup
of its source. -/
def keepsSource : MigrationAction → Bool
  | .write worker _ _ =>
    match system.pending.lookup worker with
    | some (.transition call) =>
      match system.table.rows.lookup call.migrationId with
      | some row =>
        !(row.stage = .manualIntervention && call.next = .cleanupPending && !row.cutoverCommitted)
      | none => true
    | _ => true
  | _ => true

end MigrationSystem

/-! ## What a write does -/

variable {table after : MigrationTable}

/-- **A write that is accepted** is one step of the record it names. -/
theorem PendingCall.write_eq_ok {call : PendingCall}
    {placement : Except DeploymentMigrationError Unit} {now : String} (hchecked : call.Checked)
    (h : call.write table placement now = .ok after) :
    ∃ row row', table.rows.lookup call.migrationId = some row ∧
      after.rows = table.rows.insert call.migrationId row' ∧ Accepts row row' ∧
      (∀ transition, call = .transition transition → row'.stage = transition.next) ∧
      (∀ commit, call = .commit commit → row'.stage = .cutoverCommitted) := by
  cases call with
  | transition call =>
    simp only [write, MigrationTable.writeTransition] at h
    split at h
    · cases h
    case h_2 row hrow =>
      split at h
      case isFalse => cases h
      case isTrue hmatch =>
        obtain ⟨hchecks, hrows⟩ := MigrationTable.write_eq_ok (mapError_eq_ok.mp h)
        have hid : row.migrationId = call.migrationId := (table.checked _ row hrow).1
        refine ⟨row, MigrationTable.transitioned row call now, hrow, ?_, ?_, ?_, ?_⟩
        · rw [hrows]
          exact congrArg (fun id => table.rows.insert id _) hid
        · exact
            { migrationId := rfl
              instanceId := rfl
              revision := congrArg (· + 1) hmatch.1.symm
              allowed := hmatch.2 ▸ hchecked
              committed := by by_cases hnext : call.next = .cutoverCommitted <;>
                simp [MigrationTable.transitioned, hnext]
              checks := hchecks }
        · rintro transition ⟨rfl⟩
          rfl
        · intro commit hcommit
          cases hcommit
  | commit call =>
    obtain ⟨-, -, h⟩ := bind_eq_ok.mp h
    split at h
    · cases h
    case h_2 row hrow =>
      split at h
      case isFalse => cases h
      case isTrue hmatch =>
        obtain ⟨hchecks, hrows⟩ := MigrationTable.write_eq_ok (mapError_eq_ok.mp h)
        have hid : row.migrationId = call.migrationId := (table.checked _ row hrow).1
        refine ⟨row, MigrationTable.committed row call now, hrow, ?_, ?_, ?_, fun _ _ => rfl⟩
        · rw [hrows]
          exact congrArg (fun id => table.rows.insert id _) hid
        · exact
            { migrationId := rfl
              instanceId := rfl
              revision := congrArg (· + 1) hmatch.1.symm
              allowed := by rw [hmatch.2.1]; rfl
              committed := by simp [MigrationTable.committed]
              checks := hchecks }
        · intro transition htransition
          cases htransition

theorem MigrationTable.start_eq_ok {metadata : InstancePlacement} {targetMode : DeploymentMode}
    {pool limits : Option String} {migrationId now : String}
    (h : table.start metadata targetMode pool limits migrationId now = .ok after) :
    table.rows.lookup migrationId = none ∧
      after.rows = table.rows.insert migrationId
        (requestedRow metadata targetMode pool limits migrationId now) := by
  unfold MigrationTable.start at h
  split at h
  · cases h
  split at h
  · cases h
  split at h
  · cases h
  case isFalse hfresh =>
    split at h
    case h_1 written hwritten =>
      cases h
      exact ⟨AList.lookup_eq_none.mpr hfresh, (MigrationTable.write_eq_ok hwritten).2⟩
    all_goals cases h

theorem readTransition_checked {migrationId : String} {expected : ℕ} {next : MigrationStage}
    {patch : MigrationPatch} {call : TransitionCall}
    (h : table.readTransition migrationId expected next patch = .ok call) :
    call.current.stage.allows call.next = true := by
  obtain ⟨current, -, h⟩ := bind_eq_ok.mp h
  simp only at h
  split at h
  · cases h
  case isFalse hallows =>
    repeat' split at h
    all_goals try cases h
    obtain ⟨-, -, h⟩ := bind_eq_ok.mp h
    cases h
    simpa using hallows

namespace MigrationSystem

/-- The calls under way have passed their checks. -/
def CallsChecked (system : MigrationSystem) : Prop :=
  ∀ worker call, system.pending.lookup worker = some call → call.Checked

/-- What one action can do to the table and to the history. -/
inductive Moves (system : MigrationSystem) (action : MigrationAction) : MigrationSystem → Prop
  | quiet {after : MigrationSystem} (htable : after.table = system.table)
      (haccepted : after.accepted = system.accepted) (hcalls : after.CallsChecked) :
      Moves system action after
  | started {after : MigrationSystem} (row : DeploymentMigration)
      (hfresh : system.table.rows.lookup row.migrationId = none)
      (htable : after.table.rows = system.table.rows.insert row.migrationId row)
      (haccepted : after.accepted = system.accepted) (hcalls : after.CallsChecked)
      (hstart : Reaches [] row) : Moves system action after
  | accepted {after : MigrationSystem} (row row' : DeploymentMigration)
      (hrow : system.table.rows.lookup row.migrationId = some row)
      (htable : after.table.rows = system.table.rows.insert row.migrationId row')
      (haccepted : after.accepted = system.accepted ++ [(row, row')]) (hcalls : after.CallsChecked)
      (haccepts : Accepts row row')
      (hkeeps : system.keepsSource action = true → KeepsSource (row, row')) :
      Moves system action after

variable {system : MigrationSystem}

section Checked

variable (h : system.CallsChecked)
include h

variable (worker : ℕ)

theorem CallsChecked.erase (table : MigrationTable)
    (accepted : List (DeploymentMigration × DeploymentMigration)) :
    CallsChecked ⟨table, system.pending.erase worker, accepted⟩ := by
  intro other call hcall
  by_cases hother : other = worker
  · rw [hother, AList.lookup_erase] at hcall
    cases hcall
  · exact h other call ((AList.lookup_erase_ne hother).symm.trans hcall)

theorem await_moves {action : MigrationAction}
    {result : Except DeploymentMigrationError PendingCall}
    (hresult : ∀ call, result = .ok call → call.Checked) :
    Moves system action (system.await worker result) := by
  cases result with
  | error => exact .quiet rfl rfl h
  | ok call =>
    refine .quiet rfl rfl fun other pending hpending => ?_
    by_cases hother : other = worker
    · rw [hother, await, AList.lookup_insert] at hpending
      exact Option.some.inj hpending ▸ hresult call rfl
    · exact h other pending ((AList.lookup_insert_ne hother).symm.trans hpending)

theorem finish_moves (placement : Except DeploymentMigrationError Unit) (now : String) :
    Moves system (.write worker placement now) (system.finish worker placement now) := by
  unfold finish
  cases hcall : system.pending.lookup worker with
  | none => exact .quiet rfl rfl h
  | some call =>
    simp only
    cases hwrite : call.write system.table placement now with
    | error => exact .quiet rfl rfl (h.erase worker _ _)
    | ok after =>
      obtain ⟨row, row', hrow, hrows, haccepts, htransition, hcommit⟩ :=
        PendingCall.write_eq_ok (h worker call hcall) hwrite
      have hid : row.migrationId = call.migrationId := (system.table.checked _ row hrow).1
      have hafter : after.rows.lookup call.migrationId = some row' := by
        rw [hrows, AList.lookup_insert]
      refine .accepted row row' (hid ▸ hrow) (hid ▸ hrows) ?_ (h.erase worker _ _) haccepts ?_
      · simp only [recorded, hrow, hafter]
      intro hkeeps hmanual hcleanup
      cases call with
      | transition call =>
        have hstage : row.stage = .manualIntervention := hmanual
        have hnext := (htransition call rfl).symm.trans hcleanup
        simp only [PendingCall.migrationId] at hrow
        simpa [keepsSource, hcall, hrow, hnext, hstage] using hkeeps
      | commit call => exact absurd ((hcommit call rfl).symm.trans hcleanup) (by decide)

theorem step_moves (action : MigrationAction) : Moves system action (system.step action) := by
  cases action with
  | start metadata targetMode pool limits migrationId now =>
    simp only [step]
    cases hstart : system.table.start metadata targetMode pool limits migrationId now with
    | error => exact .quiet rfl rfl h
    | ok after =>
      obtain ⟨hfresh, hrows⟩ := MigrationTable.start_eq_ok hstart
      exact .started (requestedRow metadata targetMode pool limits migrationId now) hfresh hrows rfl h
        (.start _ rfl rfl rfl)
  | readTransition worker migrationId expected next patch =>
    refine await_moves h worker fun call hcall => ?_
    cases hread : system.table.readTransition migrationId expected next patch with
    | error => rw [hread] at hcall; cases hcall
    | ok transition =>
      rw [hread] at hcall
      cases hcall
      exact readTransition_checked hread
  | readDedicatedToShared worker migrationId expected target =>
    refine await_moves h worker fun call hcall => ?_
    cases hread : system.table.readDedicatedToShared migrationId expected target with
    | error => rw [hread] at hcall; cases hcall
    | ok commit => rw [hread] at hcall; cases hcall; trivial
  | readSharedToDedicated worker migrationId expected target =>
    refine await_moves h worker fun call hcall => ?_
    cases hread : system.table.readSharedToDedicated migrationId expected target with
    | error => rw [hread] at hcall; cases hcall
    | ok commit => rw [hread] at hcall; cases hcall; trivial
  | write worker placement now => exact finish_moves h worker placement now

end Checked

/-! ## One agreed history -/

/-- Every record is where its accepted steps have led. -/
structure Agreed (system : MigrationSystem) : Prop where
  calls : system.CallsChecked
  reaches : ∀ id row, system.table.rows.lookup id = some row → Reaches (system.stepsOf id) row
  unknown : ∀ id, system.table.rows.lookup id = none → system.stepsOf id = []

theorem agreed_init : init.Agreed where
  calls _ _ h := by cases h
  reaches _ _ h := by cases h
  unknown _ _ := rfl

theorem stepsOf_congr {after : MigrationSystem} (h : after.accepted = system.accepted)
    (id : String) : after.stepsOf id = system.stepsOf id := by
  rw [stepsOf, stepsOf, h]

theorem Agreed.step (h : system.Agreed) (action : MigrationAction) :
    (system.step action).Agreed := by
  have hmoves := step_moves h.calls action
  generalize system.step action = after at hmoves ⊢
  cases hmoves with
  | quiet htable haccepted hcalls =>
    exact ⟨hcalls, fun id row => by rw [htable, stepsOf_congr haccepted]; exact h.reaches id row,
      fun id => by rw [htable, stepsOf_congr haccepted]; exact h.unknown id⟩
  | started row hfresh htable haccepted hcalls hstart =>
    refine ⟨hcalls, fun id other hother => ?_, fun id hnone => ?_⟩
    · rw [stepsOf_congr haccepted]
      rw [htable] at hother
      rcases Map.lookup_insert_eq hother with ⟨rfl, rfl⟩ | ⟨-, hold⟩
      · rw [h.unknown _ hfresh]
        exact hstart
      · exact h.reaches id other hold
    · rw [stepsOf_congr haccepted]
      rw [htable] at hnone
      by_cases hid : id = row.migrationId
      · rw [hid, AList.lookup_insert] at hnone
        cases hnone
      · exact h.unknown id ((AList.lookup_insert_ne hid).symm.trans hnone)
  | accepted row row' hrow htable haccepted hcalls haccepts =>
    have hsteps : ∀ id, after.stepsOf id =
        system.stepsOf id ++ if row.migrationId = id then [(row, row')] else [] := by
      intro id
      rw [stepsOf, haccepted, List.filter_append, List.filter_singleton, stepsOf]
      by_cases hid : row.migrationId = id <;> simp [hid]
    refine ⟨hcalls, fun id other hother => ?_, fun id hnone => ?_⟩
    · rw [htable] at hother
      rcases Map.lookup_insert_eq hother with ⟨rfl, rfl⟩ | ⟨hid, hold⟩
      · rw [hsteps, if_pos rfl]
        exact (h.reaches _ row hrow).step haccepts
      · rw [hsteps, if_neg (Ne.symm hid), List.append_nil]
        exact h.reaches id other hold
    · rw [htable] at hnone
      by_cases hid : id = row.migrationId
      · rw [hid, AList.lookup_insert] at hnone
        cases hnone
      · rw [hsteps, if_neg (Ne.symm hid), List.append_nil]
        exact h.unknown id ((AList.lookup_insert_ne hid).symm.trans hnone)

/-- All steps accepted so far keep the source. -/
def AllKeepSource (system : MigrationSystem) : Prop := ∀ step ∈ system.accepted, KeepsSource step

theorem allKeepSource_step {action : MigrationAction}
    (h : system.AllKeepSource) (hcalls : system.CallsChecked)
    (hguard : system.keepsSource action = true) : (system.step action).AllKeepSource := by
  have hmoves := step_moves hcalls action
  unfold AllKeepSource
  cases hmoves with
  | quiet _ haccepted => rwa [haccepted]
  | started _ _ _ haccepted => rwa [haccepted]
  | accepted row row' hrow htable haccepted hcalls haccepts hkeeps =>
    rw [haccepted]
    intro step hmem
    rcases List.mem_append.mp hmem with hmem | hmem
    · exact h step hmem
    · exact List.mem_singleton.mp hmem ▸ hkeeps hguard

theorem run_agreed (actions : List MigrationAction) : (run step init actions).Agreed :=
  run_invariant (fun _ action h => h.step action) actions agreed_init

theorem run_allKeepSource {actions : List MigrationAction}
    (h : RunsWithin step (fun system action => system.keepsSource action = true) init actions) :
    (run step init actions).AllKeepSource :=
  (RunsWithin.invariant
    (fun (system : MigrationSystem) action (hinv : system.Agreed ∧ system.AllKeepSource) hguard =>
      ⟨hinv.1.step action, allKeepSource_step hinv.2 hinv.1.calls hguard⟩)
    actions ⟨agreed_init, fun _ hmem => absurd hmem List.not_mem_nil⟩ h).2

theorem Agreed.steps (h : system.Agreed) (id : String) :
    system.stepsOf id = [] ∨ ∃ row, Reaches (system.stepsOf id) row := by
  cases hrow : system.table.rows.lookup id with
  | none => exact .inl (h.unknown id hrow)
  | some row => exact .inr ⟨row, h.reaches id row hrow⟩

theorem Agreed.committed (h : system.Agreed) (hkeeps : system.AllKeepSource) :
    ∀ step ∈ system.accepted, step.2.stage.crossedCutover = true →
      step.2.cutoverCommitted = true := by
  intro step hmem hcrossed
  have hown : step ∈ system.stepsOf step.1.migrationId := by simp [stepsOf, hmem]
  rcases h.steps step.1.migrationId with hnone | ⟨row, hreaches⟩
  · rw [hnone] at hown
    exact absurd hown List.not_mem_nil
  · exact hreaches.steps_crossedCutover
      (fun other hother => hkeeps other (List.mem_of_mem_filter hother)) step hown hcrossed

end MigrationSystem

/-- **One agreed history.**  However the workers interleave: the `k`-th accepted step of a migration
leads from revision `k` to `k + 1` and starts on the record the step before it left; an instance has
at most one active migration; and once a migration is committed no later step rolls it back, fails or
cancels it.  If no step takes a record that was never cut over from manual intervention to the
cleanup, the source is cleaned only after the cutover. -/
theorem migrations_agree (actions : List MigrationAction) :
    let system := run MigrationSystem.step .init actions
    (∀ id, (system.stepsOf id).map (fun step => (step.1.revision, step.2.revision)) =
        (List.range (system.stepsOf id).length).map (fun k => (k, k + 1)) ∧
      (system.stepsOf id).IsChain (fun step next => step.2 = next.1) ∧
      (system.stepsOf id).Pairwise fun earlier later => earlier.2.cutoverCommitted = true →
        later.2.stage ≠ .rollingBack ∧ later.2.stage ≠ .failed ∧ later.2.stage ≠ .cancelled) ∧
    (∀ id row, system.table.rows.lookup id = some row →
      row.revision = (system.stepsOf id).length ∧
        ∀ last ∈ (system.stepsOf id).getLast?, last.2 = row) ∧
    (∀ id id' row row', system.table.rows.lookup id = some row →
      system.table.rows.lookup id' = some row' → row.stage.isTerminal = false →
      row'.stage.isTerminal = false → row.instanceId = row'.instanceId → id = id') ∧
    (RunsWithin MigrationSystem.step (fun system action => system.keepsSource action = true) .init
        actions →
      ∀ step ∈ system.accepted, step.2.stage = .cleaningSource ∨ step.2.stage = .completed →
        step.2.cutoverCommitted = true) := by
  have hagreed := MigrationSystem.run_agreed actions
  refine ⟨fun id => ?_, fun id row hrow => ?_, MigrationTable.active _, fun hrun step hmem hstage => ?_⟩
  · rcases hagreed.steps id with hnone | ⟨row, hreaches⟩
    · rw [hnone]
      exact ⟨rfl, .nil, .nil⟩
    · exact ⟨hreaches.revisions, hreaches.chained.1, hreaches.no_way_back⟩
  · have hreaches := hagreed.reaches id row hrow
    exact ⟨hreaches.revision, hreaches.chained.2⟩
  · refine hagreed.committed (MigrationSystem.run_allKeepSource hrun) step hmem ?_
    rcases hstage with hstage | hstage <;> rw [hstage] <;> rfl

def exampleSource : InstancePlacement where
  instanceId := "inst-a"
  protocol := .postgres
  deploymentMode := .dedicated
  storedRuntimeId := "inst-a"

/-- One worker reads and writes without being disturbed. -/
def advance (expectedRevision : ℕ) (next : MigrationStage) (patch : MigrationPatch := {}) :
    List MigrationAction :=
  [.readTransition 1 "m" expectedRevision next patch, .write 1 (.ok ()) "now"]

def startRun : List MigrationAction :=
  [.start exampleSource .shared none none "m" "now"] ++ advance 0 .preflight ++
    advance 1 .targetPreparing

/-- The way through the cutover. -/
def cutoverRun : List MigrationAction :=
  startRun ++ advance 2 .targetPrepared { targetRuntimeId := some "pool" } ++
    advance 3 .sourceFencing ++ advance 4 .sourceFenced { sourceFenced := some true } ++
    advance 5 .exporting ++ advance 6 .exported ++ advance 7 .importing ++ advance 8 .imported ++
    advance 9 .validating ++ advance 10 .cutoverPending ++
    [.readDedicatedToShared 2 "m" 11
      { exampleSource with deploymentMode := .shared, storedRuntimeId := "pool" },
      .write 2 (.ok ()) "now"] ++
    advance 12 .verifyingCutover ++ advance 13 .cleaningSource ++ advance 14 .completed

theorem cutoverRun_committed :
    ∃ step ∈ (run MigrationSystem.step .init cutoverRun).accepted,
      step.2.stage = .completed ∧ step.2.cutoverCommitted = true := by
  have hsome : ∃ step ∈ (run MigrationSystem.step .init cutoverRun).accepted,
      step.2.stage = .completed := by decide +kernel
  obtain ⟨step, hmem, hstage⟩ := hsome
  obtain ⟨-, -, -, hcommitted⟩ := migrations_agree cutoverRun
  exact ⟨step, hmem, hstage, hcommitted (by decide +kernel) step hmem (.inr hstage)⟩

/-- The way around the cutover: a rollback that needed an operator goes on to the cleanup. -/
def aroundRun : List MigrationAction :=
  startRun ++ advance 2 .rollingBack ++ advance 3 .manualIntervention ++ advance 4 .cleanupPending ++
    advance 5 .cleaningSource ++ advance 6 .completed

/-- **The source is cleaned without a cutover.** -/
theorem aroundRun_not_committed :
    (∃ step ∈ (run MigrationSystem.step .init aroundRun).accepted,
      step.2.stage = .cleaningSource ∧ step.2.cutoverCommitted = false) ∧
    ∃ step ∈ (run MigrationSystem.step .init aroundRun).accepted,
      step.2.stage = .completed ∧ step.2.cutoverCommitted = false := by
  decide +kernel

end DatabasesEverywhere.Placement
