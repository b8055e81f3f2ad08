import DatabasesEverywhere.Scheduler.Accounting

/-!
# Scheduler/Admission — what may be active at once

A grant keeps the three budgets, or it admits the one job that runs alone: past the budgets for
I/O and CPU, never past the one for memory.  With fixed budgets the bounds hold at every moment;
with automatic ones the capacity may fall under what is active, and the bounds hold at each grant.
-/

open Foundations

namespace DatabasesEverywhere.Scheduler

/-- The active jobs keep a capacity: in dynamic mode memory always, and the other two budgets
unless at most one job is active. -/
structure Safe (capacity : SchedulerCapacity) (state : SchedulerState) : Prop where
  jobs : state.activeJobs ≤ capacity.maxActiveJobs
  memory : capacity.mode = .dynamic → state.activeMemoryMib ≤ capacity.memoryBudgetMib
  weights : capacity.mode = .dynamic → state.activeJobs ≤ 1 ∨
    state.activeIoMib ≤ capacity.ioBudgetMib ∧ state.activeCpuUnits ≤ capacity.cpuUnits

variable {shared : Shared} {s t : System}

/-! ## One grant -/

variable {capacity : SchedulerCapacity} {cost : JobResourceCost} {state : SchedulerState}

theorem fits_dynamic (hmode : capacity.mode = .dynamic) :
    fits capacity state cost = true ↔
      saturatingAdd u64Max state.activeMemoryMib cost.memoryMib ≤ capacity.memoryBudgetMib ∧
      saturatingAdd u64Max state.activeIoMib cost.ioMib ≤ capacity.ioBudgetMib ∧
      saturatingAdd usizeMax state.activeCpuUnits cost.cpuUnits ≤ capacity.cpuUnits := by
  simp [fits, hmode, and_assoc]

theorem fitsHardMemory_dynamic (hmode : capacity.mode = .dynamic) :
    fitsHardMemory capacity cost = true ↔ cost.memoryMib ≤ capacity.memoryBudgetMib := by
  simp [fitsHardMemory, hmode]

/-- An idle scheduler holds nothing. -/
theorem Accounted.active_eq_zero (h : Accounted s) (hidle : s.state.activeJobs = 0)
    (r : Resource) : Resource.active s.state r = 0 := by
  have hle := h.active_le r
  rw [heldCost, held_eq_zero (h.jobs.symm.trans hidle)] at hle
  exact Nat.le_zero.mp hle

/-- **A reservation for an admissible job is safe.** -/
theorem reserve_safe (h : Accounted s) (hroom : s.state.activeJobs < s.state.capacity.maxActiveJobs)
    (hadmissible : Admissible s.state cost)
    (hjobs : state.activeJobs = saturatingAdd usizeMax s.state.activeJobs 1)
    (hactive : ∀ r, Resource.active state r
      = saturatingAdd r.limit (Resource.active s.state r) (Resource.of cost r)) :
    Safe s.state.capacity state := by
  have hone : state.activeJobs ≤ s.state.activeJobs + 1 := by
    rw [hjobs]
    exact saturatingAdd_le _ _ _
  have hmemory := hactive .memory
  have hio := hactive .io
  have hcpu := hactive .cpu
  simp only [Resource.active, Resource.of, Resource.limit] at hmemory hio hcpu
  refine ⟨Nat.le_trans hone hroom, fun hmode => ?_, fun hmode => ?_⟩
  · rcases hadmissible with hfits | ⟨hidle, hhard⟩
    · rw [hmemory]
      exact ((fits_dynamic hmode).mp hfits).1
    have hzero : s.state.activeMemoryMib = 0 := h.active_eq_zero hidle .memory
    rw [hmemory, hzero]
    refine Nat.le_trans (saturatingAdd_le _ _ _) ?_
    rw [Nat.zero_add]
    exact (fitsHardMemory_dynamic hmode).mp hhard
  · rcases hadmissible with hfits | ⟨hidle, -⟩
    · rw [hio, hcpu]
      exact Or.inr ((fits_dynamic hmode).mp hfits).2
    · exact Or.inl (Nat.le_trans hone (by omega))

/-! ## Fixed budgets -/

/-- Every effect but a grant only lowers the counters. -/
theorem Effect.safe (heffect : Effect s t) (haccounted : Accounted s)
    (h : Safe s.state.capacity s.state) : Safe s.state.capacity t.state := by
  have lower (hjobs : t.state.activeJobs ≤ s.state.activeJobs)
      (hactive : ∀ r, Resource.active t.state r ≤ Resource.active s.state r) :
      Safe s.state.capacity t.state :=
    ⟨Nat.le_trans hjobs h.jobs, fun hmode => Nat.le_trans (hactive .memory) (h.memory hmode),
      fun hmode => (h.weights hmode).imp (Nat.le_trans hjobs) fun hw =>
        ⟨Nat.le_trans (hactive .io) hw.1, Nat.le_trans (hactive .cpu) hw.2⟩⟩
  cases heffect with
  | still jobs active => exact lower (Nat.le_of_eq jobs) fun r => Nat.le_of_eq (active r)
  | bounced cost room jobs active =>
    refine lower ?_ fun r => ?_
    · rw [jobs]
      exact saturatingAdd_sub_le _ _ _
    · rw [active]
      exact saturatingAdd_sub_le _ _ _
  | granted cost room admissible jobs active =>
    exact reserve_safe haccounted room admissible jobs active
  | dropped cost jobs active =>
    refine lower ?_ fun r => ?_
    · rw [jobs]
      exact Nat.sub_le _ _
    · rw [active]
      exact Nat.sub_le _ _

theorem Retuned.eq_of_fixed {old new : SchedulerCapacity} (h : Retuned shared old new)
    (hmemory : shared.autoMemoryBudget = false) (hcpu : shared.autoCpuUnits = false) :
    new = old := by
  obtain ⟨mode, jobs, memory, io, cpu, hle⟩ := old
  obtain ⟨mode', jobs', memory', io', cpu', hle'⟩ := new
  obtain rfl : mode' = mode := h.mode
  obtain rfl : jobs' = jobs := h.maxActiveJobs
  obtain rfl : io' = io := h.ioBudgetMib
  obtain rfl : memory' = memory := h.memoryBudgetMib hmemory
  obtain rfl : cpu' = cpu := h.cpuUnits hcpu
  rfl

/-- What holds at every moment, whatever the budgets do. -/
structure Admitting (shared : Shared) (capacity : SchedulerCapacity) (sys : System) : Prop where
  sound : sys.Sound
  accounted : Accounted sys
  retuned : Retuned shared capacity sys.state.capacity
  jobs : sys.state.activeJobs ≤ capacity.maxActiveJobs
  fixed : shared.autoMemoryBudget = false → shared.autoCpuUnits = false →
    Safe capacity sys.state
  grants : ∀ ready sequence after, .granted ready sequence after ∈ sys.log →
    Safe after.capacity after

/-- The events of a move: a grant stands in the log with the state right after it. -/
theorem Move.mem_log (hmove : Move shared s t) {event : Event} (hevent : event ∈ t.log) :
    (event ∈ s.log ∨ ∃ ready, event = .left ready) ∨
      ∃ ready sequence cost waiting,
        event = .granted ready sequence (reserve { s.state with waiting := waiting } cost) ∧
        s.state.activeJobs < s.state.capacity.maxActiveJobs ∧ Admissible s.state cost := by
  have hleft : ∀ ready, event ∈ s.log ++ [.left ready] →
      event ∈ s.log ∨ ∃ ready, event = .left ready := fun ready h =>
    (List.mem_append.mp h).imp_right fun h => ⟨ready, List.mem_singleton.mp h⟩
  cases hmove with
  | reject | drain | remove => exact Or.inl (hleft _ hevent)
  | retune | take | cancel | drop | forget => exact Or.inl (Or.inl hevent)
  | @grant now index job hroom hindex hjob =>
    unfold Scheduler.grant at hevent
    split at hevent
    · refine (List.mem_append.mp hevent).imp Or.inl fun h => ?_
      exact ⟨_, _, _, _, List.mem_singleton.mp h, hroom, runnableIndex_admissible hindex hjob⟩
    · exact Or.inl (hleft _ hevent)

theorem Move.activeJobs_le (hmove : Move shared s t) (hsound : s.Sound)
    (h : s.state.activeJobs ≤ s.state.capacity.maxActiveJobs) :
    t.state.activeJobs ≤ s.state.capacity.maxActiveJobs := by
  cases hmove.effect hsound with
  | still jobs => rwa [jobs]
  | bounced cost room jobs =>
    rw [jobs]
    exact Nat.le_trans (saturatingAdd_sub_le _ _ _) h
  | granted cost room admissible jobs =>
    rw [jobs]
    exact Nat.le_trans (saturatingAdd_le _ _ _) room
  | dropped cost jobs =>
    rw [jobs]
    exact Nat.le_trans (Nat.sub_le _ _) h

theorem Move.admitting (hmove : Move shared s t)
    (h : Admitting shared capacity s) : Admitting shared capacity t := by
  have hmax := h.retuned.maxActiveJobs
  refine ⟨hmove.sound h.sound, hmove.accounted h.sound h.accounted,
    h.retuned.trans hmove.retuned, ?_, ?_, ?_⟩
  · rw [← hmax]
    exact hmove.activeJobs_le h.sound (by rw [hmax]; exact h.jobs)
  · intro hmemory hcpu
    have hsame := h.retuned.eq_of_fixed hmemory hcpu
    rw [← hsame]
    exact (hmove.effect h.sound).safe h.accounted (by rw [hsame]; exact h.fixed hmemory hcpu)
  · intro ready sequence after hgranted
    rcases hmove.mem_log hgranted with (hold | ⟨_, heq⟩) |
      ⟨_, _, cost, waiting, heq, hroom, hadmissible⟩
    · exact h.grants ready sequence after hold
    · cases heq
    · obtain ⟨-, -, rfl⟩ := Event.granted.inj heq
      exact reserve_safe h.accounted hroom hadmissible rfl fun r => by cases r <;> rfl

theorem admitting_turn (h : Admitting shared capacity s) (turn : Env × Action) :
    Admitting shared capacity (enter shared turn.1 s turn.2).system ∧
      Admitting shared capacity (step shared s turn) := by
  refine turn_invariant h (fun cost _ _ => ?_) (fun cost reason _ => ?_)
    (fun _ _ hmove => hmove.admitting)
  · refine ⟨h.sound.enqueue _ cost, h.accounted.enqueue _ cost, h.retuned, h.jobs, ?_, ?_⟩
    · exact fun hmemory hcpu => ⟨(h.fixed hmemory hcpu).jobs, (h.fixed hmemory hcpu).memory,
        (h.fixed hmemory hcpu).weights⟩
    · intro ready sequence after hgranted
      rcases List.mem_append.mp hgranted with hold | hnew
      · exact h.grants ready sequence after hold
      · cases List.mem_singleton.mp hnew
  · exact ⟨h.sound.refuseCall cost reason, h.accounted.refuseCall cost reason, h.retuned,
      h.jobs, h.fixed, h.grants⟩

theorem admitting_after (shared : Shared) (capacity : SchedulerCapacity)
    (turns : List (Env × Action)) : Admitting shared capacity (after shared capacity turns) := by
  refine @after_invariant shared (Admitting shared capacity) capacity ?_
    (fun sys turn h => (admitting_turn h turn).2) turns
  refine ⟨Sound.initially, (Balanced.initially capacity).accounted, Retuned.refl _,
    Nat.zero_le _, fun _ _ => ?_, by simp [initial]⟩
  exact ⟨Nat.zero_le _, fun _ => Nat.zero_le _, fun _ => Or.inl (Nat.zero_le _)⟩

/-- **Admission is safe.**  With fixed budgets in dynamic mode at most `maxActiveJobs` jobs are
active, within the memory budget, and within the other two unless there is only one; in manual mode
the number of jobs is bounded; and with any budgets the same holds right after every grant, against
the capacity of that dispatch. -/
theorem admission_safe (shared : Shared) (capacity : SchedulerCapacity)
    (turns : List (Env × Action)) :
    let sys := after shared capacity turns
    (capacity.mode = .dynamic → shared.autoMemoryBudget = false → shared.autoCpuUnits = false →
      sys.state.activeJobs ≤ capacity.maxActiveJobs ∧
      sys.state.activeMemoryMib ≤ capacity.memoryBudgetMib ∧
      (sys.state.activeJobs ≤ 1 ∨ sys.state.activeIoMib ≤ capacity.ioBudgetMib ∧
        sys.state.activeCpuUnits ≤ capacity.cpuUnits)) ∧
    (capacity.mode = .manual → sys.state.activeJobs ≤ capacity.maxActiveJobs) ∧
    ∀ ready sequence state, .granted ready sequence state ∈ sys.log →
      state.activeJobs ≤ state.capacity.maxActiveJobs ∧
      (state.capacity.mode = .dynamic →
        state.activeMemoryMib ≤ state.capacity.memoryBudgetMib ∧
        (state.activeJobs ≤ 1 ∨ state.activeIoMib ≤ state.capacity.ioBudgetMib ∧
          state.activeCpuUnits ≤ state.capacity.cpuUnits)) := by
  intro sys
  have h : Admitting shared capacity sys := admitting_after shared capacity turns
  refine ⟨fun hmode hmemory hcpu => ?_, fun _ => h.jobs, fun ready sequence state hgranted => ?_⟩
  · have hsafe := h.fixed hmemory hcpu
    exact ⟨hsafe.jobs, hsafe.memory hmode, hsafe.weights hmode⟩
  · have hsafe := h.grants ready sequence state hgranted
    exact ⟨hsafe.jobs, fun hmode => ⟨hsafe.memory hmode, hsafe.weights hmode⟩⟩

def oversizedJob : JobResourceCost := .small 80 900 3

/-- A job past the I/O budget runs alone, and the next one waits for it. -/
theorem admission_safe_oversized_alone :
    let sys := after fixedBudgets smallHost
      [(quiet, .acquire oversizedJob), (quiet, .acquire smallJob)]
    sys.state.activeIoMib = 900 ∧ sys.state.activeJobs ≤ 4 ∧ sys.state.activeMemoryMib ≤ 100 :=
  have h := (admission_safe fixedBudgets smallHost
    [(quiet, .acquire oversizedJob), (quiet, .acquire smallJob)]).1 rfl rfl rfl
  ⟨by decide, h.1, h.2.1⟩

end DatabasesEverywhere.Scheduler
