import DatabasesEverywhere.Scheduler.Moves

/-!
# Scheduler/Refresh — live capacity rises only on confirmation

Every dispatch samples the host.  A sample that asks for less is obeyed at once; one that asks for
more is kept as `pending` and obeyed only if the next sample asks for more as well:

    sample        value     pending
    invalid       1         —
    c ≤ value     c         —
    c > value     value     c            first to ask
    c > value     min p c   —            `p` was pending

`Sized` is either resource that may be sized this way.  `refreshed` is what a list of samples does to
a new scheduler.
-/

open Foundations

namespace DatabasesEverywhere.Scheduler

/-! ## The resources that follow the host -/

inductive Sized
  | memory
  | cpu
  deriving DecidableEq

variable {resource : Sized} {shared : Shared}

namespace Sized

/-- Whether the operator left the resource to the scheduler. -/
def auto (shared : Shared) : Sized → Bool
  | memory => shared.autoMemoryBudget
  | cpu => shared.autoCpuUnits

/-- The value in force. -/
def value (capacity : SchedulerCapacity) : Sized → ℕ
  | memory => capacity.memoryBudgetMib
  | cpu => capacity.cpuUnits

def pending (state : SchedulerState) : Sized → Option ℕ
  | memory => state.pendingMemoryIncreaseMib
  | cpu => state.pendingCpuIncrease

/-- The value a sample asks for, if it is valid. -/
def asks (sample : SchedulerResourceSample) : Sized → Option ℕ
  | memory =>
    if sample.memoryValid then
      some (memoryBudgetFromAvailable
        (sample.availableMemoryMib.getD fallbackAvailableMemoryMib))
    else none
  | cpu => if sample.cpuValid then some (max (sample.cpuUnits.getD 1) 1) else none

theorem asks_pos {sample : SchedulerResourceSample} {candidate : ℕ}
    (h : resource.asks sample = some candidate) : 1 ≤ candidate := by
  cases resource with
  | memory | cpu =>
    rw [asks, Option.ite_none_right_eq_some, Option.some.injEq] at h
    rw [← h.2]
    exact Nat.le_max_right _ _

/-- One refresh of one resource. -/
def retune (value : ℕ) (pending : Option ℕ) : Option ℕ → ℕ × Option ℕ
  | none => (1, none)
  | some candidate => applyCapacitySample value pending candidate

theorem refreshCpu_memory (shared : Shared) (sample : SchedulerResourceSample)
    (state : SchedulerState) :
    (refreshCpu shared sample state).capacity.memoryBudgetMib = state.capacity.memoryBudgetMib ∧
      (refreshCpu shared sample state).pendingMemoryIncreaseMib = state.pendingMemoryIncreaseMib := by
  unfold refreshCpu
  split
  · split <;> exact ⟨rfl, rfl⟩
  · exact ⟨rfl, rfl⟩

theorem refreshMemory_cpu (shared : Shared) (sample : SchedulerResourceSample)
    (state : SchedulerState) :
    (refreshMemory shared sample state).capacity.cpuUnits = state.capacity.cpuUnits ∧
      (refreshMemory shared sample state).pendingCpuIncrease = state.pendingCpuIncrease := by
  unfold refreshMemory
  split
  · split <;> exact ⟨rfl, rfl⟩
  · exact ⟨rfl, rfl⟩

theorem refreshMemory_memory (hauto : shared.autoMemoryBudget = true)
    (sample : SchedulerResourceSample) (state : SchedulerState) :
    ((refreshMemory shared sample state).capacity.memoryBudgetMib,
        (refreshMemory shared sample state).pendingMemoryIncreaseMib) =
      retune state.capacity.memoryBudgetMib state.pendingMemoryIncreaseMib (memory.asks sample) := by
  rw [refreshMemory, if_pos hauto, asks]
  cases sample.memoryValid <;> rfl

theorem refreshCpu_cpu (hauto : shared.autoCpuUnits = true) (sample : SchedulerResourceSample)
    (state : SchedulerState) :
    ((refreshCpu shared sample state).capacity.cpuUnits,
        (refreshCpu shared sample state).pendingCpuIncrease) =
      retune state.capacity.cpuUnits state.pendingCpuIncrease (cpu.asks sample) := by
  rw [refreshCpu, if_pos hauto, asks]
  cases sample.cpuValid <;> rfl

/-- **A refresh retunes every resource that is left to the scheduler.** -/
theorem refreshCapacity_eq (hauto : resource.auto shared = true)
    (sample : SchedulerResourceSample) (state : SchedulerState) :
    (resource.value (refreshCapacity shared sample state).capacity,
        resource.pending (refreshCapacity shared sample state)) =
      retune (resource.value state.capacity) (resource.pending state) (resource.asks sample) := by
  cases resource with
  | memory =>
    obtain ⟨hvalue, hpending⟩ := refreshCpu_memory shared sample (refreshMemory shared sample state)
    rw [refreshCapacity, if_pos (Bool.or_eq_true _ _ ▸ .inl hauto), value, pending, hvalue, hpending]
    exact refreshMemory_memory hauto sample state
  | cpu =>
    obtain ⟨hvalue, hpending⟩ := refreshMemory_cpu shared sample state
    rw [refreshCapacity, if_pos (Bool.or_eq_true _ _ ▸ .inr hauto)]
    have hcpu := refreshCpu_cpu hauto sample (refreshMemory shared sample state)
    rwa [hvalue, hpending] at hcpu

/-- **What one refresh can do.** -/
theorem retune_cases (value : ℕ) (pending asked : Option ℕ) :
    asked = none ∧ retune value pending asked = (1, none) ∨
    (∃ c, asked = some c ∧ c ≤ value ∧ retune value pending asked = (c, none)) ∨
    (∃ c, asked = some c ∧ value < c ∧ pending = none ∧
      retune value pending asked = (value, some c)) ∨
    ∃ c p, asked = some c ∧ value < c ∧ pending = some p ∧
      retune value pending asked = (min p c, none) := by
  cases asked with
  | none => exact .inl ⟨rfl, rfl⟩
  | some c =>
    by_cases hle : c ≤ value
    · exact .inr (.inl ⟨c, rfl, hle, if_pos hle⟩)
    · have hlt := Nat.lt_of_not_le hle
      cases pending with
      | none => exact .inr (.inr (.inl ⟨c, rfl, hlt, rfl, if_neg hle⟩))
      | some p => exact .inr (.inr (.inr ⟨c, p, rfl, hlt, rfl, if_neg hle⟩))

theorem retune_le (value : ℕ) (pending asked : Option ℕ) :
    (retune value pending asked).1 ≤ asked.getD 1 := by
  rcases retune_cases value pending asked with
    ⟨rfl, h⟩ | ⟨c, rfl, _, h⟩ | ⟨c, rfl, hlt, _, h⟩ | ⟨c, p, rfl, _, _, h⟩
  · rw [h]
    exact Nat.le_refl 1
  · rw [h]
    exact Nat.le_refl c
  · rw [h]
    exact hlt.le
  · rw [h]
    exact Nat.min_le_right p c

end Sized

/-! ## Lists of samples -/

/-- A new scheduler after some samples. -/
def refreshed (shared : Shared) (capacity : SchedulerCapacity)
    (samples : List SchedulerResourceSample) : SchedulerState :=
  run (fun state sample => refreshCapacity shared sample state) (initial capacity).state samples

theorem refreshed_concat (shared : Shared) (capacity : SchedulerCapacity)
    (samples : List SchedulerResourceSample) (sample : SchedulerResourceSample) :
    refreshed shared capacity (samples ++ [sample]) =
      refreshCapacity shared sample (refreshed shared capacity samples) :=
  run_append _ _ samples [sample]

section Refreshed

variable {capacity : SchedulerCapacity}

/-- A pending increase is what the last sample asked for. -/
theorem pending_refreshed (hauto : resource.auto shared = true)
    (samples : List SchedulerResourceSample) {p : ℕ}
    (h : resource.pending (refreshed shared capacity samples) = some p) :
    ∃ earlier last, samples = earlier ++ [last] ∧ resource.asks last = some p := by
  induction samples using List.reverseRecOn with
  | nil => cases resource <;> cases h
  | append_singleton samples sample =>
    refine ⟨samples, sample, rfl, ?_⟩
    have hrefresh := congrArg Prod.snd
      (Sized.refreshCapacity_eq hauto sample (refreshed shared capacity samples))
    rw [← refreshed_concat] at hrefresh
    rw [h] at hrefresh
    rcases Sized.retune_cases (resource.value (refreshed shared capacity samples).capacity)
        (resource.pending (refreshed shared capacity samples)) (resource.asks sample) with
      ⟨_, hretune⟩ | ⟨c, _, _, hretune⟩ | ⟨c, hasks, _, _, hretune⟩ | ⟨c, p', _, _, _, hretune⟩
    · cases hrefresh.trans (congrArg Prod.snd hretune)
    · cases hrefresh.trans (congrArg Prod.snd hretune)
    · cases hrefresh.trans (congrArg Prod.snd hretune)
      exact hasks
    · cases hrefresh.trans (congrArg Prod.snd hretune)

/-- The value never falls under one. -/
theorem value_refreshed_pos (hauto : resource.auto shared = true)
    (hinitial : 1 ≤ resource.value capacity) (samples : List SchedulerResourceSample) :
    1 ≤ resource.value (refreshed shared capacity samples).capacity := by
  induction samples using List.reverseRecOn with
  | nil => exact hinitial
  | append_singleton samples sample ih =>
    have hvalue := congrArg Prod.fst
      (Sized.refreshCapacity_eq hauto sample (refreshed shared capacity samples))
    rw [← refreshed_concat] at hvalue
    dsimp only at hvalue
    rw [hvalue]
    rcases Sized.retune_cases (resource.value (refreshed shared capacity samples).capacity)
        (resource.pending (refreshed shared capacity samples)) (resource.asks sample) with
      ⟨_, hretune⟩ | ⟨c, hasks, _, hretune⟩ | ⟨c, _, _, _, hretune⟩ |
        ⟨c, p, hasks, _, hpending, hretune⟩
    · rw [hretune]
    · rw [hretune]
      exact Sized.asks_pos hasks
    · rw [hretune]
      exact ih
    · obtain ⟨_, last, _, hlast⟩ := pending_refreshed hauto samples hpending
      rw [hretune]
      exact Nat.le_min.mpr ⟨Sized.asks_pos hlast, Sized.asks_pos hasks⟩

/-- **Live capacity rises only on confirmation.**  After every refresh the value is at least one and
at most what the sample asks for, or one if it is invalid; and it rises only if the last two samples
asked for more, to the smaller of them. -/
theorem capacity_rises_on_confirmation (shared : Shared) (resource : Sized)
    (hauto : resource.auto shared = true) (capacity : SchedulerCapacity)
    (hinitial : 1 ≤ resource.value capacity) (samples : List SchedulerResourceSample)
    (sample : SchedulerResourceSample) :
    let before := resource.value (refreshed shared capacity samples).capacity
    let now := resource.value (refreshed shared capacity (samples ++ [sample])).capacity
    1 ≤ now ∧ now ≤ (resource.asks sample).getD 1 ∧
      (before < now → ∃ earlier previous p c, samples = earlier ++ [previous] ∧
        resource.asks previous = some p ∧ resource.asks sample = some c ∧
        before < p ∧ before < c ∧ now = min p c) := by
  intro before now
  have hnow : now = (Sized.retune before
      (resource.pending (refreshed shared capacity samples)) (resource.asks sample)).1 := by
    rw [← Sized.refreshCapacity_eq hauto sample (refreshed shared capacity samples),
      ← refreshed_concat]
  refine ⟨value_refreshed_pos hauto hinitial _, ?_, fun hrises => ?_⟩
  · rw [hnow]
    exact Sized.retune_le _ _ _
  rcases Sized.retune_cases before
      (resource.pending (refreshed shared capacity samples)) (resource.asks sample) with
    ⟨_, hretune⟩ | ⟨c, _, hle, hretune⟩ | ⟨c, _, _, _, hretune⟩ |
      ⟨c, p, hasks, hlt, hpending, hretune⟩
  · rw [hnow, hretune] at hrises
    exact absurd hrises (Nat.not_lt.mpr (value_refreshed_pos hauto hinitial samples))
  · rw [hnow, hretune] at hrises
    exact absurd hrises (Nat.not_lt.mpr hle)
  · rw [hnow, hretune] at hrises
    exact absurd hrises (Nat.lt_irrefl _)
  obtain ⟨earlier, previous, hsamples, hprevious⟩ := pending_refreshed hauto samples hpending
  rw [hretune] at hnow
  refine ⟨earlier, previous, p, c, hsamples, hprevious, hasks, ?_, hlt, hnow⟩
  rw [hnow] at hrises
  exact hrises.trans_le (Nat.min_le_left p c)

end Refreshed

/-- Every budget is left to the scheduler. -/
def autoBudgets : Shared where
  starvationTimeout := 60
  maxBypass := 3
  autoMemoryBudget := true
  autoCpuUnits := true

/-- A valid sample. -/
def hostSample (memoryMib cpuUnits : ℕ) : SchedulerResourceSample :=
  ⟨some memoryMib, some cpuUnits, true, true⟩

/-- A dynamic capacity with one CPU unit. -/
def oneUnit (memoryBudgetMib : ℕ) : SchedulerCapacity where
  mode := .dynamic
  maxActiveJobs := 8
  memoryBudgetMib := memoryBudgetMib
  ioBudgetMib := 1000
  cpuUnits := 1

/-- The second sample confirms the first: 600 of 1000 MiB, and 480 of 800. -/
theorem capacity_rises_to_smaller_sample :
    (refreshed autoBudgets (oneUnit 180) [hostSample 1000 4]).capacity.memoryBudgetMib = 180 ∧
      (refreshed autoBudgets (oneUnit 180)
        [hostSample 1000 4, hostSample 800 4]).capacity.memoryBudgetMib = 480 ∧
      1 ≤ (refreshed autoBudgets (oneUnit 180)
        [hostSample 1000 4, hostSample 800 4]).capacity.memoryBudgetMib :=
  ⟨by decide, by decide,
    (capacity_rises_on_confirmation autoBudgets .memory rfl (oneUnit 180) (by decide)
      [hostSample 1000 4] (hostSample 800 4)).1⟩

/-- A budget of zero stays at zero until it is confirmed, and an unreadable sample raises it. -/
theorem zero_budget_breaks_bounds :
    (refreshed autoBudgets (oneUnit 0) [hostSample 1000 4]).capacity.memoryBudgetMib = 0 ∧
      (refreshed autoBudgets (oneUnit 0) [⟨none, none, false, false⟩]).capacity.memoryBudgetMib = 1 :=
  ⟨by decide, by decide⟩

end DatabasesEverywhere.Scheduler
