import DatabasesEverywhere.Foundations.Saturating

/-!
# Scheduler/Capacity — budgets of the import/export scheduler

A job declares a cost in three resources, and the scheduler holds a capacity: a number of active
jobs and one budget per resource.  Budgets the operator left at zero are sized from live samples,
and `applyCapacitySample` lets such a budget rise only when two samples in a row ask for it.
-/

open Foundations

namespace DatabasesEverywhere.Scheduler

def fallbackAvailableMemoryMib : ℕ := 4096

inductive SchedulerMode
  | dynamic
  | manual
  deriving DecidableEq

/-- What a job asks for; the fields are a `u64`, a `u64` and a `usize`. -/
structure JobResourceCost where
  memoryMib : ℕ
  ioMib : ℕ
  cpuUnits : ℕ
  memoryMib_le : memoryMib ≤ u64Max
  ioMib_le : ioMib ≤ u64Max
  cpuUnits_le : cpuUnits ≤ usizeMax
  deriving DecidableEq

/-- A cost in small numbers. -/
def JobResourceCost.small (memoryMib ioMib cpuUnits : UInt16) : JobResourceCost where
  memoryMib := memoryMib.toNat
  ioMib := ioMib.toNat
  cpuUnits := cpuUnits.toNat
  memoryMib_le := memoryMib.toNat_lt.le.trans (by decide)
  ioMib_le := ioMib.toNat_lt.le.trans (by decide)
  cpuUnits_le := cpuUnits.toNat_lt.le.trans (by decide)

/-- The capacity in force; the number of active jobs is a `usize`. -/
structure SchedulerCapacity where
  mode : SchedulerMode
  maxActiveJobs : ℕ
  memoryBudgetMib : ℕ
  ioBudgetMib : ℕ
  cpuUnits : ℕ
  maxActiveJobs_le : maxActiveJobs ≤ usizeMax := by decide
  deriving DecidableEq

structure SchedulerResourceSample where
  availableMemoryMib : Option ℕ
  cpuUnits : Option ℕ
  memoryValid : Bool
  cpuValid : Bool
  deriving DecidableEq

/-- The part of the scheduler that never changes. -/
structure Shared where
  starvationTimeout : ℕ
  maxBypass : ℕ
  autoMemoryBudget : Bool
  autoCpuUnits : Bool
  maxBypass_le : maxBypass ≤ usizeMax := by decide

def Shared.refreshesCapacity (shared : Shared) : Bool :=
  shared.autoMemoryBudget || shared.autoCpuUnits

def memoryBudgetFromAvailable (availableMib : ℕ) : ℕ :=
  max (saturatingMul u64Max availableMib 3 / 5) 1

/-- The value in force and the pending increase, after one sample. -/
def applyCapacitySample (current : ℕ) (pending : Option ℕ) (candidate : ℕ) : ℕ × Option ℕ :=
  if candidate ≤ current then (candidate, none)
  else
    match pending with
    | some previous => (min previous candidate, none)
    | none => (current, some candidate)

end DatabasesEverywhere.Scheduler
