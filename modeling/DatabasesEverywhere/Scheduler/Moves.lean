import DatabasesEverywhere.Scheduler.System

/-!
# Scheduler/Moves — what one turn is made of

A call of `acquire` joins the queue or is refused; everything else a turn does is a chain of small
moves, each of which retunes the capacity, takes one job out of the queue, or advances one channel.
`turn_invariant` says so once: an invariant is a fact about the two ends of a call and about each
move.
-/

open Foundations Relation

namespace DatabasesEverywhere.Scheduler

/-! ## Moves -/

/-- The capacity after any samples: only budgets that are sized automatically have moved. -/
structure Retuned (shared : Shared) (old new : SchedulerCapacity) : Prop where
  mode : new.mode = old.mode
  maxActiveJobs : new.maxActiveJobs = old.maxActiveJobs
  ioBudgetMib : new.ioBudgetMib = old.ioBudgetMib
  memoryBudgetMib : shared.autoMemoryBudget = false → new.memoryBudgetMib = old.memoryBudgetMib
  cpuUnits : shared.autoCpuUnits = false → new.cpuUnits = old.cpuUnits

/-- The queue as a grant at `index` finds it. -/
def bypassed (waiting : List WaitingJob) (index : ℕ) : List WaitingJob :=
  if 0 < index then countBypass waiting else waiting

inductive Move (shared : Shared) : System → System → Prop
  | retune {sys : System} {capacity : SchedulerCapacity} (memory cpu : Option ℕ)
      (scheduled accepting : Bool) (wakeups : ℕ)
      (h : Retuned shared sys.state.capacity capacity) :
      Move shared sys
        { sys with
          state :=
            { sys.state with
              capacity := capacity
              pendingMemoryIncreaseMib := memory
              pendingCpuIncrease := cpu
              refreshWakeupScheduled := scheduled
              accepting := accepting }
          wakeups := wakeups }
  | reject {sys : System} {kept rest : List WaitingJob} {job : WaitingJob}
      (hwaiting : sys.state.waiting = kept ++ job :: rest)
      (hunfit : fitsHardMemory sys.state.capacity job.cost = false) :
      Move shared sys (refuse sys (kept ++ rest) job .insufficientCapacity)
  | grant {sys : System} {now index : ℕ} {job : WaitingJob}
      (hroom : sys.state.activeJobs < sys.state.capacity.maxActiveJobs)
      (hindex : runnableIndex shared now sys.state = some index)
      (hjob : (bypassed sys.state.waiting index)[index]? = some job) :
      Move shared sys (grant sys
        { sys.state with waiting := (bypassed sys.state.waiting index).eraseIdx index } job)
  | drain {sys : System} {job : WaitingJob} {rest : List WaitingJob}
      (hwaiting : sys.state.waiting = job :: rest) :
      Move shared sys (refuse sys rest job .closed)
  | take {sys : System} (ready : ℕ) :
      Move shared sys { sys with channels := sys.channels.modify ready Channel.take }
  | cancel {sys : System} (ready : ℕ) :
      Move shared sys { sys with channels := sys.channels.modify ready Channel.cancel }
  | drop {sys : System} {ready : ℕ} {channel : Channel} {phase : Phase}
      (hchannel : sys.channels[ready]? = some channel)
      (hphase : channel.phase.afterDrop = some phase) :
      Move shared sys
        { sys.setChannel ready { channel with phase := phase } with
          state := release sys.state channel.cost }
  | forget {sys : System} {ready : ℕ} {channel : Channel}
      (hchannel : sys.channels[ready]? = some channel) (hphase : channel.phase = .unregistering)
      (hnone : ∀ job ∈ sys.state.waiting, job.sequence ≠ channel.sequence) :
      Move shared sys (sys.setChannel ready { channel with phase := .finished })
  | remove {sys : System} {ready index : ℕ} {channel : Channel} {job : WaitingJob}
      (hchannel : sys.channels[ready]? = some channel) (hphase : channel.phase = .unregistering)
      (hjob : sys.state.waiting[index]? = some job) (hsequence : job.sequence = channel.sequence) :
      Move shared sys
        ((sys.setChannel ready { channel with phase := .finished }).removeWaiting index job)

/-- Any number of moves. -/
abbrev Moves (shared : Shared) : System → System → Prop := ReflTransGen (Move shared)

/-! ## A dispatch is a chain of moves -/

variable {shared : Shared}

theorem Retuned.refl (capacity : SchedulerCapacity) : Retuned shared capacity capacity :=
  ⟨rfl, rfl, rfl, fun _ => rfl, fun _ => rfl⟩

theorem Retuned.trans {a b c : SchedulerCapacity} (hab : Retuned shared a b)
    (hbc : Retuned shared b c) : Retuned shared a c :=
  ⟨hbc.mode.trans hab.mode, hbc.maxActiveJobs.trans hab.maxActiveJobs,
    hbc.ioBudgetMib.trans hab.ioBudgetMib,
    fun h => (hbc.memoryBudgetMib h).trans (hab.memoryBudgetMib h),
    fun h => (hbc.cpuUnits h).trans (hab.cpuUnits h)⟩

theorem Move.retuned {s t : System} (hmove : Move shared s t) :
    Retuned shared s.state.capacity t.state.capacity := by
  cases hmove with
  | retune _ _ _ _ _ h => exact h
  | grant =>
    unfold Scheduler.grant
    split <;> exact Retuned.refl _
  | _ => exact Retuned.refl _

variable (shared) (sample : SchedulerResourceSample) (state : SchedulerState)

theorem refreshMemory_retuned :
    ∃ capacity memory,
    refreshMemory shared sample state
        = { state with capacity := capacity, pendingMemoryIncreaseMib := memory } ∧
      Retuned shared state.capacity capacity ∧ capacity.cpuUnits = state.capacity.cpuUnits := by
  unfold refreshMemory
  split
  next hauto =>
    split
    · exact ⟨_, _, rfl, ⟨rfl, rfl, rfl, fun h => absurd h (by simp [hauto]), fun _ => rfl⟩, rfl⟩
    · exact ⟨_, _, rfl, ⟨rfl, rfl, rfl, fun h => absurd h (by simp [hauto]), fun _ => rfl⟩, rfl⟩
  next => exact ⟨_, _, rfl, Retuned.refl _, rfl⟩

theorem refreshCpu_retuned :
    ∃ capacity cpu,
    refreshCpu shared sample state
        = { state with capacity := capacity, pendingCpuIncrease := cpu } ∧
      Retuned shared state.capacity capacity ∧
      capacity.memoryBudgetMib = state.capacity.memoryBudgetMib := by
  unfold refreshCpu
  split
  next hauto =>
    split
    · exact ⟨_, _, rfl, ⟨rfl, rfl, rfl, fun _ => rfl, fun h => absurd h (by simp [hauto])⟩, rfl⟩
    · exact ⟨_, _, rfl, ⟨rfl, rfl, rfl, fun _ => rfl, fun h => absurd h (by simp [hauto])⟩, rfl⟩
  next => exact ⟨_, _, rfl, Retuned.refl _, rfl⟩

/-- A refresh touches the capacity and its pending increases, and nothing else. -/
theorem refreshCapacity_retuned :
    ∃ capacity memory cpu,
    refreshCapacity shared sample state
        = { state with
            capacity := capacity
            pendingMemoryIncreaseMib := memory
            pendingCpuIncrease := cpu } ∧
      Retuned shared state.capacity capacity := by
  unfold refreshCapacity
  split
  · obtain ⟨c₁, memory, h₁, hr₁, hcpu⟩ := refreshMemory_retuned shared sample state
    rw [h₁]
    obtain ⟨c₂, cpu, h₂, hr₂, hmem⟩ := refreshCpu_retuned shared sample
      { state with capacity := c₁, pendingMemoryIncreaseMib := memory }
    refine ⟨c₂, memory, cpu, h₂, ?_⟩
    exact ⟨hr₂.mode.trans hr₁.mode, hr₂.maxActiveJobs.trans hr₁.maxActiveJobs,
      hr₂.ioBudgetMib.trans hr₁.ioBudgetMib, fun h => hmem.trans (hr₁.memoryBudgetMib h),
      fun h => (hr₂.cpuUnits h).trans hcpu⟩
  · exact ⟨_, _, _, rfl, Retuned.refl _⟩

variable (now : ℕ → ℕ)

theorem rejectFrom_moves :
    ∀ (kept rest : List WaitingJob) (sys : System), sys.state.waiting = kept ++ rest →
      Moves shared sys (rejectFrom shared now kept rest sys)
  | _, [], _, _ => .refl
  | kept, job :: rest, sys, h => by
    rw [rejectFrom]
    split
    next hreject =>
      rw [Bool.and_eq_true, Bool.not_eq_true'] at hreject
      exact .head (.reject h hreject.2) (rejectFrom_moves kept rest _ rfl)
    next => exact rejectFrom_moves (kept ++ [job]) rest sys (by simp [h])

variable {shared}

/-- **Which job a pass runs**: the head, when it fits or may run alone; or the first follower that
fits, past a head that waits for memory or has bypasses left. -/
theorem runnableIndex_eq_some {now index : ℕ} {state : SchedulerState}
    (h : runnableIndex shared now state = some index) :
    ∃ head followers, state.waiting = head :: followers ∧
      ((index = 0 ∧ (fits state.capacity state head.cost ∨
          state.activeJobs = 0 ∧ fitsHardMemory state.capacity head.cost)) ∨
        ∃ i job, index = i + 1 ∧ followers[i]? = some job ∧ head.sequence < job.sequence ∧
          fits state.capacity state job.cost ∧
          (fitsHardMemory state.capacity head.cost → head.bypasses < shared.maxBypass)) := by
  unfold runnableIndex at h
  split at h
  · cases h
  rename_i head followers hwaiting
  refine ⟨head, followers, hwaiting, ?_⟩
  simp only [Bool.or_eq_true, Bool.and_eq_true, beq_iff_eq] at h
  split at h
  next hhead => exact Or.inl ⟨(Option.some.inj h).symm, hhead⟩
  split at h
  · cases h
  rename_i hstarving
  obtain ⟨i, hi, rfl⟩ := Option.map_eq_some_iff.mp h
  obtain ⟨hlt, hfits, -⟩ := List.findIdx?_eq_some_iff_getElem.mp hi
  rw [Bool.and_eq_true, decide_eq_true_iff] at hfits
  refine Or.inr ⟨i, followers[i], rfl, List.getElem?_eq_getElem hlt, hfits.1, hfits.2, ?_⟩
  intro hhard
  by_contra hmany
  exact hstarving (by simp [hhard, Nat.not_lt.mp hmany])

@[simp] theorem length_bypassed (waiting : List WaitingJob) (index : ℕ) :
    (bypassed waiting index).length = waiting.length := by
  unfold bypassed
  split
  · cases waiting <;> rfl
  · rfl

theorem runnableIndex_lt {now index : ℕ} {state : SchedulerState}
    (h : runnableIndex shared now state = some index) : index < state.waiting.length := by
  obtain ⟨head, followers, hwaiting, ⟨rfl, -⟩ | ⟨i, job, rfl, hjob, -⟩⟩ := runnableIndex_eq_some h
  · simp [hwaiting]
  · rw [hwaiting, List.length_cons]
    exact Nat.succ_lt_succ (List.getElem?_eq_some_iff.mp hjob).1

variable (shared)

theorem dispatchLoop_moves :
    ∀ (passes : ℕ) (sys : System), Moves shared sys (dispatchLoop shared now passes sys)
  | 0, _ => .refl
  | passes + 1, sys => by
    rw [dispatchLoop]
    split
    next hroom =>
      rw [Bool.and_eq_true, decide_eq_true_iff] at hroom
      split
      · exact .refl
      rename_i index hindex
      dsimp only
      split
      next hnone =>
        change (bypassed sys.state.waiting index)[index]? = none at hnone
        have := runnableIndex_lt hindex
        simp at hnone
        omega
      next job hjob =>
        exact .head (.grant hroom.2 hindex hjob) (dispatchLoop_moves passes _)
    next => exact .refl

theorem scheduleCapacityRefresh_moves (runtime : Bool) (sys : System) :
    Moves shared sys (scheduleCapacityRefresh shared runtime sys) := by
  unfold scheduleCapacityRefresh
  split
  · exact .refl
  · split
    · exact .single (.retune _ _ true sys.state.accepting _ (Retuned.refl _))
    · exact .refl

theorem rejectExpiredUnfitJobs_moves (sys : System) :
    Moves shared sys (rejectExpiredUnfitJobs shared now sys) := by
  unfold rejectExpiredUnfitJobs
  split
  · exact .refl
  · exact rejectFrom_moves shared now [] _ _ rfl

theorem settled_moves (env : Env) (sys : System) : Moves shared sys (settled shared env sys) := by
  obtain ⟨capacity, memory, cpu, hrefresh, hretuned⟩ :=
    refreshCapacity_retuned shared env.sample sys.state
  unfold settled
  rw [hrefresh]
  exact .head (.retune memory cpu _ _ _ hretuned) (rejectExpiredUnfitJobs_moves shared _ _)

/-- **A dispatch is a chain of moves.** -/
theorem dispatch_moves (env : Env) (sys : System) : Moves shared sys (dispatch shared env sys) := by
  have hadmitted := dispatchLoop_moves shared env.loopClock
    (settled shared env sys).state.waiting.length (settled shared env sys)
  refine (settled_moves shared env sys).trans (hadmitted.trans ?_)
  unfold dispatch
  dsimp only
  split
  · exact scheduleCapacityRefresh_moves shared env.runtime _
  · exact .refl

/-! ## A turn is a chain of moves -/

theorem drain_moves : ∀ (rest : List WaitingJob) (sys : System),
    sys.state.waiting = rest → Moves shared sys (drain rest sys)
  | [], _, _ => .refl
  | _ :: rest, _, h => .head (.drain h) (drain_moves rest _ rfl)

variable {shared}

/-- A call that may join the queue. -/
structure Joins (shared : Shared) (sys : System) (cost : JobResourceCost) : Prop where
  accepting : sys.state.accepting = true
  fits : structurallyExceedsFixedBudget shared sys.state cost = false

/-- The state in which the moves of a turn start, and the state in which they end. -/
def Section.system : Section → System
  | .dispatching sys => sys
  | .done sys => sys

/-- **What a turn does before its dispatch.**  An acquire joins the queue or is refused; every other
turn is a chain of moves. -/
theorem enter_moves (shared : Shared) (env : Env) (sys : System) (action : Action) :
    (∃ cost, action = .acquire cost ∧
        (Joins shared sys cost ∧
            enter shared env sys action = .dispatching (sys.enqueue env.now cost) ∨
          ∃ reason, enter shared env sys action = .done (sys.refuseCall cost reason))) ∨
      action.isAcquire = false ∧ Moves shared sys (enter shared env sys action).system := by
  cases action with
  | acquire cost =>
    refine Or.inl ⟨cost, rfl, ?_⟩
    simp only [enter, acquire]
    split
    · exact Or.inr ⟨_, rfl⟩
    next haccepting =>
      split
      · exact Or.inr ⟨_, rfl⟩
      next hfits => exact Or.inl ⟨⟨by simpa using haccepting, by simpa using hfits⟩, rfl⟩
  | take ready => exact Or.inr ⟨rfl, .single (.take ready)⟩
  | cancel ready => exact Or.inr ⟨rfl, .single (.cancel ready)⟩
  | dropPermit ready =>
    simp only [enter, dropPermit]
    split
    next channel hchannel =>
      split
      next phase hphase => exact Or.inr ⟨rfl, .single (.drop hchannel hphase)⟩
      next => exact Or.inr ⟨rfl, .refl⟩
    next => exact Or.inr ⟨rfl, .refl⟩
  | unregister ready =>
    simp only [enter, unregister]
    split
    next channel hchannel =>
      split
      next hphase =>
        split
        next index hindex =>
          obtain ⟨hlt, hsequence, -⟩ := List.findIdx?_eq_some_iff_getElem.mp hindex
          split
          next job hjob =>
            obtain rfl : _ = job := Option.some.inj ((List.getElem?_eq_getElem hlt).symm.trans hjob)
            exact Or.inr ⟨rfl, .single (.remove hchannel hphase hjob (by simpa using hsequence))⟩
          next hnone => exact absurd hlt (by simpa using hnone)
        next hnone =>
          refine Or.inr ⟨rfl, .single (.forget hchannel hphase ?_)⟩
          simpa [System.setChannel] using hnone
      next => exact Or.inr ⟨rfl, .refl⟩
    next => exact Or.inr ⟨rfl, .refl⟩
  | close =>
    exact Or.inr ⟨rfl, .head (.retune _ _ _ false sys.wakeups (Retuned.refl _))
      (drain_moves shared _ _ rfl)⟩
  | snapshot => exact Or.inr ⟨rfl, .refl⟩
  | wakeup =>
    simp only [enter, wakeup]
    split
    · exact Or.inr ⟨rfl, .refl⟩
    · exact Or.inr ⟨rfl, .single (.retune _ _ false sys.state.accepting _ (Retuned.refl _))⟩

theorem step_moves (shared : Shared) (sys : System) (turn : Env × Action) :
    Moves shared (enter shared turn.1 sys turn.2).system (step shared sys turn) := by
  unfold step
  split
  next s hs =>
    rw [hs]
    exact dispatch_moves shared turn.1 s
  next s hs =>
    rw [hs]
    exact .refl

/-- **The invariant rule of the scheduler.**  What both ends of a call and every move keep, a turn
keeps, and so does the part of a turn before its dispatch. -/
theorem turn_invariant {Inv : System → Prop} {sys : System} {turn : Env × Action} (hinv : Inv sys)
    (henqueue : ∀ cost, turn.2 = .acquire cost → Joins shared sys cost →
      Inv (sys.enqueue turn.1.now cost))
    (hrefuse : ∀ cost reason, turn.2 = .acquire cost → Inv (sys.refuseCall cost reason))
    (hmove : ∀ s t, Move shared s t → Inv s → Inv t) :
    Inv (enter shared turn.1 sys turn.2).system ∧ Inv (step shared sys turn) := by
  have henter : Inv (enter shared turn.1 sys turn.2).system := by
    rcases enter_moves shared turn.1 sys turn.2 with
      ⟨cost, haction, ⟨hjoins, heq⟩ | ⟨reason, heq⟩⟩ | hmoves
    · rw [heq]
      exact henqueue cost haction hjoins
    · rw [heq]
      exact hrefuse cost reason haction
    · exact chain_invariant hmove hmoves.2 hinv
  exact ⟨henter, chain_invariant hmove (step_moves shared sys turn) henter⟩

variable {Inv : System → Prop} {capacity : SchedulerCapacity} (hinit : Inv (initial capacity))
include hinit

/-- The rule for whole runs, from what one turn keeps. -/
theorem after_invariant (hturn : ∀ sys turn, Inv sys → Inv (step shared sys turn))
    (turns : List (Env × Action)) : Inv (after shared capacity turns) :=
  run_invariant hturn turns hinit

/-- The rule for runs whose turns meet a guard. -/
theorem after_invariant_within {guard : System → Env × Action → Prop}
    (hturn : ∀ sys turn, Inv sys → guard sys turn → Inv (step shared sys turn))
    {turns : List (Env × Action)}
    (hwithin : RunsWithin (step shared) guard (initial capacity) turns) :
    Inv (after shared capacity turns) :=
  RunsWithin.invariant hturn turns hinit hwithin

end DatabasesEverywhere.Scheduler
