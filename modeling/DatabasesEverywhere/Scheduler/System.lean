import DatabasesEverywhere.Scheduler.Dispatch

/-!
# Scheduler/System — every critical section of the scheduler, and its runs

Callers, dropped futures, dropped permits, `close`, `snapshot` and refresh tasks take the lock in
any order.  An `Action` is one such turn; `enter` does what the turn does before its dispatch, and
`step` finishes it.  An action that is not enabled leaves the system alone.
-/

open Foundations

namespace DatabasesEverywhere.Scheduler

inductive Action
  /-- `acquire`, up to its `await`. -/
  | acquire (cost : JobResourceCost)
  /-- The `await` of an acquire returns. -/
  | take (ready : ℕ)
  /-- The future of an acquire is dropped at its `await`: the receiver goes first. -/
  | cancel (ready : ℕ)
  /-- A permit is dropped, by its caller or with the channel it sat in. -/
  | dropPermit (ready : ℕ)
  /-- The registration of a dropped future is dropped. -/
  | unregister (ready : ℕ)
  | close
  | snapshot
  /-- A refresh task wakes up. -/
  | wakeup
  deriving DecidableEq

def Action.isAcquire : Action → Bool
  | .acquire _ => true
  | _ => false

/-- A critical section before its dispatch, or one that has none. -/
inductive Section
  | dispatching (sys : System)
  | done (sys : System)

variable (shared : Shared)

def structurallyExceedsFixedBudget (state : SchedulerState) (cost : JobResourceCost) : Bool :=
  state.capacity.mode == .dynamic && !shared.autoMemoryBudget
    && state.capacity.memoryBudgetMib < cost.memoryMib

variable (env : Env) (sys : System)

/-- An `acquire` that returns before it queues. -/
def System.refuseCall (cost : JobResourceCost) (reason : SchedulerAcquireError) : System :=
  { sys with
    channels := sys.channels ++ [⟨cost, sys.state.nextSequence, .failed reason, [.error reason]⟩] }

/-- An `acquire` that queues. -/
def System.enqueue (now : ℕ) (cost : JobResourceCost) : System :=
  let sequence := sys.state.nextSequence
  let ready := sys.channels.length
  { sys with
    state :=
      { sys.state with
        nextSequence := (sequence + 1) % 2 ^ 64
        waiting := sys.state.waiting ++ [⟨sequence, now, 0, cost, ready⟩] }
    channels := sys.channels ++ [⟨cost, sequence, .awaiting, []⟩]
    log := sys.log ++ [.arrived ready sequence sys.state.waiting.length] }

def acquire (cost : JobResourceCost) : Section :=
  if !sys.state.accepting then .done (sys.refuseCall cost .closed)
  else if structurallyExceedsFixedBudget shared sys.state cost then
    .done (sys.refuseCall cost .insufficientCapacity)
  else .dispatching (sys.enqueue env.now cost)

/-- The channel's new phase and replies. -/
def System.setChannel (ready : ℕ) (channel : Channel) : System :=
  { sys with channels := sys.channels.set ready channel }

variable (channel : Channel)

/-- `receiver.await`: a reply in the channel is taken, and a dropped sender reads as `Closed`. -/
def Channel.take : Channel :=
  match channel.phase with
  | .delivered => { channel with phase := .holding }
  | .refused reason => { channel with phase := .failed reason }
  | .orphaned =>
    { channel with phase := .failed .closed, replies := channel.replies ++ [.error .closed] }
  | _ => channel

/-- The receiver is dropped with the future; a permit inside starts its own drop. -/
def Channel.cancel : Channel :=
  match channel.phase with
  | .awaiting | .orphaned | .refused _ => { channel with phase := .unregistering }
  | .delivered => { channel with phase := .abandoning }
  | _ => channel

/-- The end of a permit: its caller is done, or its dropped future goes on to unregister. -/
def Phase.afterDrop : Phase → Option Phase
  | .holding => some .finished
  | .abandoning => some .unregistering
  | _ => none

def dropPermit (ready : ℕ) : Section :=
  match sys.channels[ready]? with
  | some channel =>
    match channel.phase.afterDrop with
    | some phase =>
      let sys := sys.setChannel ready { channel with phase := phase }
      .dispatching { sys with state := release sys.state channel.cost }
    | none => .done sys
  | none => .done sys

/-- A sender dropped with its queued job: a receiver that still waits is left without one. -/
def Channel.dropSender : Channel :=
  if channel.phase = .awaiting then { channel with phase := .orphaned } else channel

/-- The queue without the job at `index`, whose sender goes with it. -/
def System.removeWaiting (index : ℕ) (job : WaitingJob) : System :=
  { sys with
    state := { sys.state with waiting := sys.state.waiting.eraseIdx index }
    channels := sys.channels.modify job.ready Channel.dropSender
    log := sys.log ++ [.left job.ready] }

/-- The registration looks for the first queued job with its sequence. -/
def unregister (ready : ℕ) : Section :=
  match sys.channels[ready]? with
  | some channel =>
    if channel.phase = .unregistering then
      let sys := sys.setChannel ready { channel with phase := .finished }
      match sys.state.waiting.findIdx? (·.sequence == channel.sequence) with
      | some index =>
        match sys.state.waiting[index]? with
        | some job => .dispatching (sys.removeWaiting index job)
        | none => .done sys
      | none => .done sys
    else .done sys
  | none => .done sys

/-- `close` sends `Closed` to every queued job, in order. -/
def drain : List WaitingJob → System → System
  | [], sys => sys
  | job :: rest, sys => drain rest (refuse sys rest job .closed)

def close : System :=
  drain sys.state.waiting { sys with state := { sys.state with accepting := false } }

def wakeup : Section :=
  if sys.wakeups = 0 then .done sys
  else
    .dispatching
      { sys with
        state := { sys.state with refreshWakeupScheduled := false }
        wakeups := sys.wakeups - 1 }

/-- The turn of an action, up to its dispatch. -/
def enter : Action → Section
  | .acquire cost => acquire shared env sys cost
  | .take ready => .done { sys with channels := sys.channels.modify ready Channel.take }
  | .cancel ready => .done { sys with channels := sys.channels.modify ready Channel.cancel }
  | .dropPermit ready => dropPermit sys ready
  | .unregister ready => unregister sys ready
  | .close => .done (close sys)
  | .snapshot => .dispatching sys
  | .wakeup => wakeup sys

/-- One turn. -/
def step (turn : Env × Action) : System :=
  match enter shared turn.1 sys turn.2 with
  | .dispatching sys => dispatch shared turn.1 sys
  | .done sys => sys

structure SchedulerSnapshot where
  capacity : SchedulerCapacity
  activeJobs : ℕ
  waitingJobs : ℕ
  activeMemoryMib : ℕ
  activeIoMib : ℕ
  activeCpuUnits : ℕ
  accepting : Bool

/-- What `snapshot` returns, after its dispatch. -/
def SchedulerState.snapshot (state : SchedulerState) : SchedulerSnapshot :=
  ⟨state.capacity, state.activeJobs, state.waiting.length, state.activeMemoryMib,
    state.activeIoMib, state.activeCpuUnits, state.accepting⟩

/-- A new scheduler, before anyone asked for a permit. -/
def initial (capacity : SchedulerCapacity) : System where
  state :=
    { capacity := capacity
      pendingMemoryIncreaseMib := none
      pendingCpuIncrease := none
      refreshWakeupScheduled := false
      accepting := true
      nextSequence := 0
      activeJobs := 0
      activeMemoryMib := 0
      activeIoMib := 0
      activeCpuUnits := 0
      waiting := [] }
  channels := []
  wakeups := 0
  log := []

/-- The system after any turns. -/
def after (capacity : SchedulerCapacity) (turns : List (Env × Action)) : System :=
  run (step shared) (initial capacity) turns

end DatabasesEverywhere.Scheduler
