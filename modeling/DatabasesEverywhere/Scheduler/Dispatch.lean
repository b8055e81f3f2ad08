import DatabasesEverywhere.Foundations.Runs
import DatabasesEverywhere.Scheduler.Capacity

/-!
# Scheduler/Dispatch — the queue, the permits, and one dispatch

    acquire ──▶ waiting ──▶ dispatch ──▶ oneshot channel ──▶ caller
                   │            │               │
                cancelled    rejected     receiver dropped

A `System` is the locked state together with what hangs off it: one `Channel` per call of
`acquire`, and the refresh tasks that are still asleep.  A channel records where its acquire is and
which replies were ever sent to it; `log` records, in order, what happened to the queue.  Time is
read from arbitrary clocks, so nothing below depends on how they run.
-/

open Foundations

namespace DatabasesEverywhere.Scheduler

/-! ## State -/

inductive SchedulerAcquireError
  | closed
  | insufficientCapacity
  deriving DecidableEq

/-- A queued job; `ready` names the channel its sender belongs to. -/
structure WaitingJob where
  sequence : ℕ
  queuedAt : ℕ
  bypasses : ℕ
  cost : JobResourceCost
  ready : ℕ
  deriving DecidableEq

structure SchedulerState where
  capacity : SchedulerCapacity
  pendingMemoryIncreaseMib : Option ℕ
  pendingCpuIncrease : Option ℕ
  refreshWakeupScheduled : Bool
  accepting : Bool
  nextSequence : ℕ
  activeJobs : ℕ
  activeMemoryMib : ℕ
  activeIoMib : ℕ
  activeCpuUnits : ℕ
  waiting : List WaitingJob
  deriving DecidableEq

/-- What a channel is sent. -/
inductive Reply
  | permit
  | error (reason : SchedulerAcquireError)
  deriving DecidableEq

/-- Where a call of `acquire`, its channel and its permit are.

* `awaiting` — the receiver is polled and nothing was sent;
* `orphaned` — the receiver is polled and the sender was dropped unsent;
* `delivered`, `refused` — a permit or an error sits in the channel;
* `holding`, `failed` — the call returned a permit or an error;
* `abandoning` — the receiver was dropped with a permit inside, whose drop is on its way;
* `unregistering` — the receiver is gone and the armed registration is on its way;
* `finished` — nothing of the call is left. -/
inductive Phase
  | awaiting
  | orphaned
  | delivered
  | refused (reason : SchedulerAcquireError)
  | holding
  | failed (reason : SchedulerAcquireError)
  | abandoning
  | unregistering
  | finished
  deriving DecidableEq

/-- A permit that exists: in a channel, held by a caller, or about to run its drop. -/
def Phase.isLive : Phase → Bool
  | .delivered | .holding | .abandoning => true
  | _ => false

/-- One call of `acquire`: its cost, the sequence its registration remembers, where it is, and
every reply it was ever sent. -/
structure Channel where
  cost : JobResourceCost
  sequence : ℕ
  phase : Phase
  replies : List Reply
  deriving DecidableEq

/-- What happened to the queue: a job joined behind `ahead` others, a job was granted (leaving the
state `after`), or a job left in any other way. -/
inductive Event
  | arrived (ready sequence ahead : ℕ)
  | granted (ready sequence : ℕ) (after : SchedulerState)
  | left (ready : ℕ)
  deriving DecidableEq

structure System where
  state : SchedulerState
  channels : List Channel
  wakeups : ℕ
  log : List Event

/-! ## Replies -/

def Reply.phase : Reply → Phase
  | .permit => .delivered
  | .error reason => .refused reason

/-- `oneshot::Sender::send` on the channel `ready`: `none` hands the value back, because the
receiver is gone. -/
def send (channels : List Channel) (ready : ℕ) (reply : Reply) : Option (List Channel) :=
  match channels[ready]? with
  | some channel =>
    if channel.phase = .awaiting then
      some (channels.set ready
        { channel with phase := reply.phase, replies := channel.replies ++ [reply] })
    else none
  | none => none

/-! ## Capacity -/

variable (shared : Shared) (sample : SchedulerResourceSample) (capacity : SchedulerCapacity)

variable (now : ℕ) (state : SchedulerState)

def refreshMemory : SchedulerState :=
  if shared.autoMemoryBudget then
    if sample.memoryValid then
      let candidate :=
        memoryBudgetFromAvailable (sample.availableMemoryMib.getD fallbackAvailableMemoryMib)
      let (current, pending) := applyCapacitySample state.capacity.memoryBudgetMib
        state.pendingMemoryIncreaseMib candidate
      { state with
        capacity := { state.capacity with memoryBudgetMib := current }
        pendingMemoryIncreaseMib := pending }
    else
      { state with
        capacity := { state.capacity with memoryBudgetMib := 1 }
        pendingMemoryIncreaseMib := none }
  else state

def refreshCpu : SchedulerState :=
  if shared.autoCpuUnits then
    if sample.cpuValid then
      let candidate := max (sample.cpuUnits.getD 1) 1
      let (current, pending) := applyCapacitySample state.capacity.cpuUnits
        state.pendingCpuIncrease candidate
      { state with
        capacity := { state.capacity with cpuUnits := current }
        pendingCpuIncrease := pending }
    else
      { state with
        capacity := { state.capacity with cpuUnits := 1 }
        pendingCpuIncrease := none }
  else state

def refreshCapacity : SchedulerState :=
  if shared.refreshesCapacity then refreshCpu shared sample (refreshMemory shared sample state)
  else state

variable (cost : JobResourceCost)

def fitsHardMemory : Bool :=
  capacity.mode == .manual || cost.memoryMib ≤ capacity.memoryBudgetMib

def fits : Bool :=
  if capacity.mode = .manual then state.activeJobs < capacity.maxActiveJobs
  else
    saturatingAdd u64Max state.activeMemoryMib cost.memoryMib ≤ capacity.memoryBudgetMib
      && saturatingAdd u64Max state.activeIoMib cost.ioMib ≤ capacity.ioBudgetMib
      && saturatingAdd usizeMax state.activeCpuUnits cost.cpuUnits ≤ capacity.cpuUnits

def reserve : SchedulerState :=
  { state with
    activeJobs := saturatingAdd usizeMax state.activeJobs 1
    activeMemoryMib := saturatingAdd u64Max state.activeMemoryMib cost.memoryMib
    activeIoMib := saturatingAdd u64Max state.activeIoMib cost.ioMib
    activeCpuUnits := saturatingAdd usizeMax state.activeCpuUnits cost.cpuUnits }

def release : SchedulerState :=
  { state with
    activeJobs := state.activeJobs - 1
    activeMemoryMib := state.activeMemoryMib - cost.memoryMib
    activeIoMib := state.activeIoMib - cost.ioMib
    activeCpuUnits := state.activeCpuUnits - cost.cpuUnits }

/-! ## Dispatch -/

/-- `queued_at.elapsed() >= starvation_timeout`, when the clock reads `now`. -/
def WaitingJob.expired (job : WaitingJob) : Bool :=
  shared.starvationTimeout ≤ now - job.queuedAt

/-- The first follower that fits, for a head that does not run. -/
def followerIndex (head : WaitingJob) (followers : List WaitingJob) : Option ℕ :=
  (followers.findIdx? fun job =>
    head.sequence < job.sequence && fits state.capacity state job.cost).map (· + 1)

def runnableIndex : Option ℕ :=
  match state.waiting with
  | [] => none
  | head :: followers =>
    let headFitsHardMemory := fitsHardMemory state.capacity head.cost
    let headRunsAlone := state.activeJobs == 0 && headFitsHardMemory
    if fits state.capacity state head.cost || headRunsAlone then some 0
    else
      let waitingForLiveCapacity := state.capacity.mode == .dynamic && !headFitsHardMemory
      let headIsStarving := shared.maxBypass ≤ head.bypasses || head.expired shared now
      if !waitingForLiveCapacity && headIsStarving then none
      else followerIndex state head followers

/-- The head's bypass counter, when a follower overtakes it. -/
def countBypass : List WaitingJob → List WaitingJob
  | [] => []
  | head :: followers =>
    { head with bypasses := saturatingAdd usizeMax head.bypasses 1 } :: followers

/-- One removed job: its cost is reserved and the permit sent; a permit handed back is disarmed and
its reservation released. -/
def grant (sys : System) (state : SchedulerState) (job : WaitingJob) : System :=
  match send sys.channels job.ready .permit with
  | some channels =>
    { sys with
      state := reserve state job.cost
      channels := channels
      log := sys.log ++ [.granted job.ready job.sequence (reserve state job.cost)] }
  | none =>
    { sys with
      state := release (reserve state job.cost) job.cost
      log := sys.log ++ [.left job.ready] }

/-- The admission loop.  Every pass takes a job out of the queue, so as many passes as there are
jobs are enough; `now n` is the time read with `n` passes to go. -/
def dispatchLoop (shared : Shared) (now : ℕ → ℕ) : ℕ → System → System
  | 0, sys => sys
  | passes + 1, sys =>
    if sys.state.accepting && sys.state.activeJobs < sys.state.capacity.maxActiveJobs then
      match runnableIndex shared (now passes) sys.state with
      | none => sys
      | some index =>
        let waiting := if 0 < index then countBypass sys.state.waiting else sys.state.waiting
        match waiting[index]? with
        | none => { sys with state := { sys.state with waiting := waiting } }
        | some job =>
          dispatchLoop shared now passes
            (grant sys { sys.state with waiting := waiting.eraseIdx index } job)
    else sys

/-- A job that leaves the queue with an error. -/
def refuse (sys : System) (waiting : List WaitingJob) (job : WaitingJob)
    (reason : SchedulerAcquireError) : System :=
  { sys with
    state := { sys.state with waiting := waiting }
    channels := (send sys.channels job.ready (.error reason)).getD sys.channels
    log := sys.log ++ [.left job.ready] }

/-- The walk over the queue: `kept` was examined, `rest` is still to be; `now n` is the time read
with `n` jobs behind the one examined. -/
def rejectFrom (shared : Shared) (now : ℕ → ℕ) (kept : List WaitingJob) :
    List WaitingJob → System → System
  | [], sys => sys
  | job :: rest, sys =>
    if job.expired shared (now rest.length) && !fitsHardMemory sys.state.capacity job.cost then
      rejectFrom shared now kept rest (refuse sys (kept ++ rest) job .insufficientCapacity)
    else rejectFrom shared now (kept ++ [job]) rest sys

def rejectExpiredUnfitJobs (now : ℕ → ℕ) (sys : System) : System :=
  if sys.state.capacity.mode ≠ .dynamic then sys
  else rejectFrom shared now [] sys.state.waiting sys

def scheduleCapacityRefresh (runtime : Bool) (sys : System) : System :=
  if sys.state.refreshWakeupScheduled || !shared.refreshesCapacity then sys
  else if runtime then
    { sys with
      state := { sys.state with refreshWakeupScheduled := true }
      wakeups := sys.wakeups + 1 }
  else sys

/-- What a critical section reads from outside: the time of an `acquire`, the host's sample, the
clocks of the two loops, and whether it runs inside a `tokio` runtime. -/
structure Env where
  now : ℕ
  sample : SchedulerResourceSample
  rejectClock : ℕ → ℕ
  loopClock : ℕ → ℕ
  runtime : Bool

/-- The system as the admission loop finds it: capacity refreshed, expired jobs rejected. -/
def settled (env : Env) (sys : System) : System :=
  rejectExpiredUnfitJobs shared env.rejectClock
    { sys with state := refreshCapacity shared env.sample sys.state }

def dispatch (env : Env) (sys : System) : System :=
  let sys := settled shared env sys
  let sys := dispatchLoop shared env.loopClock sys.state.waiting.length sys
  if sys.state.accepting && !sys.state.waiting.isEmpty then
    scheduleCapacityRefresh shared env.runtime sys
  else sys

end DatabasesEverywhere.Scheduler
