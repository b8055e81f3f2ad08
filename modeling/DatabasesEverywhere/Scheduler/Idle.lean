import DatabasesEverywhere.Scheduler.Admission

/-!
# Scheduler/Idle — when the scheduler idles over work it could run

A job past the I/O or CPU budget may run alone, but only from the head of the queue.  Behind a head
that does not fit the memory in force it is held to all three budgets, so an idle scheduler can
leave it waiting.  `stranded` describes these queues before the dispatch, and
`idlesOverWork_dispatch_iff` says that there are no others.
-/

open Foundations

namespace DatabasesEverywhere.Scheduler

/-! ## The gap -/

/-- Accepting, idle, and a job that fits the memory in force is waiting. -/
def IdlesOverWork (sys : System) : Prop :=
  sys.state.accepting = true ∧ sys.state.activeJobs = 0 ∧
    ∃ job ∈ sys.state.waiting, job.cost.memoryMib ≤ sys.state.capacity.memoryBudgetMib

instance (sys : System) : Decidable (IdlesOverWork sys) :=
  inferInstanceAs (Decidable (_ ∧ _ ∧ _))

/-- The receiver of a queued job is still there. -/
def isOpen (channels : List Channel) (job : WaitingJob) : Bool :=
  channels[job.ready]?.any fun channel => channel.phase == .awaiting

/-- A job that fits all three budgets by itself. -/
def fitsAlone (capacity : SchedulerCapacity) (cost : JobResourceCost) : Bool :=
  cost.memoryMib ≤ capacity.memoryBudgetMib && cost.ioMib ≤ capacity.ioBudgetMib
    && cost.cpuUnits ≤ capacity.cpuUnits

/-- The follower that may pass a head waiting for memory. -/
def passes (capacity : SchedulerCapacity) (head job : WaitingJob) : Bool :=
  head.sequence < job.sequence && fitsAlone capacity job.cost

/-- The queue strands a job: past cancelled heads, the first live one does not fit the memory in
force; what could pass it is cancelled; and a job that fits the memory cannot pass it. -/
def strands (capacity : SchedulerCapacity) (channels : List Channel) : List WaitingJob → Bool
  | [] => false
  | head :: followers =>
    if head.cost.memoryMib ≤ capacity.memoryBudgetMib then
      !isOpen channels head && strands capacity channels followers
    else
      (followers.all fun job => !(passes capacity head job && isOpen channels job))
        && followers.any fun job =>
          job.cost.memoryMib ≤ capacity.memoryBudgetMib && !passes capacity head job

/-- The queue without the jobs whose patience ran out over memory. -/
def survivors (shared : Shared) (now : ℕ → ℕ) (capacity : SchedulerCapacity) :
    List WaitingJob → List WaitingJob
  | [] => []
  | job :: rest =>
    if job.expired shared (now rest.length) && !fitsHardMemory capacity job.cost then
      survivors shared now capacity rest
    else job :: survivors shared now capacity rest

/-- The state before a dispatch from which it idles over work. -/
def stranded (shared : Shared) (env : Env) (sys : System) : Bool :=
  let capacity := (refreshCapacity shared env.sample sys.state).capacity
  sys.state.accepting && sys.state.activeJobs == 0
    && strands capacity sys.channels (survivors shared env.rejectClock capacity sys.state.waiting)

variable {shared : Shared}

/-! ## One pass over an idle scheduler -/

variable {job : WaitingJob} {channels : List Channel}

theorem send_eq_none_iff {reply : Reply} :
    send channels job.ready reply = none ↔ isOpen channels job = false := by
  unfold send isOpen
  cases channels[job.ready]? with
  | none => simp
  | some channel => by_cases h : channel.phase = .awaiting <;> simp [h]

/-- Nothing is active and nothing is reserved. -/
structure Empty (state : SchedulerState) : Prop where
  jobs : state.activeJobs = 0
  memory : state.activeMemoryMib = 0
  io : state.activeIoMib = 0
  cpu : state.activeCpuUnits = 0

variable {state : SchedulerState}

theorem fits_of_empty (h : Empty state)
    (hmode : state.capacity.mode = .dynamic) (cost : JobResourceCost) :
    fits state.capacity state cost = fitsAlone state.capacity cost := by
  rw [Bool.eq_iff_iff, fits_dynamic hmode, h.memory, h.io, h.cpu,
    saturatingAdd_eq (by simpa using cost.memoryMib_le),
    saturatingAdd_eq (by simpa using cost.ioMib_le),
    saturatingAdd_eq (by simpa using cost.cpuUnits_le)]
  simp [fitsAlone, and_assoc]

theorem empty_release_reserve (h : Empty state)
    (waiting : List WaitingJob) (cost : JobResourceCost) :
    Empty (release (reserve { state with waiting := waiting } cost) cost) := by
  have hzero : ∀ limit c, saturatingAdd limit 0 c - c = 0 := fun limit c =>
    Nat.le_zero.mp (saturatingAdd_sub_le limit 0 c)
  refine ⟨?_, ?_, ?_, ?_⟩
  · change saturatingAdd usizeMax state.activeJobs 1 - 1 = 0
    rw [h.jobs, hzero]
  · change saturatingAdd u64Max state.activeMemoryMib cost.memoryMib - cost.memoryMib = 0
    rw [h.memory, hzero]
  · change saturatingAdd u64Max state.activeIoMib cost.ioMib - cost.ioMib = 0
    rw [h.io, hzero]
  · change saturatingAdd usizeMax state.activeCpuUnits cost.cpuUnits - cost.cpuUnits = 0
    rw [h.cpu, hzero]

variable {followers : List WaitingJob} {head : WaitingJob}

/-- Which job an idle pass runs. -/
theorem runnableIndex_of_empty (h : Empty state) (hmode : state.capacity.mode = .dynamic)
    (hwaiting : state.waiting = head :: followers) (now : ℕ) :
    runnableIndex shared now state =
      if head.cost.memoryMib ≤ state.capacity.memoryBudgetMib then some 0
      else (followers.findIdx? fun job => passes state.capacity head job).map (· + 1) := by
  have hhard := @fitsHardMemory_dynamic state.capacity head.cost hmode
  unfold runnableIndex
  rw [hwaiting]
  by_cases hfits : head.cost.memoryMib ≤ state.capacity.memoryBudgetMib
  · rw [if_pos hfits]
    simp [hhard.mpr hfits, h.jobs]
  have hnot : fitsHardMemory state.capacity head.cost = false :=
    Bool.eq_false_iff.mpr fun h => hfits (hhard.mp h)
  have hnofit : fits state.capacity state head.cost = false := by
    rw [fits_of_empty h hmode]
    simp [fitsAlone, hfits]
  rw [if_neg hfits]
  simp only [hnot, hnofit, hmode]
  simp [followerIndex, passes, fits_of_empty h hmode]

variable {sys : System}

theorem grant_of_open (h : isOpen sys.channels job = true) (state : SchedulerState) :
    (grant sys state job).state = reserve state job.cost := by
  have hsend : send sys.channels job.ready .permit ≠ none := fun hnone => by
    rw [send_eq_none_iff] at hnone
    exact absurd (h.symm.trans hnone) Bool.noConfusion
  unfold grant
  split
  · rfl
  next hnone => exact absurd hnone hsend

theorem grant_of_closed (h : isOpen sys.channels job = false) (state : SchedulerState) :
    (grant sys state job).state = release (reserve state job.cost) job.cost ∧
      (grant sys state job).channels = sys.channels := by
  rw [grant, send_eq_none_iff.mpr h]
  exact ⟨rfl, rfl⟩

/-! ## The whole loop -/

variable (now : ℕ → ℕ)

/-- A loop that starts with an active job ends with one. -/
theorem dispatchLoop_busy : ∀ (n : ℕ) (sys : System), 0 < sys.state.activeJobs →
    0 < (dispatchLoop shared now n sys).state.activeJobs
  | 0, _, h => h
  | n + 1, sys, h => by
    rw [dispatchLoop]
    split
    next hroom =>
      rw [Bool.and_eq_true, decide_eq_true_iff] at hroom
      split
      · exact h
      rename_i index hindex
      dsimp only
      split
      · exact h
      rename_i job hjob
      refine dispatchLoop_busy n _ ?_
      have hmax := sys.state.capacity.maxActiveJobs_le
      have hone : saturatingAdd usizeMax sys.state.activeJobs 1
          = sys.state.activeJobs + 1 := saturatingAdd_eq (by omega)
      cases hopen : isOpen sys.channels job with
      | true =>
        rw [grant_of_open hopen]
        exact Nat.lt_of_lt_of_eq (Nat.succ_pos _) hone.symm
      | false =>
        rw [(grant_of_closed hopen _).1]
        change 0 < saturatingAdd usizeMax sys.state.activeJobs 1 - 1
        rw [hone]
        exact h
    next => exact h

variable {capacity : SchedulerCapacity}

/-- The job taken out past a blocking head was not what the queue strands. -/
theorem strands_eraseIdx {head' : WaitingJob} {i : ℕ} (hcost : head'.cost = head.cost)
    (hsequence : head'.sequence = head.sequence)
    (hblocks : ¬head.cost.memoryMib ≤ capacity.memoryBudgetMib) (hi : followers[i]? = some job)
    (hpasses : passes capacity head job = true) (hclosed : isOpen channels job = false) :
    strands capacity channels (head' :: followers.eraseIdx i)
      = strands capacity channels (head :: followers) := by
  have hsame : ∀ j, passes capacity head' j = passes capacity head j := fun j => by
    rw [passes, passes, hsequence]
  rw [strands, strands, hcost, if_neg hblocks, if_neg hblocks]
  simp only [hsame]
  rw [List.eraseIdx_eq_take_drop_succ]
  conv_rhs => rw [eq_take_cons_drop hi]
  simp [List.all_append, List.any_append, hpasses, hclosed]

theorem strands_of_no_pass (hblocks : ¬head.cost.memoryMib ≤ capacity.memoryBudgetMib)
    (hno : ∀ job ∈ followers, passes capacity head job = false) :
    strands capacity channels (head :: followers) = true ↔
      ∃ job ∈ followers, job.cost.memoryMib ≤ capacity.memoryBudgetMib := by
  rw [strands, if_neg hblocks, Bool.and_eq_true, List.all_eq_true, List.any_eq_true]
  constructor
  · rintro ⟨-, job, hjob, h⟩
    exact ⟨job, hjob, by simpa [hno job hjob] using h⟩
  · rintro ⟨job, hjob, h⟩
    exact ⟨fun j hj => by simp [hno j hj], job, hjob, by simpa [hno job hjob] using h⟩

/-- Idle, and a job that fits the memory is waiting. -/
def IdleOver (capacity : SchedulerCapacity) (sys : System) : Prop :=
  sys.state.activeJobs = 0 ∧
    ∃ job ∈ sys.state.waiting, job.cost.memoryMib ≤ capacity.memoryBudgetMib

/-- One idle pass, given what the rest of the loop does. -/
theorem idleOver_pass {now : ℕ → ℕ} {n : ℕ} (hempty : Empty sys.state) (job : WaitingJob)
    (waiting : List WaitingJob) (ih : isOpen sys.channels job = false →
      (IdleOver sys.state.capacity (dispatchLoop shared now n
          (grant sys { sys.state with waiting := waiting } job)) ↔
        strands sys.state.capacity sys.channels waiting = true)) :
    IdleOver sys.state.capacity (dispatchLoop shared now n
        (grant sys { sys.state with waiting := waiting } job)) ↔
      isOpen sys.channels job = false ∧
        strands sys.state.capacity sys.channels waiting = true := by
  cases hopen : isOpen sys.channels job with
  | false => exact (ih hopen).trans (and_iff_right rfl).symm
  | true =>
    have hbusy : 0 < (dispatchLoop shared now n
        (grant sys { sys.state with waiting := waiting } job)).state.activeJobs := by
      refine dispatchLoop_busy now n _ ?_
      rw [grant_of_open hopen]
      change 0 < saturatingAdd usizeMax sys.state.activeJobs 1
      rw [hempty.jobs]
      decide
    exact iff_of_false (fun h => Nat.ne_of_gt hbusy h.1) (fun h => Bool.noConfusion h.1)

/-- **An idle loop idles over work exactly when the queue strands a job.** -/
theorem dispatchLoop_idle : ∀ (n : ℕ) (sys : System),
    sys.state.waiting.length ≤ n → Empty sys.state → sys.state.accepting = true →
    sys.state.capacity.mode = .dynamic → 0 < sys.state.capacity.maxActiveJobs →
    (IdleOver sys.state.capacity (dispatchLoop shared now n sys) ↔
      strands sys.state.capacity sys.channels sys.state.waiting = true)
  | 0, sys, hlen, hempty, _, _, _ => by
    have hnil : sys.state.waiting = [] := List.length_eq_zero_iff.mp (Nat.le_zero.mp hlen)
    simp [IdleOver, dispatchLoop, hnil, strands]
  | n + 1, sys, hlen, hempty, haccepting, hmode, hroom => by
    have hpass : ∀ (job : WaitingJob) (waiting : List WaitingJob), waiting.length ≤ n → _ :=
      fun job waiting hshort => @idleOver_pass shared sys now n hempty job waiting
        fun hclosed => by
          obtain ⟨hstate, hchannels⟩ :=
            grant_of_closed hclosed { sys.state with waiting := waiting }
          have ih := dispatchLoop_idle n
            (grant sys { sys.state with waiting := waiting } job)
          rw [hstate, hchannels] at ih
          exact ih hshort (empty_release_reserve hempty waiting job.cost) haccepting hmode hroom
    rw [dispatchLoop, if_pos (by simp [haccepting, hempty.jobs, hroom])]
    cases hwaiting : sys.state.waiting with
    | nil =>
      have hnone : runnableIndex shared (now n) sys.state = none := by
        simp [runnableIndex, hwaiting]
      simp [IdleOver, hnone, hwaiting, strands]
    | cons head followers =>
      rw [hwaiting, List.length_cons] at hlen
      rw [runnableIndex_of_empty hempty hmode hwaiting]
      by_cases hfits : head.cost.memoryMib ≤ sys.state.capacity.memoryBudgetMib
      · rw [if_pos hfits, strands, if_pos hfits, Bool.and_eq_true, Bool.not_eq_true']
        exact hpass head followers (by omega)
      rw [if_neg hfits]
      cases hi : followers.findIdx? fun job => passes sys.state.capacity head job with
      | none =>
        have hno : ∀ job ∈ followers, passes sys.state.capacity head job = false := by
          simpa using hi
        rw [strands_of_no_pass hfits hno]
        change sys.state.activeJobs = 0 ∧ (∃ job ∈ sys.state.waiting, _) ↔ _
        rw [hwaiting, and_iff_right hempty.jobs]
        simp [hfits]
      | some i =>
        obtain ⟨hlt, hpasses, -⟩ := List.findIdx?_eq_some_iff_getElem.mp hi
        have hjob := List.getElem?_eq_getElem hlt
        have hstep : (countBypass (head :: followers))[i + 1]? = some followers[i] := hjob
        simp only [Option.map_some, Nat.succ_pos, if_true, hstep]
        refine (hpass followers[i] _ ?_).trans ?_
        · rw [List.length_eraseIdx_of_lt (by simpa [countBypass] using hlt)]
          simpa [countBypass] using hlen
        cases hopen : isOpen sys.channels followers[i] with
        | false =>
          rw [and_iff_right rfl]
          exact Eq.congr_left (strands_eraseIdx rfl rfl hfits hjob hpasses hopen)
        | true =>
          refine iff_of_false (fun h => Bool.noConfusion h.1) ?_
          rw [strands, if_neg hfits, Bool.and_eq_true, List.all_eq_true]
          intro hall
          have := hall.1 followers[i] (List.getElem_mem hlt)
          simp [hpasses, hopen] at this

/-! ## Before the loop -/

/-- The jobs whose patience ran out over memory. -/
def rejected (shared : Shared) (now : ℕ → ℕ) (capacity : SchedulerCapacity) :
    List WaitingJob → List WaitingJob
  | [] => []
  | job :: rest =>
    if job.expired shared (now rest.length) && !fitsHardMemory capacity job.cost then
      job :: rejected shared now capacity rest
    else rejected shared now capacity rest

variable (capacity)

theorem survivors_subset : ∀ waiting, survivors shared now capacity waiting ⊆ waiting
  | [] => List.Subset.refl _
  | job :: rest => by
    have ih := survivors_subset rest
    rw [survivors]
    split
    · exact List.subset_cons_of_subset job ih
    · exact List.cons_subset_cons job ih

theorem rejected_subset : ∀ waiting, rejected shared now capacity waiting ⊆ waiting
  | [] => List.Subset.refl _
  | job :: rest => by
    have ih := rejected_subset rest
    rw [rejected]
    split
    · exact List.cons_subset_cons job ih
    · exact List.subset_cons_of_subset job ih

/-- A job that stays does not share its channel with one that goes. -/
theorem ready_ne_of_rejected :
    ∀ {waiting : List WaitingJob}, (waiting.map WaitingJob.ready).Nodup →
      ∀ job ∈ survivors shared now capacity waiting,
      ∀ gone ∈ rejected shared now capacity waiting, gone.ready ≠ job.ready
  | [], _, job, hjob, _, _ => nomatch hjob
  | first :: rest, hnodup, job, hjob, gone, hgone => by
    rw [List.map_cons, List.nodup_cons] at hnodup
    have hfirst : ∀ j ∈ rest, j.ready ≠ first.ready := fun j hj e =>
      hnodup.1 (e ▸ List.mem_map_of_mem hj)
    have ih := ready_ne_of_rejected hnodup.2
    rw [survivors] at hjob
    rw [rejected] at hgone
    split at hjob
    next hreject =>
      rw [if_pos hreject] at hgone
      rcases List.mem_cons.mp hgone with rfl | hgone
      · exact fun e => hfirst job (survivors_subset now capacity rest hjob) e.symm
      · exact ih job hjob gone hgone
    next hkeep =>
      rw [if_neg hkeep] at hgone
      rcases List.mem_cons.mp hjob with rfl | hjob
      · exact hfirst gone (rejected_subset now capacity rest hgone)
      · exact ih job hjob gone hgone

variable {capacity}

theorem refuse_getElem?_of_ne {waiting : List WaitingJob} {reason : SchedulerAcquireError} {i : ℕ}
    (h : job.ready ≠ i) : (refuse sys waiting job reason).channels[i]? = sys.channels[i]? := by
  change ((send sys.channels job.ready (.error reason)).getD sys.channels)[i]? = _
  unfold send
  split
  · split
    · exact List.getElem?_set_ne h
    · rfl
  · rfl

/-- What the walk over the queue leaves. -/
theorem rejectFrom_eq : ∀ (kept rest : List WaitingJob) (sys : System),
    sys.state.waiting = kept ++ rest →
    (rejectFrom shared now kept rest sys).state
        = { sys.state with waiting := kept ++ survivors shared now sys.state.capacity rest } ∧
      ∀ i, (∀ job ∈ rejected shared now sys.state.capacity rest, job.ready ≠ i) →
        (rejectFrom shared now kept rest sys).channels[i]? = sys.channels[i]?
  | kept, [], sys, h => by
    refine ⟨?_, fun _ _ => rfl⟩
    rw [rejectFrom, survivors, ← h]
  | kept, job :: rest, sys, h => by
    rw [rejectFrom, survivors, rejected]
    split
    next hreject =>
      obtain ⟨hstate, hchannels⟩ := rejectFrom_eq kept rest
        (refuse sys (kept ++ rest) job .insufficientCapacity) rfl
      refine ⟨hstate, fun i hi => ?_⟩
      rw [hchannels i fun j hj => hi j (List.mem_cons_of_mem _ hj)]
      exact refuse_getElem?_of_ne (hi job List.mem_cons_self)
    next =>
      obtain ⟨hstate, hchannels⟩ := rejectFrom_eq (kept ++ [job]) rest sys (by simp [h])
      exact ⟨by rw [hstate]; simp, hchannels⟩

theorem strands_congr {channels' : List Channel} :
    ∀ {waiting : List WaitingJob},
      (∀ job ∈ waiting, channels[job.ready]? = channels'[job.ready]?) →
      strands capacity channels waiting = strands capacity channels' waiting
  | [], _ => rfl
  | head :: followers, h => by
    have hopen : ∀ job ∈ head :: followers, isOpen channels job = isOpen channels' job :=
      fun job hjob => by rw [isOpen, isOpen, h job hjob]
    have hall : (followers.all fun job => !(passes capacity head job && isOpen channels job))
        = followers.all fun job => !(passes capacity head job && isOpen channels' job) := by
      rw [Bool.eq_iff_iff, List.all_eq_true, List.all_eq_true]
      exact forall₂_congr fun job hjob => by rw [hopen job (List.mem_cons_of_mem _ hjob)]
    rw [strands, strands, strands_congr fun job hjob => h job (List.mem_cons_of_mem _ hjob),
      hopen head List.mem_cons_self, hall]

theorem grant_frame (sys : System) (state : SchedulerState) (job : WaitingJob) :
    (grant sys state job).state.accepting = state.accepting ∧
      (grant sys state job).state.capacity = state.capacity := by
  unfold grant
  split <;> exact ⟨rfl, rfl⟩

/-- The loop leaves the capacity and the door alone. -/
theorem dispatchLoop_frame : ∀ (n : ℕ) (sys : System),
    (dispatchLoop shared now n sys).state.accepting = sys.state.accepting ∧
      (dispatchLoop shared now n sys).state.capacity = sys.state.capacity
  | 0, _ => ⟨rfl, rfl⟩
  | n + 1, sys => by
    rw [dispatchLoop]
    split
    next =>
      split
      · exact ⟨rfl, rfl⟩
      rename_i index _
      dsimp only
      split
      · exact ⟨rfl, rfl⟩
      rename_i job _
      obtain ⟨haccepting, hcapacity⟩ := dispatchLoop_frame n (grant sys
        { sys.state with
          waiting := (bypassed sys.state.waiting index).eraseIdx index } job)
      exact ⟨haccepting.trans (grant_frame _ _ _).1, hcapacity.trans (grant_frame _ _ _).2⟩
    next => exact ⟨rfl, rfl⟩

variable (env : Env)

/-- What `dispatch` does after its loop does not matter here. -/
theorem dispatch_state (sys : System) :
    let looped := dispatchLoop shared env.loopClock (settled shared env sys).state.waiting.length
      (settled shared env sys)
    (dispatch shared env sys).state.accepting = looped.state.accepting ∧
      (dispatch shared env sys).state.activeJobs = looped.state.activeJobs ∧
      (dispatch shared env sys).state.waiting = looped.state.waiting ∧
      (dispatch shared env sys).state.capacity = looped.state.capacity := by
  unfold dispatch
  dsimp only
  split
  · unfold scheduleCapacityRefresh
    split
    · exact ⟨rfl, rfl, rfl, rfl⟩
    · split <;> exact ⟨rfl, rfl, rfl, rfl⟩
  · exact ⟨rfl, rfl, rfl, rfl⟩

/-- The state the loop finds, in dynamic mode. -/
theorem settled_eq (hmode : sys.state.capacity.mode = .dynamic)
    (hstate : refreshCapacity shared env.sample sys.state = state) :
    (settled shared env sys).state
        = { state with
            waiting := survivors shared env.rejectClock state.capacity sys.state.waiting } ∧
      ∀ i, (∀ job ∈ rejected shared env.rejectClock state.capacity sys.state.waiting,
          job.ready ≠ i) →
        (settled shared env sys).channels[i]? = sys.channels[i]? := by
  obtain ⟨capacity, memory, cpu, hrefresh, hretuned⟩ :=
    refreshCapacity_retuned shared env.sample sys.state
  subst hstate
  have hdynamic : capacity.mode = .dynamic := hretuned.mode.trans hmode
  rw [settled, hrefresh, rejectExpiredUnfitJobs, if_neg (by simpa using hdynamic)]
  exact rejectFrom_eq env.rejectClock [] sys.state.waiting _ rfl

/-- **A dispatch idles over work exactly when its queue strands a job.** -/
theorem idlesOverWork_dispatch_iff (hsound : sys.Sound) (haccounted : Accounted sys)
    (hmode : sys.state.capacity.mode = .dynamic) (hroom : 0 < sys.state.capacity.maxActiveJobs) :
    IdlesOverWork (dispatch shared env sys) ↔ stranded shared env sys = true := by
  obtain ⟨capacity, memory, cpu, hrefresh, hretuned⟩ :=
    refreshCapacity_retuned shared env.sample sys.state
  obtain ⟨hstate, hchannels⟩ := settled_eq env hmode hrefresh
  obtain ⟨haccepting, hcapacity⟩ := @dispatchLoop_frame shared env.loopClock
    (settled shared env sys).state.waiting.length (settled shared env sys)
  obtain ⟨h₁, h₂, h₃, h₄⟩ := @dispatch_state shared env sys
  rw [IdlesOverWork, h₁, h₂, h₃, h₄, haccepting, hcapacity, stranded, hrefresh]
  rw [Bool.and_eq_true, Bool.and_eq_true, beq_iff_eq, and_assoc, hstate]
  refine and_congr_right fun hopen => ?_
  by_cases hidle : sys.state.activeJobs = 0
  swap
  · have hbusy := @dispatchLoop_busy shared env.loopClock
      (settled shared env sys).state.waiting.length (settled shared env sys)
      (by rw [hstate]; exact Nat.pos_of_ne_zero hidle)
    rw [hstate] at hbusy
    exact iff_of_false (fun h => Nat.ne_of_gt hbusy h.1) (fun h => hidle h.1)
  have hempty : Empty (settled shared env sys).state := by
    rw [hstate]
    exact ⟨hidle, haccounted.active_eq_zero hidle .memory, haccounted.active_eq_zero hidle .io,
      haccounted.active_eq_zero hidle .cpu⟩
  have hnodup : (sys.state.waiting.map WaitingJob.ready).Nodup := by
    have := hsound.nodup
    rwa [tickets, List.map_map] at this
  have hloop := @dispatchLoop_idle shared env.loopClock _ (settled shared env sys)
    (Nat.le_refl _) hempty
  rw [hstate] at hloop
  refine (hloop hopen (hretuned.mode.trans hmode) ?_).trans ?_
  · exact hretuned.maxActiveJobs ▸ hroom
  · rw [and_iff_right hidle]
    refine Eq.congr_left (strands_congr fun job hjob => hchannels _ ?_)
    exact fun gone hgone => ready_ne_of_rejected _ _ hnodup job hjob gone hgone

/-- **Which turns leave the scheduler idle over memory-safe work.**  In dynamic mode with room for
a job, in every run and for every turn that dispatches: right after it no accepting, idle scheduler
has a job waiting that fits the memory in force, if and only if the state before the dispatch does
not strand one. -/
theorem never_idles_over_work_iff (shared : Shared) (capacity : SchedulerCapacity)
    (turns : List (Env × Action)) (env : Env) (action : Action) (before : System)
    (hmode : capacity.mode = .dynamic) (hmax : 1 ≤ capacity.maxActiveJobs)
    (henter : enter shared env (after shared capacity turns) action = .dispatching before) :
    ¬IdlesOverWork (step shared (after shared capacity turns) (env, action)) ↔
      stranded shared env before = false := by
  have hinv := admitting_after shared capacity turns
  have hbefore : Admitting shared capacity before := by
    have := (admitting_turn hinv (env, action)).1
    rwa [henter] at this
  have hstep : step shared (after shared capacity turns) (env, action)
      = dispatch shared env before := by
    rw [step, henter]
  rw [hstep, idlesOverWork_dispatch_iff env hbefore.sound hbefore.accounted
    (hbefore.retuned.mode.trans hmode) (hbefore.retuned.maxActiveJobs ▸ hmax), Bool.not_eq_true]

/-! ## A stranded job

The memory budget is sized from samples.  A job of 400 MiB waits for headroom on a host that has
180 MiB to give; behind it comes a job of 100 MiB whose I/O is past the budget. -/

def autoMemory : Shared := { fixedBudgets with autoMemoryBudget := true }

def largeHost : SchedulerCapacity :=
  { smallHost with memoryBudgetMib := 600, ioBudgetMib := 1000 }

def lowMemory : Env := ⟨0, ⟨some 300, none, true, false⟩, fun _ => 0, fun _ => 0, false⟩

def blockedJob : JobResourceCost := .small 400 10 1

def heavyIoJob : JobResourceCost := .small 100 2000 1

/-- The second job could run alone and does not. -/
theorem idles_behind_blocked_head :
    largeHost.mode = .dynamic ∧ 1 ≤ largeHost.maxActiveJobs ∧
      IdlesOverWork (step autoMemory
        (after autoMemory largeHost [(lowMemory, .acquire blockedJob)])
        (lowMemory, .acquire heavyIoJob)) := by
  decide

/-- Without the blocked head it runs. -/
theorem never_idles_over_heavyIoJob :
    ¬IdlesOverWork (step autoMemory (after autoMemory largeHost [])
      (lowMemory, .acquire heavyIoJob)) :=
  (never_idles_over_work_iff autoMemory largeHost [] lowMemory (.acquire heavyIoJob) _ rfl
    (by decide) rfl).mpr (by decide)

end DatabasesEverywhere.Scheduler
