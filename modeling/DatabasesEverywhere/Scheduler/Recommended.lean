import DatabasesEverywhere.Scheduler.Idle

/-!
# Scheduler/Recommended — the recommended concurrency is what the scheduler delivers

`recommendedActiveJobs` says how many jobs of one cost the capacity is for: quotients of the budgets
by the cost, where a quotient of zero counts as one for I/O and CPU.  The scheduler never divides: it
adds costs up, job by job, and lets the head run alone past these two budgets.

    quotients    j < recommended   ⟺   j < maxActiveJobs and every budget holds j + 1 costs,
                                        I/O and CPU excepted if j = 0
    sums         the head runs     ⟺   the same, with j jobs of that cost active

So a burst of equal jobs on an idle scheduler fills it up to the recommendation, and the rest waits.
-/

open Foundations

namespace DatabasesEverywhere.Scheduler

/-! ## The recommendation -/

def ratio (total each : ℕ) : ℕ := min (total / max each 1) usizeMax

namespace SchedulerCapacity

def modelRecommendedActiveJobs (capacity : SchedulerCapacity) (cost : JobResourceCost)
    (maximum : ℕ) : ℕ :=
  let byMemory := ratio capacity.memoryBudgetMib cost.memoryMib
  if byMemory = 0 then 0
  else
    let byIo := max (ratio capacity.ioBudgetMib cost.ioMib) 1
    let byCpu := max (capacity.cpuUnits / max cost.cpuUnits 1) 1
    min (min (min maximum byMemory) byIo) byCpu

def recommendedActiveJobs (capacity : SchedulerCapacity) (cost : JobResourceCost) : ℕ :=
  if capacity.mode = .manual then capacity.maxActiveJobs
  else capacity.modelRecommendedActiveJobs cost capacity.maxActiveJobs

end SchedulerCapacity

theorem lt_ratio_iff {total each j : ℕ} (heach : 1 ≤ each) (hj : j < usizeMax) :
    j < ratio total each ↔ (j + 1) * each ≤ total := by
  rw [ratio, Nat.max_eq_left heach, lt_min_iff, and_iff_left hj, ← Nat.succ_le_iff,
    Nat.le_div_iff_mul_le heach]

/-- A quotient of zero counts as one. -/
theorem lt_max_one_iff {quotient j : ℕ} : j < max quotient 1 ↔ j < quotient ∨ j = 0 := by
  rw [lt_max_iff, Nat.lt_one_iff]

section Room

variable {capacity : SchedulerCapacity} {cost : JobResourceCost} {j : ℕ}
  (hmode : capacity.mode = .dynamic) (hcost : ∀ r, 1 ≤ Resource.of cost r)

include hmode hcost

/-- The recommendation, without quotients. -/
theorem lt_recommended_iff :
    j < capacity.recommendedActiveJobs cost ↔
      j < capacity.maxActiveJobs ∧ (j + 1) * cost.memoryMib ≤ capacity.memoryBudgetMib ∧
        ((j + 1) * cost.ioMib ≤ capacity.ioBudgetMib ∨ j = 0) ∧
        ((j + 1) * cost.cpuUnits ≤ capacity.cpuUnits ∨ j = 0) := by
  have hmax := capacity.maxActiveJobs_le
  have hmanual : capacity.mode ≠ .manual := by simp [hmode]
  rw [SchedulerCapacity.recommendedActiveJobs, if_neg hmanual,
    SchedulerCapacity.modelRecommendedActiveJobs]
  by_cases hroom : j < capacity.maxActiveJobs
  swap
  · refine iff_of_false (fun h => hroom ?_) (fun h => hroom h.1)
    split at h
    · cases h
    · rw [lt_min_iff, lt_min_iff, lt_min_iff] at h
      exact h.1.1.1
  have hj : j < usizeMax := by omega
  have hmemory : j < ratio capacity.memoryBudgetMib cost.memoryMib ↔
      (j + 1) * cost.memoryMib ≤ capacity.memoryBudgetMib := lt_ratio_iff (hcost .memory) hj
  have hio : j < ratio capacity.ioBudgetMib cost.ioMib ↔
      (j + 1) * cost.ioMib ≤ capacity.ioBudgetMib := lt_ratio_iff (hcost .io) hj
  have hcpu : j < capacity.cpuUnits / max cost.cpuUnits 1 ↔
      (j + 1) * cost.cpuUnits ≤ capacity.cpuUnits := by
    have hpos : 1 ≤ cost.cpuUnits := hcost .cpu
    rw [Nat.max_eq_left hpos, ← Nat.succ_le_iff, Nat.le_div_iff_mul_le hpos]
  rw [← hmemory, ← hio, ← hcpu]
  by_cases hzero : ratio capacity.memoryBudgetMib cost.memoryMib = 0
  · simp [hzero]
  · rw [if_neg hzero, lt_min_iff, lt_min_iff, lt_min_iff, lt_max_one_iff, lt_max_one_iff]
    simp only [and_assoc]

/-- **Sums and quotients agree**: with `j` jobs of a cost active the next one may run exactly if
`j` is under the recommendation. -/
theorem lt_recommended_iff_admissible {state : SchedulerState}
    (hcapacity : state.capacity = capacity)
    (hjobs : state.activeJobs = j) (hactive : ∀ r, Resource.active state r = j * Resource.of cost r)
    (hlimit : ∀ r, (j + 1) * Resource.of cost r ≤ r.limit) :
    j < capacity.recommendedActiveJobs cost ↔
      j < capacity.maxActiveJobs ∧ Admissible state cost := by
  have hmemory := hactive .memory
  have hio := hactive .io
  have hcpu := hactive .cpu
  have hmemory' := hlimit .memory
  have hio' := hlimit .io
  have hcpu' := hlimit .cpu
  simp only [Resource.active, Resource.of] at hmemory hio hcpu
  simp only [Resource.of, Resource.limit, Nat.succ_mul] at hmemory' hio' hcpu'
  rw [lt_recommended_iff hmode hcost, Admissible, hcapacity, fits_dynamic hmode,
    fitsHardMemory_dynamic hmode, hjobs, hmemory, hio, hcpu, saturatingAdd_eq hmemory',
    saturatingAdd_eq hio', saturatingAdd_eq hcpu']
  simp only [Nat.succ_mul]
  refine and_congr_right fun _ => ?_
  constructor
  · rintro ⟨hm, hi, hc⟩
    by_cases hzero : j = 0
    · subst hzero
      exact .inr ⟨rfl, by simpa using hm⟩
    · exact .inl ⟨hm, hi.resolve_right hzero, hc.resolve_right hzero⟩
  · rintro (⟨hm, hi, hc⟩ | ⟨rfl, hm⟩)
    · exact ⟨hm, .inl hi, .inl hc⟩
    · exact ⟨by simpa using hm, .inr rfl, .inr rfl⟩

end Room

/-! ## A burst of equal jobs -/

/-- The turns of a burst: jobs of one cost are asked for, and nothing is given back. -/
def Action.keeps (cost : JobResourceCost) : Action → Bool
  | .acquire cost' => cost' == cost
  | .take _ | .snapshot | .wakeup => true
  | .cancel _ | .dropPermit _ | .unregister _ | .close => false

/-- A burst at a moment: `asked` jobs of one cost are active or wait, and no more than recommended
are active. -/
structure Bursting (capacity : SchedulerCapacity) (cost : JobResourceCost) (asked : ℕ)
    (sys : System) : Prop where
  capacity_eq : sys.state.capacity = capacity
  accepting : sys.state.accepting = true
  sound : sys.Sound
  accounted : Accounted sys
  asked_eq : sys.state.activeJobs + sys.state.waiting.length = asked
  jobs : sys.state.activeJobs ≤ capacity.recommendedActiveJobs cost
  active : ∀ r, Resource.active sys.state r = sys.state.activeJobs * Resource.of cost r
  waiting : ∀ job ∈ sys.state.waiting, job.cost = cost ∧ isOpen sys.channels job = true

section Burst

variable {shared : Shared} {capacity : SchedulerCapacity} {cost : JobResourceCost} {asked : ℕ}
  {sys : System} {job : WaitingJob}

section Filling

variable (hmode : capacity.mode = .dynamic) (hcost : ∀ r, 1 ≤ Resource.of cost r)
  (hlimit : ∀ r, asked * Resource.of cost r ≤ r.limit)

include hmode hcost hlimit

/-- There is room for the next job exactly under the recommendation. -/
theorem Bursting.room_iff (h : Bursting capacity cost asked sys) (hne : sys.state.waiting ≠ []) :
    sys.state.activeJobs < capacity.recommendedActiveJobs cost ↔
      sys.state.activeJobs < capacity.maxActiveJobs ∧ Admissible sys.state cost := by
  refine lt_recommended_iff_admissible hmode hcost h.capacity_eq rfl h.active fun r => ?_
  have hasked := h.asked_eq
  have hlength := List.length_pos_iff.mpr hne
  exact (Nat.mul_le_mul_right _ (by omega)).trans (hlimit r)

/-- The head of a burst runs exactly if there is room under the recommendation; no follower does
better than the head. -/
theorem Bursting.runnableIndex (h : Bursting capacity cost asked sys)
    (hroom : sys.state.activeJobs < capacity.maxActiveJobs) (hne : sys.state.waiting ≠ [])
    (now : ℕ) :
    Scheduler.runnableIndex shared now sys.state =
      if sys.state.activeJobs < capacity.recommendedActiveJobs cost then some 0 else none := by
  have hiff := h.room_iff hmode hcost hlimit hne
  rw [and_iff_right hroom] at hiff
  obtain ⟨head, followers, hwaiting⟩ := List.exists_cons_of_ne_nil hne
  have hhead : head.cost = cost := (h.waiting head (hwaiting ▸ List.mem_cons_self)).1
  by_cases hunder : sys.state.activeJobs < capacity.recommendedActiveJobs cost
  · rw [if_pos hunder]
    have hadmissible := hiff.mp hunder
    unfold Scheduler.runnableIndex
    rw [hwaiting]
    dsimp only
    rw [if_pos]
    simpa [Admissible, hhead] using hadmissible
  · rw [if_neg hunder]
    have hno : ¬ Admissible sys.state cost := fun hadmissible => hunder (hiff.mpr hadmissible)
    cases hindex : Scheduler.runnableIndex shared now sys.state with
    | none => rfl
    | some index =>
      obtain ⟨head', followers', hwaiting', ⟨-, hruns⟩ | ⟨i, job, -, hjob, -, hfits, -⟩⟩ :=
        runnableIndex_eq_some hindex
      · have hcost' := (h.waiting head' (hwaiting' ▸ List.mem_cons_self)).1
        rw [hcost'] at hruns
        exact absurd hruns hno
      · have hmem : job ∈ sys.state.waiting :=
          hwaiting' ▸ List.mem_cons_of_mem _ (List.mem_of_getElem? hjob)
        rw [(h.waiting job hmem).1] at hfits
        exact absurd (.inl hfits) hno

omit hmode hcost in
/-- The job at the head leaves for its permit. -/
theorem Bursting.grant (h : Bursting capacity cost asked sys) {now : ℕ}
    {rest : List WaitingJob} (hwaiting : sys.state.waiting = job :: rest)
    (hindex : Scheduler.runnableIndex shared now sys.state = some 0)
    (hroom : sys.state.activeJobs < capacity.maxActiveJobs)
    (hunder : sys.state.activeJobs < capacity.recommendedActiveJobs cost) :
    Bursting capacity cost asked
      (Scheduler.grant sys { sys.state with waiting := rest } job) := by
  obtain ⟨hjob, hopen⟩ := h.waiting job (hwaiting ▸ List.mem_cons_self)
  have hbypassed : (bypassed sys.state.waiting 0)[0]? = some job := by
    simp [bypassed, hwaiting]
  have hmove : Move shared sys (Scheduler.grant sys { sys.state with waiting := rest } job) := by
    have hgrant := Move.grant (h.capacity_eq ▸ hroom) hindex hbypassed
    rwa [show (bypassed sys.state.waiting 0).eraseIdx 0 = rest by simp [bypassed, hwaiting]]
      at hgrant
  have hstate := grant_of_open hopen { sys.state with waiting := rest }
  have hasked := h.asked_eq
  have hmax := capacity.maxActiveJobs_le
  rw [hwaiting, List.length_cons] at hasked
  have hjobs : saturatingAdd usizeMax sys.state.activeJobs 1 = sys.state.activeJobs + 1 :=
    saturatingAdd_eq (by omega)
  refine ⟨?_, ?_, hmove.sound h.sound, hmove.accounted h.sound h.accounted, ?_, ?_, ?_, ?_⟩
  · rw [hstate]
    exact h.capacity_eq
  · rw [hstate]
    exact h.accepting
  · rw [hstate]
    change saturatingAdd usizeMax sys.state.activeJobs 1 + rest.length = asked
    rw [hjobs]
    omega
  · rw [hstate]
    exact hjobs.trans_le hunder
  · intro r
    have hactive : Resource.active (reserve { sys.state with waiting := rest } job.cost) r =
        saturatingAdd r.limit (Resource.active sys.state r) (Resource.of cost r) := by
      rw [hjob]
      cases r <;> rfl
    have hsum : Resource.active sys.state r + Resource.of cost r =
        (sys.state.activeJobs + 1) * Resource.of cost r := by
      rw [h.active, Nat.succ_mul]
    have hle : (sys.state.activeJobs + 1) * Resource.of cost r ≤ r.limit :=
      (Nat.mul_le_mul_right _ (by omega)).trans (hlimit r)
    rw [hstate, hactive, saturatingAdd_eq (hsum.trans_le hle), hsum]
    change _ = saturatingAdd usizeMax sys.state.activeJobs 1 * _
    rw [hjobs]
  · intro other hother
    rw [hstate] at hother
    have hmem : other ∈ sys.state.waiting := hwaiting ▸ List.mem_cons_of_mem _ hother
    refine ⟨(h.waiting other hmem).1, ?_⟩
    -- its channel is another one
    have hne : job.ready ≠ other.ready := by
      have hnodup := h.sound.nodup
      rw [tickets, List.map_map, hwaiting, List.map_cons, List.nodup_cons] at hnodup
      exact fun heq => hnodup.1 (List.mem_map.mpr ⟨other, hother, heq.symm⟩)
    obtain ⟨channel, hchannel, -⟩ := h.sound.behind (getElem?_tickets_bypassed hbypassed)
    rw [isOpen, grant_channels hchannel, List.getElem?_set_ne hne]
    exact (h.waiting other hmem).2

/-- **The loop fills the scheduler up**: behind it a job waits only if the recommendation is
reached. -/
theorem Bursting.dispatchLoop (now : ℕ → ℕ) : ∀ (passes : ℕ) {sys : System},
    Bursting capacity cost asked sys →
    sys.state.waiting.length ≤ passes →
    Bursting capacity cost asked (Scheduler.dispatchLoop shared now passes sys) ∧
      ((Scheduler.dispatchLoop shared now passes sys).state.waiting ≠ [] →
        capacity.recommendedActiveJobs cost ≤
          (Scheduler.dispatchLoop shared now passes sys).state.activeJobs)
  | 0, sys, h, hlength => by
    refine ⟨h, fun hne => absurd ?_ hne⟩
    exact List.length_eq_zero_iff.mp (Nat.le_zero.mp hlength)
  | passes + 1, sys, h, hlength => by
    rw [Scheduler.dispatchLoop, h.accepting, Bool.true_and, h.capacity_eq]
    simp only [decide_eq_true_eq]
    by_cases hroom : sys.state.activeJobs < capacity.maxActiveJobs
    swap
    · rw [if_neg hroom]
      refine ⟨h, fun _ => Nat.le_of_not_lt fun hunder => hroom ?_⟩
      exact ((lt_recommended_iff hmode hcost).mp hunder).1
    rw [if_pos hroom]
    cases hwaiting : sys.state.waiting with
    | nil =>
      have hnone : Scheduler.runnableIndex shared (now passes) sys.state = none := by
        simp [Scheduler.runnableIndex, hwaiting]
      rw [hnone]
      exact ⟨h, fun hne => absurd hwaiting hne⟩
    | cons job rest =>
      have hne : sys.state.waiting ≠ [] := by simp [hwaiting]
      have hindex := @Bursting.runnableIndex shared _ _ _ _ hmode hcost hlimit h hroom hne
        (now passes)
      by_cases hunder : sys.state.activeJobs < capacity.recommendedActiveJobs cost
      · rw [if_pos hunder] at hindex
        rw [hindex]
        rw [hwaiting, List.length_cons] at hlength
        refine Bursting.dispatchLoop now passes (h.grant hlimit hwaiting hindex hroom hunder) ?_
        rw [grant_waiting]
        exact Nat.le_of_succ_le_succ hlength
      · rw [if_neg hunder] at hindex
        rw [hindex]
        exact ⟨h, fun _ => Nat.le_of_not_lt hunder⟩

end Filling

theorem rejectFrom_eq_self (now : ℕ → ℕ) : ∀ (kept rest : List WaitingJob) (sys : System),
    (∀ job ∈ rest, fitsHardMemory sys.state.capacity job.cost = true) →
    rejectFrom shared now kept rest sys = sys
  | _, [], _, _ => rfl
  | kept, job :: rest, sys, h => by
    rw [rejectFrom, h job List.mem_cons_self, Bool.not_true, Bool.and_false,
      if_neg Bool.false_ne_true]
    exact rejectFrom_eq_self now _ rest sys fun job hjob => h job (List.mem_cons_of_mem _ hjob)

/-- With fixed budgets, and jobs that fit the memory, the loop finds the system as it was. -/
theorem settled_eq_self (hmemory : shared.autoMemoryBudget = false)
    (hcpu : shared.autoCpuUnits = false) (env : Env)
    (h : ∀ job ∈ sys.state.waiting, fitsHardMemory sys.state.capacity job.cost = true) :
    settled shared env sys = sys := by
  have hrefresh : refreshCapacity shared env.sample sys.state = sys.state := by
    rw [refreshCapacity, Shared.refreshesCapacity, hmemory, hcpu]
    rfl
  rw [settled, hrefresh, rejectExpiredUnfitJobs]
  split
  · rfl
  · exact rejectFrom_eq_self _ _ _ _ h

/-- The burst behind a turn: whoever waits does so because the recommendation is reached. -/
structure Filled (capacity : SchedulerCapacity) (cost : JobResourceCost) (asked : ℕ)
    (sys : System) : Prop extends Bursting capacity cost asked sys where
  filled : sys.state.waiting ≠ [] → capacity.recommendedActiveJobs cost ≤ sys.state.activeJobs

theorem Filled.activeJobs (h : Filled capacity cost asked sys) :
    sys.state.activeJobs = min asked (capacity.recommendedActiveJobs cost) := by
  have hasked := h.asked_eq
  have hjobs := h.jobs
  by_cases hne : sys.state.waiting = []
  · rw [hne, List.length_nil] at hasked
    omega
  · have hfilled := h.filled hne
    omega

/-- A channel that is added changes none that is there. -/
theorem isOpen_append {channels : List Channel}
    (h : isOpen channels job = true) (added : List Channel) :
    isOpen (channels ++ added) job = true := by
  obtain ⟨channel, hchannel, hphase⟩ := (Option.any_eq_true _ _).mp h
  have hlt := (List.getElem?_eq_some_iff.mp hchannel).1
  rw [isOpen, List.getElem?_append_left hlt, hchannel]
  exact hphase

/-- A call joins the burst. -/
theorem Bursting.enqueue (h : Bursting capacity cost asked sys) (now : ℕ) :
    Bursting capacity cost (asked + 1) (sys.enqueue now cost) := by
  refine ⟨h.capacity_eq, h.accepting, h.sound.enqueue now cost, h.accounted.enqueue now cost, ?_,
    h.jobs, ?_, ?_⟩
  · have hasked := h.asked_eq
    change sys.state.activeJobs + (sys.state.waiting ++ [_]).length = asked + 1
    rw [List.length_append, List.length_singleton]
    omega
  · intro r
    have hactive := h.active r
    cases r <;> exact hactive
  · intro job hjob
    rcases List.mem_append.mp hjob with hold | hnew
    · exact ⟨(h.waiting job hold).1, isOpen_append (h.waiting job hold).2 _⟩
    rw [List.mem_singleton.mp hnew]
    refine ⟨rfl, ?_⟩
    change ((sys.channels ++ [_])[sys.channels.length]?).any _ = true
    rw [List.getElem?_concat_length]
    rfl

/-- A refused call leaves the burst as it is. -/
theorem Filled.refuseCall (h : Filled capacity cost asked sys) (reason : SchedulerAcquireError) :
    Filled capacity cost asked (sys.refuseCall cost reason) := by
  refine ⟨⟨h.capacity_eq, h.accepting, h.sound.refuseCall cost reason,
    h.accounted.refuseCall cost reason, h.asked_eq, h.jobs, h.active, fun job hjob => ?_⟩, h.filled⟩
  exact ⟨(h.waiting job hjob).1, isOpen_append (h.waiting job hjob).2 _⟩

/-- A permit is taken: nobody who waits notices. -/
theorem Bursting.take (h : Bursting capacity cost asked sys) (ready : ℕ) :
    Bursting capacity cost asked
      { sys with channels := sys.channels.modify ready Channel.take } := by
  -- no move of this kind looks at the shared part
  have hmove : Move fixedBudgets sys
      { sys with channels := sys.channels.modify ready Channel.take } := .take ready
  refine ⟨h.capacity_eq, h.accepting, hmove.sound h.sound, hmove.accounted h.sound h.accounted,
    h.asked_eq, h.jobs, h.active, fun job hjob => ?_⟩
  obtain ⟨hjobcost, hopen⟩ := h.waiting job hjob
  refine ⟨hjobcost, ?_⟩
  obtain ⟨channel, hchannel, hphase⟩ := (Option.any_eq_true _ _).mp hopen
  have htake : channel.take = channel := by
    rw [beq_iff_eq] at hphase
    rw [Channel.take, hphase]
  rw [isOpen, List.getElem?_modify, hchannel]
  change (Option.map (fun channel => if ready = job.ready then channel.take else channel)
    (some channel)).any _ = true
  rw [Option.map_some, htake, ite_self]
  exact hphase

/-- A refresh task starts: nothing of a burst is in its state. -/
theorem Bursting.woken (h : Bursting capacity cost asked sys) (wakeups : ℕ) :
    Bursting capacity cost asked
      { sys with
        state := { sys.state with refreshWakeupScheduled := false }
        wakeups := wakeups } := by
  refine ⟨h.capacity_eq, h.accepting, h.sound, ⟨h.accounted.jobs, fun r => ?_⟩, h.asked_eq, h.jobs,
    fun r => ?_, h.waiting⟩
  · have hle := h.accounted.active_le r
    cases r <;> exact hle
  · have hactive := h.active r
    cases r <;> exact hactive

/-- A cost past the memory budget is refused at once. -/
theorem step_refuses (hmemory : shared.autoMemoryBudget = false)
    (hmode : capacity.mode = .dynamic)
    (hcapacity : sys.state.capacity = capacity) (haccepting : sys.state.accepting = true)
    (hexceeds : ¬ cost.memoryMib ≤ capacity.memoryBudgetMib) (env : Env) :
    Scheduler.step shared sys (env, .acquire cost) =
      sys.refuseCall cost .insufficientCapacity := by
  have hstructural : structurallyExceedsFixedBudget shared sys.state cost = true := by
    simp [structurallyExceedsFixedBudget, hcapacity, hmode, hmemory, Nat.lt_of_not_le hexceeds]
  simp [Scheduler.step, enter, acquire, haccepting, hstructural]

section Fixed

variable (hmemory : shared.autoMemoryBudget = false) (hcpu : shared.autoCpuUnits = false)
  (hmode : capacity.mode = .dynamic) (hcost : ∀ r, 1 ≤ Resource.of cost r)

include hmemory hcpu hmode hcost

theorem Bursting.dispatch (h : Bursting capacity cost asked sys)
    (hlimit : ∀ r, asked * Resource.of cost r ≤ r.limit)
    (hfits : sys.state.waiting ≠ [] → cost.memoryMib ≤ capacity.memoryBudgetMib) (env : Env) :
    Filled capacity cost asked (Scheduler.dispatch shared env sys) := by
  have hsettled : settled shared env sys = sys := by
    refine settled_eq_self hmemory hcpu env fun job hjob => ?_
    rw [h.capacity_eq, fitsHardMemory_dynamic hmode, (h.waiting job hjob).1]
    exact hfits (List.ne_nil_of_mem hjob)
  have hno : shared.refreshesCapacity = false := by rw [Shared.refreshesCapacity, hmemory, hcpu]; rfl
  have hdispatch : Scheduler.dispatch shared env sys =
      Scheduler.dispatchLoop shared env.loopClock sys.state.waiting.length sys := by
    simp [Scheduler.dispatch, hsettled, scheduleCapacityRefresh, hno]
  obtain ⟨hbursting, hfilled⟩ := @Bursting.dispatchLoop shared _ _ _ hmode hcost hlimit
    env.loopClock _ _ h (Nat.le_refl _)
  rw [hdispatch]
  exact ⟨hbursting, hfilled⟩

variable {turn : Env × Action}

/-- A turn of a burst that asks for nothing. -/
theorem Filled.step_quiet (h : Filled capacity cost asked sys)
    (hfits : asked ≠ 0 → cost.memoryMib ≤ capacity.memoryBudgetMib)
    (hkeeps : turn.2.keeps cost = true) (hquiet : turn.2.isAcquire = false)
    (hlimit : ∀ r, asked * Resource.of cost r ≤ r.limit) :
    Filled capacity cost asked (Scheduler.step shared sys turn) := by
  obtain ⟨env, action⟩ := turn
  have hfits' : sys.state.waiting ≠ [] → cost.memoryMib ≤ capacity.memoryBudgetMib := fun hne => by
    have hlength := List.length_pos_iff.mpr hne
    have hasked := h.asked_eq
    exact hfits (by omega)
  cases action with
  | acquire => cases hquiet
  | take ready => exact ⟨h.toBursting.take ready, h.filled⟩
  | snapshot => exact h.toBursting.dispatch hmemory hcpu hmode hcost hlimit hfits' env
  | wakeup =>
    by_cases hnone : sys.wakeups = 0
    · have hstep : Scheduler.step shared sys (env, .wakeup) = sys := by
        simp [Scheduler.step, enter, wakeup, hnone]
      rw [hstep]
      exact h
    · have hstep : Scheduler.step shared sys (env, .wakeup) = Scheduler.dispatch shared env
          { sys with
            state := { sys.state with refreshWakeupScheduled := false }
            wakeups := sys.wakeups - 1 } := by
        simp [Scheduler.step, enter, wakeup, hnone]
      rw [hstep]
      exact (h.toBursting.woken _).dispatch hmemory hcpu hmode hcost hlimit hfits' env
  | _ => cases hkeeps

/-- **One turn of a burst.** -/
theorem Filled.step (h : Filled capacity cost asked sys)
    (hfits : cost.memoryMib ≤ capacity.memoryBudgetMib) (hkeeps : turn.2.keeps cost = true)
    (hlimit : ∀ r, (asked + if turn.2.isAcquire then 1 else 0) * Resource.of cost r ≤ r.limit) :
    Filled capacity cost (asked + if turn.2.isAcquire then 1 else 0)
      (Scheduler.step shared sys turn) := by
  cases hquiet : turn.2.isAcquire with
  | false =>
    rw [hquiet] at hlimit
    exact h.step_quiet hmemory hcpu hmode hcost (fun _ => hfits) hkeeps hquiet hlimit
  | true =>
    obtain ⟨env, action⟩ := turn
    cases action with
    | acquire cost' =>
      obtain rfl : cost' = cost := by simpa [Action.keeps] using hkeeps
      have hjoins : structurallyExceedsFixedBudget shared sys.state cost' = false := by
        simp [structurallyExceedsFixedBudget, h.capacity_eq, Nat.not_lt.mpr hfits]
      have hstep : Scheduler.step shared sys (env, .acquire cost') =
          Scheduler.dispatch shared env (sys.enqueue env.now cost') := by
        simp [Scheduler.step, enter, acquire, h.accepting, hjoins]
      rw [hstep]
      exact (h.toBursting.enqueue env.now).dispatch hmemory hcpu hmode hcost hlimit
        (fun _ => hfits) env
    | _ => cases hquiet

/-- **A whole burst.** -/
theorem Filled.run (hfits : cost.memoryMib ≤ capacity.memoryBudgetMib) :
    ∀ (turns : List (Env × Action)) {asked : ℕ} {sys : System}, Filled capacity cost asked sys →
    (∀ turn ∈ turns, turn.2.keeps cost = true) →
    (∀ r, (asked + acquires turns) * Resource.of cost r ≤ r.limit) →
    Filled capacity cost (asked + acquires turns) (Foundations.run (Scheduler.step shared) sys turns)
  | [], _, _, h, _, _ => h
  | turn :: turns, asked, sys, h, hkeeps, hlimit => by
    have hcount : acquires (turn :: turns) =
        (if turn.2.isAcquire then 1 else 0) + acquires turns := by
      rw [acquires, acquires, List.countP_cons, Nat.add_comm]
    rw [hcount, ← Nat.add_assoc] at hlimit ⊢
    have hturn := h.step hmemory hcpu hmode hcost hfits (hkeeps turn List.mem_cons_self)
      fun r => (Nat.mul_le_mul_right _ (Nat.le_add_right _ _)).trans (hlimit r)
    exact Filled.run hfits turns hturn
      (fun turn hturn => hkeeps turn (List.mem_cons_of_mem _ hturn)) hlimit

/-- A burst of jobs that cannot run leaves the scheduler idle. -/
theorem Filled.run_refused (hexceeds : ¬ cost.memoryMib ≤ capacity.memoryBudgetMib) :
    ∀ (turns : List (Env × Action)) {sys : System}, Filled capacity cost 0 sys →
    (∀ turn ∈ turns, turn.2.keeps cost = true) →
    Filled capacity cost 0 (Foundations.run (Scheduler.step shared) sys turns)
  | [], _, h, _ => h
  | turn :: turns, sys, h, hkeeps => by
    refine Filled.run_refused hexceeds turns ?_
      fun turn hturn => hkeeps turn (List.mem_cons_of_mem _ hturn)
    have hkeep := hkeeps turn List.mem_cons_self
    cases hquiet : turn.2.isAcquire with
    | false =>
      exact h.step_quiet hmemory hcpu hmode hcost (fun hne => absurd rfl hne) hkeep hquiet
        fun r => by rw [Nat.zero_mul]; exact Nat.zero_le _
    | true =>
      obtain ⟨env, action⟩ := turn
      cases action with
      | acquire cost' =>
        obtain rfl : cost' = cost := by simpa [Action.keeps] using hkeep
        rw [step_refuses hmemory hmode h.capacity_eq h.accepting hexceeds]
        exact h.refuseCall _
      | _ => cases hquiet

end Fixed

end Burst

/-- **The recommended concurrency is what the scheduler delivers.**  On an idle scheduler with fixed
budgets, of any number of jobs of one cost, none of which is given back, as many are granted as
recommended; and every one is refused if none is. -/
theorem recommended_is_delivered (shared : Shared) (hmemory : shared.autoMemoryBudget = false)
    (hcpu : shared.autoCpuUnits = false) (capacity : SchedulerCapacity)
    (hmode : capacity.mode = .dynamic) (hmax : 1 ≤ capacity.maxActiveJobs) (cost : JobResourceCost)
    (hcost : ∀ r, 1 ≤ Resource.of cost r) (before turns : List (Env × Action))
    (haccepting : (after shared capacity before).state.accepting = true)
    (hidle : (after shared capacity before).state.activeJobs = 0)
    (hempty : (after shared capacity before).state.waiting = [])
    (hkeeps : ∀ turn ∈ turns, turn.2.keeps cost = true)
    (hlimit : ∀ r, acquires turns * Resource.of cost r ≤ r.limit) :
    let sys := run (step shared) (after shared capacity before) turns
    livePermits sys.channels = min (acquires turns) (capacity.recommendedActiveJobs cost) ∧
      (capacity.recommendedActiveJobs cost = 0 → ∀ env,
        step shared sys (env, .acquire cost) = sys.refuseCall cost .insufficientCapacity) := by
  intro sys
  have hadmitting := admitting_after shared capacity before
  have hidle' : Filled capacity cost 0 (after shared capacity before) := by
    refine ⟨⟨hadmitting.retuned.eq_of_fixed hmemory hcpu, haccepting, hadmitting.sound,
      hadmitting.accounted, by rw [hidle, hempty]; rfl, by rw [hidle]; exact Nat.zero_le _,
      fun r => ?_, by rw [hempty]; exact fun job hjob => absurd hjob List.not_mem_nil⟩,
      fun hne => absurd hempty hne⟩
    rw [hadmitting.accounted.active_eq_zero hidle, hidle, Nat.zero_mul]
  by_cases hfits : cost.memoryMib ≤ capacity.memoryBudgetMib
  · have hrun : Filled capacity cost (0 + acquires turns) sys :=
      hidle'.run hmemory hcpu hmode hcost hfits turns hkeeps (by simpa using hlimit)
    rw [Nat.zero_add] at hrun
    refine ⟨hrun.accounted.jobs.symm.trans hrun.activeJobs, fun hzero => ?_⟩
    have hpos : 0 < capacity.recommendedActiveJobs cost :=
      (lt_recommended_iff hmode hcost).mpr ⟨hmax, by simpa using hfits, .inr rfl, .inr rfl⟩
    omega
  · have hrun : Filled capacity cost 0 sys :=
      hidle'.run_refused hmemory hcpu hmode hcost hfits turns hkeeps
    have hzero : capacity.recommendedActiveJobs cost = 0 := by
      refine Nat.eq_zero_of_not_pos fun hpos => hfits ?_
      simpa using ((lt_recommended_iff hmode hcost).mp hpos).2.1
    refine ⟨?_, fun _ env => step_refuses hmemory hmode hrun.capacity_eq hrun.accepting hfits env⟩
    rw [← hrun.accounted.jobs, hrun.activeJobs, hzero, Nat.min_zero, Nat.min_zero]

/-- Five jobs of 30 MiB on a host for three of them. -/
theorem recommended_is_delivered_three :
    smallHost.recommendedActiveJobs (.small 30 30 1) = 3 ∧
      livePermits (run (step fixedBudgets) (after fixedBudgets smallHost [])
        (List.replicate 5 (quiet, .acquire (.small 30 30 1)))).channels = 3 :=
  ⟨by decide, (recommended_is_delivered fixedBudgets rfl rfl smallHost rfl (by decide)
    (.small 30 30 1) (fun r => by cases r <;> decide) [] _ rfl rfl rfl
    (by decide) (fun r => by cases r <;> decide)).1.trans (by decide)⟩

end DatabasesEverywhere.Scheduler
