import DatabasesEverywhere.Scheduler.Queue

/-!
# Scheduler/Accounting — the counters are the live permits

    active jobs      =  number of live permits
    active resource  =  Σ cost of the live permits

A reservation is made inside a dispatch and undone by a failed send, by a receiver dropped after
the send, or by the permit's own drop.  Each move changes the counters and the permits together:
`Effect` lists the four ways, and exactness is an invariant of those, as long as no sum of costs
reaches the machine's greatest integer.
-/

open Foundations

namespace DatabasesEverywhere.Scheduler

/-! ## Resources -/

/-- The three weighted resources. -/
inductive Resource
  | memory
  | io
  | cpu
  deriving DecidableEq

namespace Resource

/-- What a job asks of a resource. -/
def of (cost : JobResourceCost) : Resource → ℕ
  | memory => cost.memoryMib
  | io => cost.ioMib
  | cpu => cost.cpuUnits

/-- The scheduler's counter for a resource. -/
def active (state : SchedulerState) : Resource → ℕ
  | memory => state.activeMemoryMib
  | io => state.activeIoMib
  | cpu => state.activeCpuUnits

/-- The greatest value of a counter. -/
def limit : Resource → ℕ
  | memory | io => u64Max
  | cpu => usizeMax

end Resource

/-! ## Permits and demand -/

variable (weight : JobResourceCost → ℕ) (r : Resource) (channels : List Channel)

/-- A measure of the live permits: the sum of `weight` over their costs. -/
def held : ℕ :=
  (channels.map fun channel => if channel.phase.isLive then weight channel.cost else 0).sum

/-- The number of live permits. -/
def livePermits : ℕ := held (fun _ => 1) channels

/-- The cost of the live permits, in one resource. -/
def heldCost : ℕ := held (Resource.of · r) channels

/-- The cost of the queue, in one measure. -/
def queued (waiting : List WaitingJob) : ℕ :=
  ((tickets waiting).map fun ticket => weight ticket.cost).sum

/-- What the live permits and the queue ask of a resource. -/
def demand (sys : System) : ℕ :=
  heldCost r sys.channels + queued (Resource.of · r) sys.state.waiting

variable {channels} {i : ℕ} {channel : Channel}

theorem held_set (h : channels[i]? = some channel) (next : Channel) :
    held weight (channels.set i next) + (if channel.phase.isLive then weight channel.cost else 0)
      = held weight channels + (if next.phase.isLive then weight next.cost else 0) :=
  sum_map_set _ h next

/-- A channel that advances without touching its permit. -/
theorem held_set_of_eq {next : Channel} (h : channels[i]? = some channel)
    (hlive : next.phase.isLive = channel.phase.isLive) (hcost : next.cost = channel.cost)
    (weight : JobResourceCost → ℕ) : held weight (channels.set i next) = held weight channels := by
  have := held_set weight h next
  rw [hlive, hcost] at this
  omega

theorem held_append (channels : List Channel) (h : channel.phase.isLive = false) :
    held weight (channels ++ [channel]) = held weight channels := by
  simp [held, h]

/-- Without a live permit nothing is held. -/
theorem held_eq_zero (h : livePermits channels = 0) (weight : JobResourceCost → ℕ) :
    held weight channels = 0 := by
  induction channels with
  | nil => rfl
  | cons channel channels ih =>
    rw [livePermits, held, List.map_cons, List.sum_cons, Nat.add_eq_zero_iff] at h
    have hdead : channel.phase.isLive = false := by simpa using h.1
    rw [held, List.map_cons, List.sum_cons, hdead]
    exact (Nat.zero_add _).trans (ih h.2)

variable {job : WaitingJob} {waiting : List WaitingJob} {index : ℕ}

theorem queued_eraseIdx (h : (tickets waiting)[index]? = some job.ticket)
    (weight : JobResourceCost → ℕ) :
    (((tickets waiting).eraseIdx index).map fun ticket => weight ticket.cost).sum
      + weight job.cost = queued weight waiting :=
  sum_map_eraseIdx (fun ticket : Ticket => weight ticket.cost) h

/-! ## Effects -/

/-- A job that `dispatch` may admit. -/
def Admissible (state : SchedulerState) (cost : JobResourceCost) : Prop :=
  fits state.capacity state cost ∨ state.activeJobs = 0 ∧ fitsHardMemory state.capacity cost

/-- What a move does to the counters, the permits and the queue. -/
inductive Effect (s t : System) : Prop
  /-- Nothing is reserved or released; the queue does not grow. -/
  | still (jobs : t.state.activeJobs = s.state.activeJobs)
      (active : ∀ r, Resource.active t.state r = Resource.active s.state r)
      (held : ∀ weight, held weight t.channels = held weight s.channels)
      (queued : ∀ weight, queued weight t.state.waiting ≤ queued weight s.state.waiting)
  /-- A reservation is made, the permit comes back, and the reservation is released. -/
  | bounced (cost : JobResourceCost)
      (room : s.state.activeJobs < s.state.capacity.maxActiveJobs)
      (jobs : t.state.activeJobs = saturatingAdd usizeMax s.state.activeJobs 1 - 1)
      (active : ∀ r, Resource.active t.state r
        = saturatingAdd r.limit (Resource.active s.state r) (Resource.of cost r)
          - Resource.of cost r)
      (held : ∀ weight, held weight t.channels = held weight s.channels)
      (queued : ∀ weight, queued weight t.state.waiting + weight cost
        = queued weight s.state.waiting)
  /-- A reservation is made and a permit goes out. -/
  | granted (cost : JobResourceCost)
      (room : s.state.activeJobs < s.state.capacity.maxActiveJobs)
      (admissible : Admissible s.state cost)
      (jobs : t.state.activeJobs = saturatingAdd usizeMax s.state.activeJobs 1)
      (active : ∀ r, Resource.active t.state r
        = saturatingAdd r.limit (Resource.active s.state r) (Resource.of cost r))
      (held : ∀ weight, held weight t.channels = held weight s.channels + weight cost)
      (queued : ∀ weight, queued weight t.state.waiting + weight cost
        = queued weight s.state.waiting)
  /-- A permit is dropped and its reservation released. -/
  | dropped (cost : JobResourceCost)
      (jobs : t.state.activeJobs = s.state.activeJobs - 1)
      (active : ∀ r, Resource.active t.state r = Resource.active s.state r - Resource.of cost r)
      (held : ∀ weight, held weight t.channels + weight cost = held weight s.channels)
      (queued : ∀ weight, queued weight t.state.waiting = queued weight s.state.waiting)

variable {shared : Shared} {s t : System} (channel : Channel)

theorem Channel.take_isLive : channel.take.phase.isLive = channel.phase.isLive := by
  obtain ⟨cost, sequence, phase, replies⟩ := channel
  cases phase <;> rfl

theorem Channel.cancel_isLive : channel.cancel.phase.isLive = channel.phase.isLive := by
  obtain ⟨cost, sequence, phase, replies⟩ := channel
  cases phase <;> rfl

theorem Channel.dropSender_isLive : channel.dropSender.phase.isLive = channel.phase.isLive := by
  obtain ⟨cost, sequence, phase, replies⟩ := channel
  cases phase <;> rfl

theorem Channel.refused_isLive (reason : SchedulerAcquireError) :
    (channel.answered (.error reason)).phase.isLive = channel.phase.isLive := by
  obtain ⟨cost, sequence, phase, replies⟩ := channel
  cases phase <;> rfl

theorem Channel.dropSender_cost : channel.dropSender.cost = channel.cost := by
  unfold dropSender
  split <;> rfl

theorem Channel.answered_cost (reply : Reply) : (channel.answered reply).cost = channel.cost := by
  unfold answered
  split <;> rfl

theorem held_modify {f : Channel → Channel} (hlive : ∀ c, (f c).phase.isLive = c.phase.isLive)
    (hcost : ∀ c, (f c).cost = c.cost) (channels : List Channel) (i : ℕ)
    (weight : JobResourceCost → ℕ) : held weight (channels.modify i f) = held weight channels := by
  cases hc : channels[i]? with
  | none => rw [modify_eq_self hc]
  | some channel =>
    rw [modify_eq_set hc]
    exact held_set_of_eq hc (hlive channel) (hcost channel) weight

/-- A job refused out of the queue takes nothing with it. -/
theorem refuse_effect (h : s.Sound) {kept rest : List WaitingJob}
    (hwaiting : s.state.waiting = kept ++ job :: rest) (reason : SchedulerAcquireError) :
    Effect s (refuse s (kept ++ rest) job reason) := by
  obtain ⟨hjob, hrest⟩ := tickets_refuse hwaiting
  obtain ⟨channel, hc, -⟩ := h.behind hjob
  refine .still rfl (fun r => by cases r <;> rfl) (fun weight => ?_) (fun weight => ?_)
  · change held weight ((send _ _ _).getD _) = _
    rw [send_getD hc]
    exact held_set_of_eq hc (channel.refused_isLive reason) (channel.answered_cost _) weight
  · have := queued_eraseIdx hjob weight
    rw [← hrest] at this
    exact Nat.le.intro this

/-- A grant sends the permit out, or takes the reservation back. -/
theorem grant_effect (h : s.Sound) (hroom : s.state.activeJobs < s.state.capacity.maxActiveJobs)
    (hadmissible : Admissible s.state job.cost)
    (hjob : (bypassed s.state.waiting index)[index]? = some job) :
    Effect s (grant s
      { s.state with waiting := (bypassed s.state.waiting index).eraseIdx index } job) := by
  have hticket := getElem?_tickets_bypassed hjob
  obtain ⟨channel, hc, hcost, -, hun⟩ := h.behind hticket
  have hqueued : ∀ weight, queued weight ((bypassed s.state.waiting index).eraseIdx index)
      + weight job.cost = queued weight s.state.waiting := fun weight => by
    rw [queued, tickets_eraseIdx, tickets_bypassed]
    exact queued_eraseIdx hticket weight
  by_cases hphase : channel.phase = .awaiting
  · have hsend := send_of_awaiting hc hphase .permit
    rw [grant, hsend]
    refine .granted job.cost hroom hadmissible rfl (fun r => by cases r <;> rfl)
      (fun weight => ?_) hqueued
    have hset := held_set weight hc (channel.answered .permit)
    simpa [Channel.answered, hphase, Phase.isLive, Reply.phase, hcost] using hset
  · rw [grant, send_of_not_awaiting hc hphase]
    refine .bounced job.cost hroom rfl (fun r => ?_) (fun _ => rfl) hqueued
    cases r <;> rfl

theorem runnableIndex_admissible {now : ℕ} {state : SchedulerState}
    (h : runnableIndex shared now state = some index)
    (hjob : (bypassed state.waiting index)[index]? = some job) : Admissible state job.cost := by
  obtain ⟨head, followers, hwaiting, ⟨rfl, hhead⟩ | ⟨i, follower, rfl, hi, -, hfits, -⟩⟩ :=
    runnableIndex_eq_some h
  · obtain rfl : head = job := by simpa [bypassed, hwaiting] using hjob
    exact hhead
  · obtain rfl : follower = job := by
      simpa [bypassed, hwaiting, countBypass, hi] using hjob
    exact Or.inl hfits

/-- **Every move has one of the four effects.** -/
theorem Move.effect (hmove : Move shared s t) (h : s.Sound) : Effect s t := by
  cases hmove with
  | retune => exact .still rfl (fun r => by cases r <;> rfl) (fun _ => rfl) (fun _ => Nat.le_refl _)
  | reject hwaiting => exact refuse_effect h hwaiting _
  | grant hroom hindex hjob => exact grant_effect h hroom (runnableIndex_admissible hindex hjob) hjob
  | @drain job rest hwaiting =>
    exact refuse_effect h (show s.state.waiting = [] ++ job :: rest from hwaiting) _
  | take ready =>
    exact .still rfl (fun r => by cases r <;> rfl)
      (held_modify Channel.take_isLive (fun c => c.advances_take.cost) _ _)
      (fun _ => Nat.le_refl _)
  | cancel ready =>
    exact .still rfl (fun r => by cases r <;> rfl)
      (held_modify Channel.cancel_isLive (fun c => c.advances_cancel.cost) _ _)
      (fun _ => Nat.le_refl _)
  | @drop ready channel phase hc hphase =>
    refine .dropped channel.cost rfl (fun r => by cases r <;> rfl) (fun weight => ?_) (fun _ => rfl)
    have hset := held_set weight hc { channel with phase := phase }
    have hlive : channel.phase.isLive = true ∧ phase.isLive = false := by
      cases hold : channel.phase <;> rw [hold] at hphase <;> cases hphase <;> exact ⟨rfl, rfl⟩
    simpa [hlive, System.setChannel] using hset
  | forget hc hphase hnone =>
    exact .still rfl (fun r => by cases r <;> rfl)
      (held_set_of_eq hc (by rw [hphase]; rfl) rfl) (fun _ => Nat.le_refl _)
  | @remove ready index channel job hc hphase hjob hsequence =>
    refine .still rfl (fun r => by cases r <;> rfl) (fun weight => ?_) (fun weight => ?_)
    · have hdone := @held_set_of_eq _ _ _ { channel with phase := .finished } hc
        (by rw [hphase]; rfl) rfl weight
      exact (held_modify Channel.dropSender_isLive Channel.dropSender_cost _ _ weight).trans hdone
    · have := queued_eraseIdx (getElem?_tickets hjob) weight
      change queued weight (s.state.waiting.eraseIdx index) ≤ _
      rw [queued, tickets_eraseIdx]
      exact Nat.le.intro this

/-! ## The accounts -/

/-- The counters never exceed the live permits, and the number of jobs is exact. -/
structure Accounted (sys : System) : Prop where
  jobs : sys.state.activeJobs = livePermits sys.channels
  active_le : ∀ r, Resource.active sys.state r ≤ heldCost r sys.channels

/-- The counters are the live permits, and no sum of costs has reached the greatest integer. -/
structure Exact (sys : System) : Prop where
  active : ∀ r, Resource.active sys.state r = heldCost r sys.channels
  demand_le : ∀ r, demand r sys ≤ r.limit

theorem Effect.accounted (heffect : Effect s t) (h : Accounted s) : Accounted t := by
  have hmax := s.state.capacity.maxActiveJobs_le
  have hjobs := h.jobs
  unfold livePermits at hjobs
  cases heffect with
  | still jobs active held queued =>
    refine ⟨by rw [jobs, hjobs, livePermits, held], fun r => ?_⟩
    rw [active, heldCost, held]
    exact h.active_le r
  | bounced cost room jobs active held queued =>
    refine ⟨?_, fun r => ?_⟩
    · rw [jobs, saturatingAdd_eq (by omega), livePermits, held, ← hjobs, Nat.add_sub_cancel]
    · rw [active, heldCost, held]
      exact Nat.le_trans (saturatingAdd_sub_le _ _ _) (h.active_le r)
  | granted cost room admissible jobs active held queued =>
    refine ⟨?_, fun r => ?_⟩
    · rw [jobs, saturatingAdd_eq (by omega), livePermits, held, ← hjobs]
    · rw [active, heldCost, held]
      exact Nat.le_trans (saturatingAdd_le _ _ _) (Nat.add_le_add_right (h.active_le r) _)
  | dropped cost jobs active held queued =>
    refine ⟨?_, fun r => ?_⟩
    · rw [jobs, hjobs, ← held, Nat.add_sub_cancel, livePermits]
    · have hle := h.active_le r
      rw [heldCost, ← held] at hle
      rw [active]
      exact Nat.sub_le_iff_le_add.mpr hle

/-- A queued job's cost fits on top of the live permits. -/
theorem Exact.add_le (h : Exact s) {cost : JobResourceCost} {r : Resource} {rest : ℕ}
    (hqueued : rest + Resource.of cost r = queued (Resource.of · r) s.state.waiting) :
    Resource.active s.state r + Resource.of cost r ≤ r.limit := by
  have hdemand := h.demand_le r
  rw [demand, ← h.active, ← hqueued] at hdemand
  omega

theorem Effect.exact (heffect : Effect s t) (h : Exact s) : Exact t := by
  cases heffect with
  | still jobs active held queued =>
    refine ⟨fun r => by rw [active, heldCost, held]; exact h.active r, fun r => ?_⟩
    refine Nat.le_trans ?_ (h.demand_le r)
    rw [demand, demand, heldCost, heldCost, held]
    exact Nat.add_le_add_left (queued _) _
  | bounced cost room jobs active held queued =>
    refine ⟨fun r => ?_, fun r => ?_⟩
    · rw [active, saturatingAdd_eq (h.add_le (queued (Resource.of · r))),
        Nat.add_sub_cancel, h.active, heldCost, heldCost, held]
    · refine Nat.le_trans ?_ (h.demand_le r)
      rw [demand, demand, heldCost, heldCost, held]
      exact Nat.add_le_add_left (Nat.le.intro (queued _)) _
  | granted cost room admissible jobs active held queued =>
    refine ⟨fun r => ?_, fun r => ?_⟩
    · rw [active, saturatingAdd_eq (h.add_le (queued (Resource.of · r))),
        h.active, heldCost, heldCost, held]
    · refine Nat.le_trans (Nat.le_of_eq ?_) (h.demand_le r)
      rw [demand, demand, heldCost, heldCost, held, ← queued, Nat.add_assoc,
        Nat.add_comm (Resource.of cost r)]
  | dropped cost jobs active held queued =>
    refine ⟨fun r => ?_, fun r => ?_⟩
    · rw [active, h.active, heldCost, ← held, Nat.add_sub_cancel, heldCost]
    · refine Nat.le_trans ?_ (h.demand_le r)
      rw [demand, demand, heldCost, heldCost, ← held, queued]
      exact Nat.add_le_add_right (Nat.le_add_right _ _) _

/-! ## Every run -/

/-- What a turn newly asks of a resource. -/
def asked : Action → ℕ
  | .acquire cost => Resource.of cost r
  | _ => 0

/-- No sum of costs reaches the greatest integer, the cost of an acquire included. -/
def WithinLimits (sys : System) (turn : Env × Action) : Prop :=
  ∀ r, demand r sys + asked r turn.2 ≤ r.limit

/-- The accounts at a moment. -/
structure Balanced (sys : System) : Prop where
  sound : sys.Sound
  accounted : Accounted sys
  exact : Exact sys

theorem Move.accounted (hmove : Move shared s t) (hsound : s.Sound) (h : Accounted s) :
    Accounted t :=
  (hmove.effect hsound).accounted h

theorem Accounted.enqueue (h : Accounted s) (now : ℕ) (cost : JobResourceCost) :
    Accounted (s.enqueue now cost) :=
  ⟨h.jobs.trans (held_append _ _ rfl).symm, fun r => by
    refine Nat.le_trans ?_ (Nat.le_of_eq (held_append _ _ rfl).symm)
    cases r
    exacts [h.active_le .memory, h.active_le .io, h.active_le .cpu]⟩

theorem Accounted.refuseCall (h : Accounted s) (cost : JobResourceCost)
    (reason : SchedulerAcquireError) : Accounted (s.refuseCall cost reason) :=
  ⟨h.jobs.trans (held_append _ _ rfl).symm, fun r =>
    Nat.le_trans (h.active_le r) (Nat.le_of_eq (held_append _ _ rfl).symm)⟩

theorem Exact.enqueue (h : Exact s) (now : ℕ) (cost : JobResourceCost)
    (hlimit : ∀ r, demand r s + Resource.of cost r ≤ r.limit) : Exact (s.enqueue now cost) := by
  refine ⟨fun r => ?_, fun r => ?_⟩
  · refine Eq.trans ?_ (held_append _ _ rfl).symm
    cases r
    exacts [h.active .memory, h.active .io, h.active .cpu]
  refine Nat.le_trans (Nat.le_of_eq ?_) (hlimit r)
  have hheld : heldCost r (s.enqueue now cost).channels = heldCost r s.channels :=
    held_append _ _ rfl
  have hqueued : queued (Resource.of · r) (s.enqueue now cost).state.waiting
      = queued (Resource.of · r) s.state.waiting + Resource.of cost r := by
    simp [queued, tickets, System.enqueue, WaitingJob.ticket]
  rw [demand, hheld, hqueued, ← Nat.add_assoc]
  rfl

theorem Exact.refuseCall (h : Exact s) (cost : JobResourceCost)
    (reason : SchedulerAcquireError) : Exact (s.refuseCall cost reason) := by
  have hheld : ∀ r, heldCost r (s.refuseCall cost reason).channels = heldCost r s.channels :=
    fun r => held_append _ _ rfl
  refine ⟨fun r => (h.active r).trans (hheld r).symm, fun r => ?_⟩
  rw [demand, hheld]
  exact h.demand_le r

theorem Balanced.initially (capacity : SchedulerCapacity) : Balanced (initial capacity) :=
  ⟨Sound.initially, ⟨rfl, fun r => by cases r <;> exact Nat.le_refl 0⟩,
    ⟨fun r => by cases r <;> rfl, fun r => Nat.zero_le _⟩⟩

theorem balanced_turn (h : Balanced s) {turn : Env × Action} (hlimits : WithinLimits s turn) :
    Balanced (step shared s turn) := by
  refine (turn_invariant h (fun cost haction _ => ?_) (fun cost reason _ => ?_)
    (fun _ _ hmove hinv => ?_)).2
  · refine ⟨h.sound.enqueue _ cost, h.accounted.enqueue _ cost, h.exact.enqueue _ cost fun r => ?_⟩
    simpa [asked, haction] using hlimits r
  · exact ⟨h.sound.refuseCall cost reason, h.accounted.refuseCall cost reason,
      h.exact.refuseCall cost reason⟩
  · exact ⟨hmove.sound hinv.sound, hmove.accounted hinv.sound hinv.accounted,
      (hmove.effect hinv.sound).exact hinv.exact⟩

theorem balanced_after {capacity : SchedulerCapacity} {turns : List (Env × Action)}
    (h : RunsWithin (step shared) WithinLimits (initial capacity) turns) :
    Balanced (after shared capacity turns) :=
  after_invariant_within (Balanced.initially capacity) (fun _ _ hinv => balanced_turn hinv) h

theorem countP_ready (hnodup : ((tickets waiting).map Ticket.ready).Nodup) (hjob : job ∈ waiting) :
    waiting.countP (·.ready == job.ready) = 1 := by
  have hmap : (tickets waiting).map Ticket.ready = waiting.map WaitingJob.ready := by
    rw [tickets, List.map_map]
    rfl
  rw [hmap] at hnodup
  have hcount := hnodup.count (a := job.ready)
  rw [if_pos (List.mem_map_of_mem hjob), List.count, List.countP_map] at hcount
  exact hcount

/-- **The accounts are exact in every run.**  The counters are the live permits; a call that waits
has exactly one entry in the queue and an entry exactly one call, never answered and, up to the
wrap of the sequence counter, still there; and no call is ever sent two replies. -/
theorem accounts_exact (shared : Shared) (capacity : SchedulerCapacity)
    (turns : List (Env × Action))
    (h : RunsWithin (step shared) WithinLimits (initial capacity) turns) :
    let sys := after shared capacity turns
    (sys.state.activeJobs = livePermits sys.channels ∧
      sys.state.activeMemoryMib = heldCost .memory sys.channels ∧
      sys.state.activeIoMib = heldCost .io sys.channels ∧
      sys.state.activeCpuUnits = heldCost .cpu sys.channels) ∧
    (livePermits sys.channels = 0 → sys.state.activeJobs = 0 ∧ sys.state.activeMemoryMib = 0 ∧
      sys.state.activeIoMib = 0 ∧ sys.state.activeCpuUnits = 0) ∧
    (∀ i channel, sys.channels[i]? = some channel → channel.phase = .awaiting →
      sys.state.waiting.countP (·.ready == i) = 1) ∧
    (∀ job ∈ sys.state.waiting, sys.state.waiting.countP (·.ready == job.ready) = 1 ∧
      ∃ channel, sys.channels[job.ready]? = some channel ∧ channel.cost = job.cost ∧
        channel.replies = [] ∧ (acquires turns < 2 ^ 64 →
          channel.phase = .awaiting ∨ channel.phase = .unregistering)) ∧
    ∀ channel ∈ sys.channels, channel.replies.length ≤ 1 := by
  intro sys
  have hbal : Balanced sys := balanced_after h
  have hactive := hbal.exact.active
  refine ⟨⟨hbal.accounted.jobs, hactive .memory, hactive .io, hactive .cpu⟩, ?_, ?_, ?_, ?_⟩
  · intro hnone
    have hzero : ∀ r, Resource.active sys.state r = 0 := fun r =>
      (hactive r).trans (held_eq_zero hnone _)
    exact ⟨hbal.accounted.jobs.trans hnone, hzero .memory, hzero .io, hzero .cpu⟩
  · intro i channel hchannel hphase
    obtain ⟨ticket, hticket, rfl⟩ := hbal.sound.waits i channel hchannel hphase
    obtain ⟨job, hjob, rfl⟩ := List.mem_map.mp hticket
    exact countP_ready hbal.sound.nodup hjob
  · intro job hjob
    have hticket : job.ticket ∈ tickets sys.state.waiting := List.mem_map_of_mem hjob
    obtain ⟨channel, hchannel, hcost, -, hun⟩ := hbal.sound.pending job.ticket hticket
    refine ⟨countP_ready hbal.sound.nodup hjob, channel, hchannel, hcost, hun.replies, ?_⟩
    intro hcalls
    obtain ⟨c, hc, hphase⟩ := (@inOrder_after shared capacity turns hcalls).attended _ hticket
    obtain rfl : channel = c := Option.some.inj (hchannel.symm.trans hc)
    rcases hun.phase with hp | hp | hp
    exacts [Or.inl hp, Or.inr hp, absurd hp hphase]
  · exact fun channel hmem => (hbal.sound.wellFormed channel hmem).length_le

/-- A quiet moment: clocks at zero, no valid sample, no runtime. -/
def quiet : Env := ⟨0, ⟨none, none, false, false⟩, fun _ => 0, fun _ => 0, false⟩

/-- Four slots, 100 MiB of memory and of I/O, and four CPU units. -/
def smallHost : SchedulerCapacity where
  mode := .dynamic
  maxActiveJobs := 4
  memoryBudgetMib := 100
  ioBudgetMib := 100
  cpuUnits := 4

/-- Fixed budgets, two bypasses, a minute of patience. -/
def fixedBudgets : Shared where
  starvationTimeout := 60
  maxBypass := 2
  autoMemoryBudget := false
  autoCpuUnits := false

def largeJob : JobResourceCost := .small 80 80 3

def smallJob : JobResourceCost := .small 30 30 2

/-- Two jobs that do not fit together: one permit, one waiter. -/
theorem accounts_exact_one_permit :
    let sys := after fixedBudgets smallHost [(quiet, .acquire largeJob), (quiet, .acquire smallJob)]
    sys.state.activeJobs = livePermits sys.channels ∧ livePermits sys.channels = 1 ∧
      sys.state.waiting.length = 1 :=
  ⟨(accounts_exact fixedBudgets smallHost
      [(quiet, .acquire largeJob), (quiet, .acquire smallJob)]
      ⟨fun r => by cases r <;> decide, fun r => by cases r <;> decide, trivial⟩).1.1,
    by decide, by decide⟩

end DatabasesEverywhere.Scheduler
