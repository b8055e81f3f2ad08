import DatabasesEverywhere.Scheduler.Accounting

/-!
# Scheduler/Bypass — how often a waiting job is overtaken

Only the head of the queue counts bypasses, and the head changes.  What bounds a job in the middle
is the *slack* of the queue up to it: every grant past the job takes one unit from the head's slack,
and a job that leaves in front only takes its own slack along.

    overtaken so far  +  Σ_{jobs up to it} (maxBypass - bypasses)  ≤  (ahead + 1) * maxBypass
-/

open Foundations

namespace DatabasesEverywhere.Scheduler

/-! ## Overtaking -/

/-- The event takes the job of that call out of the queue. -/
def Event.ends (ready : ℕ) : Event → Bool
  | .arrived _ _ _ => false
  | .granted r _ _ => r == ready
  | .left r => r == ready

/-- The event grants a job with a larger sequence number. -/
def Event.overtakes (sequence : ℕ) : Event → Bool
  | .granted _ k _ => sequence < k
  | _ => false

/-- How many jobs with a larger sequence number are granted in a stretch of the log. -/
def overtaken (sequence : ℕ) (events : List Event) : ℕ := events.countP (Event.overtakes sequence)

variable (maxBypass : ℕ)

/-- The bypasses a stretch of the queue has left. -/
def slack (waiting : List WaitingJob) : ℕ :=
  (waiting.map fun job => maxBypass - job.bypasses).sum

@[simp] theorem slack_append (l r : List WaitingJob) :
    slack maxBypass (l ++ r) = slack maxBypass l + slack maxBypass r := by
  simp [slack]

@[simp] theorem slack_cons (job : WaitingJob) (l : List WaitingJob) :
    slack maxBypass (job :: l) = maxBypass - job.bypasses + slack maxBypass l := by
  simp [slack]

theorem slack_le (maxBypass : ℕ) : ∀ waiting : List WaitingJob,
    slack maxBypass waiting ≤ waiting.length * maxBypass
  | [] => Nat.zero_le _
  | job :: waiting => by
    rw [slack_cons, List.length_cons, Nat.succ_mul, Nat.add_comm]
    exact Nat.add_le_add (slack_le maxBypass waiting) (Nat.sub_le _ _)

/-! ## What leaves the queue pays for itself -/

/-- Every job that stays has its overtaking by `event` paid out of the slack up to it. -/
def Pays (event : Event) (old new : List WaitingJob) : Prop :=
  ∀ before job behind, new = before ++ job :: behind →
    ∃ before' job' behind', old = before' ++ job' :: behind' ∧ job'.ticket = job.ticket ∧
      (if event.overtakes job.sequence then 1 else 0) + slack maxBypass (before ++ [job])
        ≤ slack maxBypass (before' ++ [job'])

variable {maxBypass} {event : Event}

/-- A job leaves and overtakes nobody. -/
theorem pays_of_not_overtakes {front rest : List WaitingJob}
    (gone : WaitingJob) (h : ∀ job ∈ front ++ rest, event.overtakes job.sequence = false) :
    Pays maxBypass event (front ++ gone :: rest) (front ++ rest) := by
  intro before job behind hsplit
  have hjob : event.overtakes job.sequence = false := h job (by simp [hsplit])
  rw [hjob]
  rcases append_eq_append_cons hsplit with ⟨r, rfl, rfl⟩ | ⟨f, rfl, rfl⟩
  · exact ⟨before, job, r ++ gone :: rest, by simp, rfl, by simp⟩
  · refine ⟨front ++ gone :: f, job, behind, by simp, rfl, ?_⟩
    simp only [Bool.false_eq_true, if_false, slack_append, slack_cons]
    omega

/-- A follower leaves past a head that has a bypass left, and overtakes nobody behind it. -/
theorem pays_of_bypass {head gone : WaitingJob} {front rest : List WaitingJob}
    (hmax : maxBypass ≤ usizeMax)
    (hhead : head.bypasses < maxBypass) (h : ∀ job ∈ rest, event.overtakes job.sequence = false) :
    Pays maxBypass event (head :: (front ++ gone :: rest))
      ({ head with bypasses := saturatingAdd usizeMax head.bypasses 1 } :: (front ++ rest)) := by
  have hbypasses : saturatingAdd usizeMax head.bypasses 1 = head.bypasses + 1 :=
    saturatingAdd_eq (by omega)
  intro before job behind hsplit
  have hone : (if event.overtakes job.sequence then 1 else 0) ≤ 1 := by split <;> omega
  rcases before with _ | ⟨first, before⟩
  · obtain ⟨rfl, -⟩ := List.cons.inj hsplit
    refine ⟨[], head, front ++ gone :: rest, rfl, rfl, ?_⟩
    simp only [List.nil_append, slack_cons] at *
    omega
  obtain ⟨rfl, hfollowers⟩ := List.cons.inj hsplit
  rcases append_eq_append_cons hfollowers with ⟨r, rfl, rfl⟩ | ⟨f, rfl, rfl⟩
  · refine ⟨head :: before, job, r ++ gone :: rest, by simp, rfl, ?_⟩
    simp only [List.cons_append, slack_append, slack_cons]
    omega
  · refine ⟨head :: (front ++ gone :: f), job, behind, by simp, rfl, ?_⟩
    have hjob : event.overtakes job.sequence = false := h job (by simp)
    simp only [hjob, List.cons_append, slack_append, slack_cons, Bool.false_eq_true, if_false]
    omega

/-! ## Moves -/

variable {shared : Shared} {s t : System}

/-- One job has left the queue, recorded and paid for. -/
structure Departure (maxBypass : ℕ) (s t : System) (index : ℕ) (ticket : Ticket) (event : Event) :
    Prop where
  ticket_eq : (tickets s.state.waiting)[index]? = some ticket
  queue : tickets t.state.waiting = (tickets s.state.waiting).eraseIdx index
  log : t.log = s.log ++ [event]
  ends : ∀ ready, event.ends ready = (ticket.ready == ready)
  not_arrived : ∀ ready sequence ahead, event ≠ .arrived ready sequence ahead
  pays : Pays maxBypass event s.state.waiting t.state.waiting

/-- Every queued job fits the memory budget. -/
def AllFitMemory (sys : System) : Prop :=
  ∀ ticket ∈ tickets sys.state.waiting, fitsHardMemory sys.state.capacity ticket.cost = true

theorem departure_of_left {kept rest : List WaitingJob} {job : WaitingJob}
    (hwaiting : s.state.waiting = kept ++ job :: rest) (ht : t.state.waiting = kept ++ rest)
    (hlog : t.log = s.log ++ [.left job.ready]) :
    Departure maxBypass s t kept.length job.ticket (.left job.ready) := by
  obtain ⟨hticket, hqueue⟩ := tickets_refuse hwaiting
  refine ⟨hticket, by rw [ht, hqueue], hlog, fun _ => rfl, fun _ _ _ => Event.noConfusion, ?_⟩
  rw [hwaiting, ht]
  exact pays_of_not_overtakes job fun _ _ => rfl

/-- The queue order, on the jobs themselves. -/
theorem Ordered.pairwise (h : Ordered s) :
    s.state.waiting.Pairwise fun a b => a.sequence < b.sequence := by
  have hincreasing := h.increasing
  rwa [tickets, List.pairwise_map] at hincreasing

/-- A granted job leaves the queue, whether or not its permit arrives. -/
theorem grant_event (s : System) (state : SchedulerState) (job : WaitingJob) :
    ∃ event, (grant s state job).log = s.log ++ [event] ∧
      (∀ ready, event.ends ready = (job.ready == ready)) ∧
      (∀ ready sequence ahead, event ≠ .arrived ready sequence ahead) ∧
      ∀ sequence, job.sequence ≤ sequence → event.overtakes sequence = false := by
  unfold grant
  split
  · refine ⟨_, rfl, fun _ => rfl, fun _ _ _ => Event.noConfusion, fun sequence h => ?_⟩
    simp only [Event.overtakes, decide_eq_false_iff_not]
    omega
  · exact ⟨_, rfl, fun _ => rfl, fun _ _ _ => Event.noConfusion, fun _ _ => rfl⟩

theorem departure_of_grant {now index : ℕ} {job : WaitingJob} (hordered : Ordered s)
    (hfit : AllFitMemory s) (hindex : runnableIndex shared now s.state = some index)
    (hjob : (bypassed s.state.waiting index)[index]? = some job) :
    ∃ event, Departure shared.maxBypass s (grant s
        { s.state with waiting := (bypassed s.state.waiting index).eraseIdx index } job)
      index job.ticket event := by
  obtain ⟨event, hlog, hends, harrived, hovertakes⟩ := grant_event s
    { s.state with waiting := (bypassed s.state.waiting index).eraseIdx index } job
  refine ⟨event, getElem?_tickets_bypassed hjob, ?_, hlog, hends, harrived, ?_⟩
  · rw [grant_waiting, tickets_eraseIdx, tickets_bypassed]
  rw [grant_waiting]
  have hsorted := hordered.pairwise
  obtain ⟨head, followers, hwaiting, ⟨rfl, -⟩ | ⟨i, follower, rfl, hi, -, -, hbypass⟩⟩ :=
    runnableIndex_eq_some hindex
  · obtain rfl : head = job := by simpa [bypassed, hwaiting] using hjob
    rw [hwaiting] at hsorted ⊢
    have hbehind := (List.pairwise_cons.mp hsorted).1
    exact @pays_of_not_overtakes _ _ [] followers head fun j hj =>
      hovertakes j.sequence (Nat.le_of_lt (hbehind j hj))
  · obtain rfl : follower = job := by simpa [bypassed, hwaiting, countBypass, hi] using hjob
    have hhead : head.bypasses < shared.maxBypass := by
      refine hbypass (hfit head.ticket ?_)
      rw [hwaiting]
      exact List.mem_cons_self
    have herase : (bypassed s.state.waiting (i + 1)).eraseIdx (i + 1)
        = { head with bypasses := saturatingAdd usizeMax head.bypasses 1 }
          :: (followers.take i ++ followers.drop (i + 1)) := by
      rw [hwaiting, ← List.eraseIdx_eq_take_drop_succ]
      rfl
    have hold : s.state.waiting
        = head :: (followers.take i ++ follower :: followers.drop (i + 1)) := by
      rw [hwaiting, ← eq_take_cons_drop hi]
    rw [herase, hold]
    rw [hold] at hsorted
    have hbehind := (List.pairwise_append.mp (List.pairwise_cons.mp hsorted).2).2.1
    have hafter := (List.pairwise_cons.mp hbehind).1
    exact pays_of_bypass shared.maxBypass_le hhead fun j hj =>
      hovertakes j.sequence (Nat.le_of_lt (hafter j hj))

/-- **A move leaves queue and log alone, or one job leaves and pays for itself.** -/
theorem Move.departure (hmove : Move shared s t) (hordered : Ordered s) (hfit : AllFitMemory s) :
    (t.state.waiting = s.state.waiting ∧ t.log = s.log) ∨
      ∃ index ticket event, Departure shared.maxBypass s t index ticket event := by
  cases hmove with
  | retune | take | cancel | drop | forget => exact Or.inl ⟨rfl, rfl⟩
  | reject hwaiting => exact Or.inr ⟨_, _, _, departure_of_left hwaiting rfl rfl⟩
  | @grant now index job hroom hindex hjob =>
    obtain ⟨event, hdeparture⟩ := departure_of_grant hordered hfit hindex hjob
    exact Or.inr ⟨_, _, event, hdeparture⟩
  | @drain job rest hwaiting =>
    refine Or.inr ⟨_, _, _, departure_of_left (show _ = [] ++ job :: rest from hwaiting) rfl rfl⟩
  | @remove ready index channel job hc hphase hjob hsequence =>
    refine Or.inr ⟨_, _, _, departure_of_left (eq_take_cons_drop hjob) ?_ rfl⟩
    exact List.eraseIdx_eq_take_drop_succ _ _

/-! ## The bound -/

/-- The bound for the jobs that wait: overtaken so far, plus the slack up to the job. -/
def WithinSlack (maxBypass : ℕ) (sys : System) : Prop :=
  ∀ before job behind earlier ahead later, sys.state.waiting = before ++ job :: behind →
    sys.log = earlier ++ .arrived job.ready job.sequence ahead :: later →
    overtaken job.sequence later + slack maxBypass (before ++ [job]) ≤ (ahead + 1) * maxBypass

/-- A job that arrived and has not left is in the queue. -/
def Present (sys : System) : Prop :=
  ∀ earlier ready sequence ahead later, sys.log = earlier ++ .arrived ready sequence ahead :: later →
    (∀ event ∈ later, event.ends ready = false) →
    ∃ ticket ∈ tickets sys.state.waiting, ticket.ready = ready ∧ ticket.sequence = sequence

/-- The bound for every job and every stretch of its stay. -/
def BoundedStays (maxBypass : ℕ) (log : List Event) : Prop :=
  ∀ earlier ready sequence ahead stay rest,
    log = earlier ++ .arrived ready sequence ahead :: (stay ++ rest) →
    (∀ event ∈ stay, event.ends ready = false) →
    overtaken sequence stay ≤ (ahead + 1) * maxBypass

/-- What every turn keeps. -/
structure Patient (shared : Shared) (sys : System) : Prop where
  inOrder : InOrder sys
  fixed : shared.autoMemoryBudget = false ∨ sys.state.capacity.mode = .manual
  fit : AllFitMemory sys
  calls : ∀ ready sequence ahead, .arrived ready sequence ahead ∈ sys.log →
    ready < sys.channels.length
  slack : WithinSlack shared.maxBypass sys
  present : Present sys
  stays : BoundedStays shared.maxBypass sys.log

theorem overtaken_concat (sequence : ℕ) (events : List Event) (event : Event) :
    overtaken sequence (events ++ [event])
      = overtaken sequence events + if event.overtakes sequence then 1 else 0 := by
  simp [overtaken, List.countP_append, List.countP_singleton]

variable {index : ℕ} {ticket : Ticket}

theorem Departure.withinSlack (h : Departure maxBypass s t index ticket event)
    (hslack : WithinSlack maxBypass s) : WithinSlack maxBypass t := by
  intro before job behind earlier ahead later hwaiting hlog
  rw [h.log] at hlog
  rcases concat_eq_append_cons hlog with ⟨rest, hold, rfl⟩ | ⟨-, heq, -⟩
  · obtain ⟨before', job', behind', hwaiting', hticket, hpay⟩ := h.pays before job behind hwaiting
    obtain ⟨hready, -, hsequence⟩ := Ticket.mk.inj hticket
    rw [← hready, ← hsequence] at hold
    have := hslack before' job' behind' earlier ahead rest hwaiting' hold
    rw [overtaken_concat, ← hsequence]
    rw [← hsequence] at hpay
    omega
  · exact absurd heq.symm (h.not_arrived _ _ _)

theorem Departure.present (h : Departure maxBypass s t index ticket event)
    (hnodup : ((tickets s.state.waiting).map Ticket.ready).Nodup) (hpresent : Present s) :
    Present t := by
  intro earlier ready sequence ahead later hlog hstays
  rw [h.log] at hlog
  rcases concat_eq_append_cons hlog with ⟨rest, hold, rfl⟩ | ⟨-, heq, -⟩
  · obtain ⟨x, hx, rfl, rfl⟩ := hpresent earlier ready sequence ahead rest hold
      fun e he => hstays e (List.mem_append_left _ he)
    refine ⟨x, ?_, rfl, rfl⟩
    rw [h.queue, mem_eraseIdx_of_nodup hnodup h.ticket_eq]
    refine ⟨hx, fun hsame => ?_⟩
    have hends := hstays event (by simp)
    rw [h.ends, hsame] at hends
    simp at hends
  · exact absurd heq.symm (h.not_arrived _ _ _)

/-- The stays of a longer log, from the jobs that still wait at its end. -/
theorem boundedStays_concat {log : List Event} {sys : System} (hlog : sys.log = log ++ [event])
    (hstays : BoundedStays maxBypass log) (hslack : WithinSlack maxBypass sys)
    (hpresent : Present sys) : BoundedStays maxBypass sys.log := by
  intro earlier ready sequence ahead stay rest hsplit hopen
  rcases List.eq_nil_or_concat rest with rfl | ⟨rest, last, rfl⟩
  · rw [List.append_nil] at hsplit
    obtain ⟨x, hx, rfl, rfl⟩ := hpresent earlier ready sequence ahead stay hsplit hopen
    obtain ⟨job, hjob, rfl⟩ := List.mem_map.mp hx
    obtain ⟨before, behind, hwaiting⟩ := List.append_of_mem hjob
    exact Nat.le_trans (Nat.le_add_right _ _)
      (hslack before job behind earlier ahead stay hwaiting hsplit)
  · refine hstays earlier ready sequence ahead stay rest ?_ hopen
    rw [hlog] at hsplit
    have hassoc : earlier ++ Event.arrived ready sequence ahead :: (stay ++ rest.concat last)
        = (earlier ++ .arrived ready sequence ahead :: (stay ++ rest)) ++ [last] := by simp
    rw [hassoc] at hsplit
    exact (List.append_inj' hsplit rfl).1

theorem Retuned.fitsHardMemory {old new : SchedulerCapacity} (h : Retuned shared old new)
    (hfixed : shared.autoMemoryBudget = false ∨ old.mode = .manual) (cost : JobResourceCost) :
    fitsHardMemory new cost = fitsHardMemory old cost := by
  unfold Scheduler.fitsHardMemory
  rw [h.mode]
  rcases hfixed with hfixed | hmanual
  · rw [h.memoryBudgetMib hfixed]
  · simp [hmanual]

theorem Move.patient (hmove : Move shared s t) (h : Patient shared s) : Patient shared t := by
  have hretuned := hmove.retuned
  have hinOrder : InOrder t := ⟨hmove.sound h.inOrder.sound, hmove.ordered h.inOrder.ordered,
    hmove.attended h.inOrder.sound h.inOrder.ordered h.inOrder.attended⟩
  have hfixed : shared.autoMemoryBudget = false ∨ t.state.capacity.mode = .manual :=
    h.fixed.imp_right hretuned.mode.trans
  have hfit : AllFitMemory t := fun ticket ht => by
    rw [hretuned.fitsHardMemory h.fixed]
    exact h.fit ticket (hmove.tickets_sublist.subset ht)
  rcases hmove.departure h.inOrder.ordered h.fit with
    ⟨hwaiting, hlog⟩ | ⟨index, ticket, event, hdeparture⟩
  · refine ⟨hinOrder, hfixed, hfit, ?_, ?_, ?_, ?_⟩
    · rw [hlog, hmove.length_channels]
      exact h.calls
    · rw [WithinSlack, hwaiting, hlog]
      exact h.slack
    · rw [Present, hwaiting, hlog]
      exact h.present
    · rw [hlog]
      exact h.stays
  · have hslack := hdeparture.withinSlack h.slack
    have hpresent := hdeparture.present h.inOrder.sound.nodup h.present
    refine ⟨hinOrder, hfixed, hfit, ?_, hslack, hpresent,
      boundedStays_concat hdeparture.log h.stays hslack hpresent⟩
    intro ready sequence ahead hmem
    rw [hdeparture.log] at hmem
    rw [hmove.length_channels]
    rcases List.mem_append.mp hmem with hmem | hmem
    · exact h.calls ready sequence ahead hmem
    · exact absurd (List.mem_singleton.mp hmem).symm (hdeparture.not_arrived _ _ _)

variable {cost : JobResourceCost}

/-- A fixed memory budget is checked at the door. -/
theorem Joins.fitsHardMemory (h : Joins shared s cost)
    (hfixed : shared.autoMemoryBudget = false ∨ s.state.capacity.mode = .manual) :
    fitsHardMemory s.state.capacity cost = true := by
  have hfits := h.fits
  unfold structurallyExceedsFixedBudget at hfits
  unfold Scheduler.fitsHardMemory
  rcases hfixed with hfixed | hmanual
  · cases hmode : s.state.capacity.mode with
    | manual => rfl
    | dynamic => simpa [hfixed, hmode] using hfits
  · rw [hmanual]
    rfl

/-- A job that joins has as much slack ahead of it as there are jobs. -/
theorem Patient.enqueue (h : Patient shared s) (now : ℕ) (hjoins : Joins shared s cost)
    (hroom : s.channels.length + 1 < 2 ^ 64) : Patient shared (s.enqueue now cost) := by
  have hold : ∀ job ∈ s.state.waiting, job.ready < s.channels.length := fun job hjob => by
    obtain ⟨_, hc, -⟩ := h.inOrder.sound.pending job.ticket (List.mem_map_of_mem hjob)
    exact (List.getElem?_eq_some_iff.mp hc).1
  have hslack : WithinSlack shared.maxBypass (s.enqueue now cost) := by
    intro before job behind earlier ahead later hwaiting hlog
    rcases concat_eq_append_cons hlog with ⟨rest, hearlier, rfl⟩ | ⟨-, harrived, rfl⟩
    · rcases concat_eq_append_cons hwaiting with ⟨r, hfront, -⟩ | ⟨-, rfl, -⟩
      · rw [overtaken_concat]
        exact h.slack before job r earlier ahead rest hfront hearlier
      · refine absurd (h.calls s.channels.length s.state.nextSequence ahead ?_) (Nat.lt_irrefl _)
        rw [hearlier]
        exact List.mem_append_right _ List.mem_cons_self
    · obtain ⟨hready, -, rfl⟩ := Event.arrived.inj harrived
      rcases concat_eq_append_cons hwaiting with ⟨r, hfront, -⟩ | ⟨rfl, rfl, -⟩
      · exact absurd (hold job (by rw [hfront]; simp)) (by rw [hready]; exact Nat.lt_irrefl _)
      · have hle := slack_le shared.maxBypass (s.state.waiting ++
          [⟨s.state.nextSequence, now, 0, cost, s.channels.length⟩])
        simpa [overtaken] using hle
  have hpresent : Present (s.enqueue now cost) := by
    intro earlier ready sequence ahead later hlog hopen
    rcases concat_eq_append_cons hlog with ⟨rest, hearlier, rfl⟩ | ⟨-, harrived, rfl⟩
    · obtain ⟨x, hx, hready, hsequence⟩ := h.present earlier ready sequence ahead rest hearlier
        fun e he => hopen e (List.mem_append_left _ he)
      refine ⟨x, ?_, hready, hsequence⟩
      simp only [System.enqueue, tickets, List.map_append]
      exact List.mem_append_left _ hx
    · obtain ⟨rfl, rfl, rfl⟩ := Event.arrived.inj harrived
      simp [System.enqueue, tickets, WaitingJob.ticket]
  refine ⟨h.inOrder.enqueue now cost hroom, h.fixed, ?_, ?_, hslack, hpresent,
    boundedStays_concat rfl h.stays hslack hpresent⟩
  · intro ticket ht
    simp only [System.enqueue, tickets, List.map_append, List.map_singleton, List.mem_append,
      List.mem_singleton] at ht
    rcases ht with ht | rfl
    · exact h.fit ticket ht
    · exact hjoins.fitsHardMemory h.fixed
  · intro ready sequence ahead hmem
    rw [System.enqueue, List.length_append, List.length_singleton]
    rcases List.mem_append.mp hmem with hmem | hmem
    · exact Nat.lt_succ_of_lt (h.calls ready sequence ahead hmem)
    · obtain ⟨rfl, -, -⟩ := Event.arrived.inj (List.mem_singleton.mp hmem)
      exact Nat.lt_succ_self _

theorem Patient.refuseCall (h : Patient shared s) (cost : JobResourceCost)
    (reason : SchedulerAcquireError) : Patient shared (s.refuseCall cost reason) := by
  refine ⟨⟨h.inOrder.sound.refuseCall cost reason, h.inOrder.ordered.refuseCall cost reason,
    h.inOrder.attended.append _⟩, h.fixed, h.fit, ?_, h.slack, h.present, h.stays⟩
  intro ready sequence ahead hmem
  rw [System.refuseCall, List.length_append]
  exact Nat.lt_add_right _ (h.calls ready sequence ahead hmem)

theorem patient_after {capacity : SchedulerCapacity} {turns : List (Env × Action)}
    (hfixed : shared.autoMemoryBudget = false ∨ capacity.mode = .manual)
    (hcalls : acquires turns < 2 ^ 64) : Patient shared (after shared capacity turns) := by
  refine after_invariant_within ?_ (fun sys turn h hcounts => ?_)
    (countsOn_of_acquires_lt turns (by simpa [initial] using hcalls))
  · refine ⟨InOrder.initially capacity, hfixed, ?_, ?_, ?_, ?_, ?_⟩
    all_goals simp [AllFitMemory, WithinSlack, Present, BoundedStays, initial, tickets]
  · exact (turn_invariant h
      (fun cost haction hjoins => h.enqueue turn.1.now hjoins (hcounts cost haction))
      (fun cost reason _ => h.refuseCall cost reason) (fun _ _ hmove => hmove.patient)).2

/-- **Bypassing is bounded.**  With a fixed memory budget or in manual mode, and while the sequence
counter does not wrap: from the moment a job joins the queue behind `ahead` others, for as long as
it stays, at most `(ahead + 1) * maxBypass` jobs with a larger sequence number are granted. -/
theorem bypass_bounded (shared : Shared) (capacity : SchedulerCapacity)
    (turns : List (Env × Action))
    (hfixed : shared.autoMemoryBudget = false ∨ capacity.mode = .manual)
    (hcalls : acquires turns < 2 ^ 64) (earlier : List Event) (ready sequence ahead : ℕ)
    (stay rest : List Event)
    (hlog : (after shared capacity turns).log
      = earlier ++ .arrived ready sequence ahead :: (stay ++ rest))
    (hstay : ∀ event ∈ stay, event.ends ready = false) :
    overtaken sequence stay ≤ (ahead + 1) * shared.maxBypass :=
  (patient_after hfixed hcalls).stays earlier ready sequence ahead stay rest hlog hstay

/-- One job is active, a large one waits, and a small one slips past it. -/
def slipPast : List (Env × Action) :=
  [(quiet, .acquire smallJob), (quiet, .acquire largeJob), (quiet, .acquire (.small 20 20 1))]

theorem bypass_bounded_slipPast :
    let log := (after fixedBudgets smallHost slipPast).log
    log = log.take 2 ++ .arrived 1 1 0 :: (log.drop 3 ++ []) ∧
      overtaken 1 (log.drop 3) = 1 ∧ overtaken 1 (log.drop 3) ≤ (0 + 1) * 2 :=
  have hlog : (after fixedBudgets smallHost slipPast).log
      = (after fixedBudgets smallHost slipPast).log.take 2
        ++ .arrived 1 1 0 :: ((after fixedBudgets smallHost slipPast).log.drop 3 ++ []) := by
    decide
  ⟨hlog, by decide, bypass_bounded fixedBudgets smallHost slipPast (Or.inl rfl) (by decide) _ 1 1 0
    _ [] hlog (by decide)⟩

end DatabasesEverywhere.Scheduler
