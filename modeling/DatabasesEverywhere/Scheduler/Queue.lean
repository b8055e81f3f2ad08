import DatabasesEverywhere.Foundations.Lists
import DatabasesEverywhere.Scheduler.Moves

/-!
# Scheduler/Queue — one ticket per waiting call

A queued job is held together by three things: its entry in `waiting`, its channel, and the call
that polls the channel.  `Sound` says how they match: no two entries share a channel, an entry's
channel was never answered, and a call that waits has its entry.  Every move keeps it, whatever
the sequence counter does.
-/

open Foundations

namespace DatabasesEverywhere.Scheduler

/-! ## Tickets -/

/-- What an entry of the queue stands for; bypass counters and times are left out. -/
structure Ticket where
  ready : ℕ
  cost : JobResourceCost
  sequence : ℕ
  deriving DecidableEq

def WaitingJob.ticket (job : WaitingJob) : Ticket := ⟨job.ready, job.cost, job.sequence⟩

variable (waiting : List WaitingJob)

def tickets : List Ticket := waiting.map WaitingJob.ticket

@[simp] theorem tickets_bypassed (index : ℕ) :
    tickets (bypassed waiting index) = tickets waiting := by
  unfold bypassed
  split
  · cases waiting <;> rfl
  · rfl

variable {job : WaitingJob} {index : ℕ} {waiting}

theorem getElem?_tickets (h : waiting[index]? = some job) :
    (tickets waiting)[index]? = some job.ticket := by
  rw [tickets, List.getElem?_map, h]
  rfl

theorem tickets_eraseIdx (waiting : List WaitingJob) (index : ℕ) :
    tickets (waiting.eraseIdx index) = (tickets waiting).eraseIdx index :=
  (List.eraseIdx_map _ _ _).symm

/-! ## Replies -/

/-- A call that no reply was ever sent to, and whose sender is in the queue. -/
@[mk_iff unanswered_iff]
structure Channel.Unanswered (channel : Channel) : Prop where
  replies : channel.replies = []
  phase : channel.phase = .awaiting ∨ channel.phase = .unregistering ∨ channel.phase = .finished

/-- The replies a call was sent, against where it is. -/
def Channel.WellFormed (channel : Channel) : Prop :=
  match channel.phase with
  | .awaiting | .orphaned => channel.replies = []
  | .delivered | .holding | .abandoning => channel.replies = [.permit]
  | .refused reason | .failed reason => channel.replies = [.error reason]
  | .unregistering | .finished => channel.replies.length ≤ 1

variable {channel : Channel}

theorem Channel.WellFormed.length_le (h : channel.WellFormed) : channel.replies.length ≤ 1 := by
  unfold WellFormed at h
  split at h <;> simp_all

/-- The channel after a send, whether or not the receiver was there. -/
def Channel.answered (channel : Channel) (reply : Reply) : Channel :=
  if channel.phase = .awaiting then
    { channel with phase := reply.phase, replies := channel.replies ++ [reply] }
  else channel

theorem Channel.answered_phase_ne (channel : Channel) (reply : Reply) :
    (channel.answered reply).phase ≠ .awaiting := by
  unfold answered
  split
  · cases reply <;> exact Phase.noConfusion
  next h => exact h

theorem Channel.WellFormed.answered (h : channel.WellFormed) (reply : Reply) :
    (channel.answered reply).WellFormed := by
  unfold Channel.answered
  split
  next hphase =>
    have hreplies : channel.replies = [] := by simpa [WellFormed, hphase] using h
    cases reply <;> simp [WellFormed, Reply.phase, hreplies]
  next => exact h

theorem Channel.WellFormed.dropSender (h : channel.WellFormed) : channel.dropSender.WellFormed := by
  unfold Channel.dropSender
  split
  next hphase => simpa [WellFormed, hphase] using h
  next => exact h

theorem Channel.dropSender_phase_ne (channel : Channel) : channel.dropSender.phase ≠ .awaiting := by
  unfold dropSender
  split
  · exact Phase.noConfusion
  next h => exact h

variable {channels : List Channel} {ready : ℕ}

section Sent

variable (h : channels[ready]? = some channel)
include h

/-- A send that went through. -/
theorem send_of_awaiting (hphase : channel.phase = .awaiting) (reply : Reply) :
    send channels ready reply = some (channels.set ready (channel.answered reply)) := by
  rw [send, h]
  simp [Channel.answered, hphase]

/-- A send to a receiver that is gone. -/
theorem send_of_not_awaiting (hphase : channel.phase ≠ .awaiting) (reply : Reply) :
    send channels ready reply = none := by
  rw [send, h]
  simp [hphase]

theorem send_getD (reply : Reply) :
    (send channels ready reply).getD channels = channels.set ready (channel.answered reply) := by
  by_cases hphase : channel.phase = .awaiting
  · rw [send_of_awaiting h hphase, Option.getD_some]
  · rw [send_of_not_awaiting h hphase, Option.getD_none, Channel.answered, if_neg hphase,
      set_self h]

end Sent

/-- A step of a call that leaves the queue alone. -/
structure Channel.Advances (channel next : Channel) : Prop where
  cost : next.cost = channel.cost
  sequence : next.sequence = channel.sequence
  unanswered : channel.Unanswered → next.Unanswered
  awaiting : next.phase = .awaiting → channel.phase = .awaiting
  wellFormed : channel.WellFormed → next.WellFormed

theorem Channel.advances_take (channel : Channel) : channel.Advances channel.take := by
  obtain ⟨cost, sequence, phase, replies⟩ := channel
  cases phase <;> constructor <;> simp_all [Channel.take, WellFormed, unanswered_iff]

theorem Channel.advances_cancel (channel : Channel) : channel.Advances channel.cancel := by
  obtain ⟨cost, sequence, phase, replies⟩ := channel
  cases phase <;> constructor <;> simp_all [Channel.cancel, WellFormed, unanswered_iff]

theorem Channel.advances_afterDrop {phase : Phase} (h : channel.phase.afterDrop = some phase) :
    channel.Advances { channel with phase := phase } := by
  obtain ⟨cost, sequence, old, replies⟩ := channel
  cases old <;> cases h <;> constructor <;> simp_all [WellFormed, unanswered_iff]

theorem Channel.advances_finished (h : channel.phase = .unregistering) :
    channel.Advances { channel with phase := .finished } := by
  constructor <;> simp_all [WellFormed, unanswered_iff]

/-! ## Soundness -/

/-- The queue and the channels match. -/
structure Sound (queue : List Ticket) (channels : List Channel) : Prop where
  nodup : (queue.map Ticket.ready).Nodup
  pending : ∀ t ∈ queue, ∃ channel, channels[t.ready]? = some channel ∧
    channel.cost = t.cost ∧ channel.sequence = t.sequence ∧ channel.Unanswered
  waits : ∀ i channel, channels[i]? = some channel → channel.phase = .awaiting →
    ∃ t ∈ queue, t.ready = i
  wellFormed : ∀ channel ∈ channels, channel.WellFormed

variable {queue : List Ticket} {next : Channel} {i : ℕ} {f : Channel → Channel}

namespace Sound

theorem initially : Sound [] [] :=
  ⟨List.nodup_nil, by simp, by simp, by simp⟩

variable (h : Sound queue channels)
include h

variable (cost : JobResourceCost) (sequence : ℕ)

/-- A call joins the queue. -/
theorem join :
    Sound (queue ++ [⟨channels.length, cost, sequence⟩])
      (channels ++ [⟨cost, sequence, .awaiting, []⟩]) := by
  have hlt : ∀ t ∈ queue, t.ready < channels.length := fun t ht => by
    obtain ⟨_, hc, -⟩ := h.pending t ht
    exact (List.getElem?_eq_some_iff.mp hc).1
  refine ⟨?_, ?_, ?_, ?_⟩
  · rw [List.map_append, List.map_singleton, List.nodup_append]
    refine ⟨h.nodup, by simp, ?_⟩
    intro i hi j hj
    obtain ⟨t, ht, rfl⟩ := List.mem_map.mp hi
    obtain rfl := List.mem_singleton.mp hj
    exact Nat.ne_of_lt (hlt t ht)
  · refine List.forall_mem_append.mpr ⟨fun t ht => ?_, List.forall_mem_singleton.mpr ?_⟩
    · obtain ⟨c, hc, hrest⟩ := h.pending t ht
      exact ⟨c, getElem?_concat_eq_some.mpr (.inl hc), hrest⟩
    · exact ⟨_, List.getElem?_concat_length, rfl, rfl, rfl, Or.inl rfl⟩
  · intro i c hc hphase
    rcases getElem?_concat_eq_some.mp hc with hc | ⟨rfl, -⟩
    · obtain ⟨t, ht, rfl⟩ := h.waits i c hc hphase
      exact ⟨t, List.mem_append_left _ ht, rfl⟩
    · exact ⟨_, List.mem_append_right _ (List.mem_singleton.mpr rfl), rfl⟩
  · exact List.forall_mem_append.mpr ⟨h.wellFormed, List.forall_mem_singleton.mpr rfl⟩

/-- A call is refused before it joins. -/
theorem refuse (reason : SchedulerAcquireError) :
    Sound queue (channels ++ [⟨cost, sequence, .failed reason, [.error reason]⟩]) := by
  refine ⟨h.nodup, ?_, ?_, ?_⟩
  · intro t ht
    obtain ⟨c, hc, hrest⟩ := h.pending t ht
    exact ⟨c, getElem?_concat_eq_some.mpr (.inl hc), hrest⟩
  · intro i c hc hphase
    rcases getElem?_concat_eq_some.mp hc with hc | ⟨-, rfl⟩
    · exact h.waits i c hc hphase
    · cases hphase
  · exact List.forall_mem_append.mpr ⟨h.wellFormed, List.forall_mem_singleton.mpr rfl⟩

/-- An entry leaves the queue, and its channel no longer waits. -/
theorem leave {t : Ticket} (ht : queue[index]? = some t)
    (hc : channels[t.ready]? = some channel) (hphase : next.phase ≠ .awaiting)
    (hwell : next.WellFormed) : Sound (queue.eraseIdx index) (channels.set t.ready next) := by
  have hmem : ∀ s, s ∈ queue.eraseIdx index ↔ s ∈ queue ∧ s.ready ≠ t.ready := fun s =>
    mem_eraseIdx_of_nodup h.nodup ht
  refine ⟨?_, ?_, ?_, ?_⟩
  · rw [← List.eraseIdx_map]
    exact h.nodup.sublist (List.eraseIdx_sublist _ _)
  · intro s hs
    obtain ⟨hs, hne⟩ := (hmem s).mp hs
    obtain ⟨c, hc', hrest⟩ := h.pending s hs
    exact ⟨c, by rw [List.getElem?_set_ne (Ne.symm hne), hc'], hrest⟩
  · intro i c hi hwait
    by_cases hit : i = t.ready
    · subst hit
      rw [getElem?_set_self_of hc] at hi
      exact absurd ((Option.some.inj hi) ▸ hwait) hphase
    · rw [List.getElem?_set_ne (Ne.symm hit)] at hi
      obtain ⟨s, hs, rfl⟩ := h.waits i c hi hwait
      exact ⟨s, (hmem s).mpr ⟨hs, hit⟩, rfl⟩
  · intro c hmem
    rcases List.mem_or_eq_of_mem_set hmem with hmem | rfl
    · exact h.wellFormed c hmem
    · exact hwell

/-- A channel advances outside the queue. -/
theorem advance (hc : channels[i]? = some channel)
    (hadvances : channel.Advances next) : Sound queue (channels.set i next) := by
  refine ⟨h.nodup, ?_, ?_, ?_⟩
  · intro t ht
    obtain ⟨c, hc', hcost, hsequence, hun⟩ := h.pending t ht
    by_cases hit : t.ready = i
    · rw [hit] at hc' ⊢
      obtain rfl : channel = c := Option.some.inj (hc.symm.trans hc')
      exact ⟨next, getElem?_set_self_of hc next, hadvances.cost.trans hcost,
        hadvances.sequence.trans hsequence, hadvances.unanswered hun⟩
    · exact ⟨c, by rw [List.getElem?_set_ne (Ne.symm hit), hc'], hcost, hsequence, hun⟩
  · intro j c hj hwait
    by_cases hij : i = j
    · subst hij
      rw [getElem?_set_self_of hc] at hj
      obtain rfl := Option.some.inj hj
      exact h.waits i channel hc (hadvances.awaiting hwait)
    · rw [List.getElem?_set_ne hij] at hj
      exact h.waits j c hj hwait
  · intro c hmem
    rcases List.mem_or_eq_of_mem_set hmem with hmem | rfl
    · exact h.wellFormed c hmem
    · exact hadvances.wellFormed (h.wellFormed channel (List.mem_of_getElem? hc))

theorem modify (i : ℕ)
    (hf : ∀ channel, Channel.Advances channel (f channel)) : Sound queue (channels.modify i f) := by
  cases hc : channels[i]? with
  | none => rwa [modify_eq_self hc]
  | some channel =>
    rw [modify_eq_set hc]
    exact h.advance hc (hf channel)

end Sound

/-! ## Every move keeps the queue sound -/

/-- The queue and the channels of a system match. -/
def System.Sound (sys : System) : Prop := Scheduler.Sound (tickets sys.state.waiting) sys.channels

variable {shared : Shared} {s t : System}

/-- The channel behind a queued job. -/
theorem System.Sound.behind (h : s.Sound)
    (hjob : (tickets s.state.waiting)[index]? = some job.ticket) :
    ∃ channel, s.channels[job.ready]? = some channel ∧ channel.cost = job.cost ∧
      channel.sequence = job.sequence ∧ channel.Unanswered :=
  h.pending job.ticket (List.mem_of_getElem? hjob)

variable {kept rest : List WaitingJob}

theorem tickets_refuse (h : waiting = kept ++ job :: rest) :
    (tickets waiting)[kept.length]? = some job.ticket ∧
      tickets (kept ++ rest) = (tickets waiting).eraseIdx kept.length := by
  subst h
  refine ⟨getElem?_tickets (by simp), ?_⟩
  rw [← tickets_eraseIdx, eraseIdx_length_append]

theorem System.Sound.refuse (h : s.Sound)
    (hwaiting : s.state.waiting = kept ++ job :: rest) (reason : SchedulerAcquireError) :
    (refuse s (kept ++ rest) job reason).Sound := by
  obtain ⟨hjob, hrest⟩ := tickets_refuse hwaiting
  obtain ⟨channel, hc, -⟩ := h.behind hjob
  change Scheduler.Sound (tickets (kept ++ rest)) ((send _ _ _).getD _)
  rw [hrest, send_getD hc]
  exact h.leave hjob hc (channel.answered_phase_ne _)
    ((h.wellFormed channel (List.mem_of_getElem? hc)).answered _)

theorem grant_channels (hc : s.channels[job.ready]? = some channel) (state : SchedulerState) :
    (grant s state job).channels = s.channels.set job.ready (channel.answered .permit) := by
  unfold grant
  by_cases hphase : channel.phase = .awaiting
  · rw [send_of_awaiting hc hphase]
  · rw [send_of_not_awaiting hc hphase, Channel.answered, if_neg hphase, set_self hc]

theorem grant_waiting (state : SchedulerState) (job : WaitingJob) :
    (grant s state job).state.waiting = state.waiting := by
  unfold grant
  split <;> rfl

theorem getElem?_tickets_bypassed (h : (bypassed waiting index)[index]? = some job) :
    (tickets waiting)[index]? = some job.ticket := by
  rw [← tickets_bypassed waiting index]
  exact getElem?_tickets h

/-- **Every move keeps the queue sound.** -/
theorem Move.sound (hmove : Move shared s t) (h : s.Sound) : t.Sound := by
  cases hmove with
  | retune => exact h
  | reject hwaiting => exact h.refuse hwaiting _
  | @grant now index job hroom hindex hjob =>
    have hticket := getElem?_tickets_bypassed hjob
    obtain ⟨channel, hc, -⟩ := h.behind hticket
    rw [System.Sound, grant_waiting, grant_channels hc, tickets_eraseIdx, tickets_bypassed]
    exact h.leave hticket hc (channel.answered_phase_ne _)
      ((h.wellFormed channel (List.mem_of_getElem? hc)).answered _)
  | @drain job rest hwaiting =>
    exact h.refuse (show s.state.waiting = [] ++ job :: rest from hwaiting) .closed
  | take ready => exact h.modify ready Channel.advances_take
  | cancel ready => exact h.modify ready Channel.advances_cancel
  | drop hc hphase => exact h.advance hc (Channel.advances_afterDrop hphase)
  | forget hc hphase hnone => exact h.advance hc (Channel.advances_finished hphase)
  | @remove ready index channel job hc hphase hjob hsequence =>
    have hdone := h.advance hc (Channel.advances_finished hphase)
    have hticket := getElem?_tickets hjob
    obtain ⟨owner, howner, -⟩ := hdone.pending _ (List.mem_of_getElem? hticket)
    change Scheduler.Sound (tickets (s.state.waiting.eraseIdx index))
      ((s.channels.set ready { channel with phase := .finished }).modify job.ticket.ready
        Channel.dropSender)
    rw [tickets_eraseIdx, modify_eq_set howner]
    exact hdone.leave hticket howner owner.dropSender_phase_ne
      ((hdone.wellFormed owner (List.mem_of_getElem? howner)).dropSender)

theorem System.Sound.enqueue (h : s.Sound) (now : ℕ) (cost : JobResourceCost) :
    (s.enqueue now cost).Sound := by
  have := h.join cost s.state.nextSequence
  rwa [System.Sound, System.enqueue, tickets, List.map_append]

theorem System.Sound.refuseCall (h : s.Sound) (cost : JobResourceCost)
    (reason : SchedulerAcquireError) : (s.refuseCall cost reason).Sound :=
  Scheduler.Sound.refuse h cost _ reason

/-! ## Sequence numbers

The counter wraps at `2 ^ 64`; up to there the queue stands in the order of its sequence numbers,
and a registration finds the entry of its own call. -/

/-- Moves only take entries out of the queue. -/
theorem Move.tickets_sublist (hmove : Move shared s t) :
    (tickets t.state.waiting).Sublist (tickets s.state.waiting) := by
  have herase : ∀ index, (tickets (s.state.waiting.eraseIdx index)).Sublist
      (tickets s.state.waiting) := fun index =>
    (List.eraseIdx_sublist _ _).map _
  cases hmove with
  | @reject kept rest job hwaiting =>
    change (tickets (kept ++ rest)).Sublist _
    rw [(tickets_refuse hwaiting).2]
    exact List.eraseIdx_sublist _ _
  | @grant now index job hroom hindex hjob =>
    rw [grant_waiting, tickets_eraseIdx, tickets_bypassed]
    exact List.eraseIdx_sublist _ _
  | @drain job rest hwaiting =>
    rw [hwaiting]
    exact List.sublist_cons_self _ _
  | remove => exact herase _
  | retune | take | cancel | drop | forget => exact List.Sublist.refl _

theorem Move.nextSequence_eq (hmove : Move shared s t) :
    t.state.nextSequence = s.state.nextSequence := by
  cases hmove with
  | grant =>
    unfold Scheduler.grant
    split <;> rfl
  | _ => rfl

theorem length_send_getD (channels : List Channel) (ready : ℕ) (reply : Reply) :
    ((send channels ready reply).getD channels).length = channels.length := by
  unfold send
  split
  · split <;> simp
  · rfl

theorem Move.length_channels (hmove : Move shared s t) : t.channels.length = s.channels.length := by
  cases hmove with
  | reject | drain => exact length_send_getD _ _ _
  | @grant now index job hroom hindex hjob =>
    have h := length_send_getD s.channels job.ready .permit
    unfold Scheduler.grant
    split
    next channels hsend => rwa [hsend] at h
    next => rfl
  | _ => simp [System.setChannel, System.removeWaiting]

/-- The queue in order, below a counter that has not wrapped. -/
structure Ordered (sys : System) : Prop where
  increasing : (tickets sys.state.waiting).Pairwise fun a b => a.sequence < b.sequence
  below : ∀ t ∈ tickets sys.state.waiting, t.sequence < sys.state.nextSequence
  calls : sys.state.nextSequence ≤ sys.channels.length

theorem Ordered.nodup_sequence (h : Ordered s) :
    ((tickets s.state.waiting).map Ticket.sequence).Nodup :=
  List.pairwise_map.mpr (h.increasing.imp Nat.ne_of_lt)

/-- An acquire that does not make the counter wrap. -/
def CountsOn (sys : System) (turn : Env × Action) : Prop :=
  ∀ cost, turn.2 = .acquire cost → sys.channels.length + 1 < 2 ^ 64

theorem Move.ordered (hmove : Move shared s t) (h : Ordered s) : Ordered t := by
  refine ⟨h.increasing.sublist hmove.tickets_sublist, ?_, ?_⟩
  · rw [hmove.nextSequence_eq]
    exact fun ticket ht => h.below ticket (hmove.tickets_sublist.subset ht)
  · rw [hmove.nextSequence_eq, hmove.length_channels]
    exact h.calls

theorem Ordered.enqueue (h : Ordered s) (now : ℕ) (cost : JobResourceCost)
    (hroom : s.channels.length + 1 < 2 ^ 64) : Ordered (s.enqueue now cost) := by
  have hnext : (s.enqueue now cost).state.nextSequence = s.state.nextSequence + 1 :=
    Nat.mod_eq_of_lt (by have := h.calls; omega)
  have hqueue : tickets (s.enqueue now cost).state.waiting
      = tickets s.state.waiting ++ [⟨s.channels.length, cost, s.state.nextSequence⟩] := by
    simp [System.enqueue, tickets, WaitingJob.ticket]
  refine ⟨?_, ?_, ?_⟩
  · rw [hqueue, List.pairwise_append]
    exact ⟨h.increasing, List.pairwise_singleton _ _,
      fun a ha => List.forall_mem_singleton.mpr (h.below a ha)⟩
  · rw [hqueue, hnext]
    exact List.forall_mem_append.mpr ⟨fun ticket ht => Nat.lt_succ_of_lt (h.below ticket ht),
      List.forall_mem_singleton.mpr (Nat.lt_succ_self _)⟩
  · rw [hnext]
    simpa [System.enqueue] using h.calls

theorem Ordered.refuseCall (h : Ordered s) (cost : JobResourceCost)
    (reason : SchedulerAcquireError) : Ordered (s.refuseCall cost reason) := by
  refine ⟨h.increasing, h.below, ?_⟩
  simpa [System.refuseCall] using Nat.le_succ_of_le h.calls

/-! ## Every entry has a caller -/

/-- The call behind every entry is still waiting, or on its way out through its registration. -/
def Attended (queue : List Ticket) (channels : List Channel) : Prop :=
  ∀ t ∈ queue, ∃ channel, channels[t.ready]? = some channel ∧ channel.phase ≠ .finished

theorem Attended.set {rest : List Ticket} (h : Attended queue channels) (hsubset : rest ⊆ queue)
    (hnext : ∀ t ∈ rest, t.ready = i → next.phase ≠ .finished) :
    Attended rest (channels.set i next) := by
  intro t ht
  obtain ⟨c, hc, hphase⟩ := h t (hsubset ht)
  by_cases hit : t.ready = i
  · subst hit
    exact ⟨next, getElem?_set_self_of hc next, hnext t ht rfl⟩
  · exact ⟨c, by rw [List.getElem?_set_ne (Ne.symm hit), hc], hphase⟩

theorem Attended.modify (h : Attended queue channels) (i : ℕ)
    (hf : ∀ c, (f c).phase = .finished → c.phase = .finished) :
    Attended queue (channels.modify i f) := by
  cases hi : channels[i]? with
  | none => rwa [modify_eq_self hi]
  | some channel =>
    rw [modify_eq_set hi]
    refine h.set (fun _ ht => ht) fun t ht hit hfinished => ?_
    obtain ⟨c, hc, hphase⟩ := h t ht
    rw [hit, hi] at hc
    obtain rfl := Option.some.inj hc
    exact hphase (hf channel hfinished)

/-- An entry that leaves does not answer for the ones that stay. -/
theorem Attended.leave (h : Attended queue channels) (hnodup : (queue.map Ticket.ready).Nodup)
    {ticket : Ticket} (hticket : queue[index]? = some ticket) (next : Channel) :
    Attended (queue.eraseIdx index) (channels.set ticket.ready next) :=
  h.set (List.eraseIdx_sublist _ _).subset fun _ ht hit =>
    absurd hit ((mem_eraseIdx_of_nodup hnodup hticket).mp ht).2

variable (channel)

/-- Neither the caller nor the sender finishes the call of a registration. -/
theorem Channel.finished_of {next : Channel}
    (hnext : next = channel.take ∨ next = channel.cancel ∨ next = channel.dropSender)
    (h : next.phase = .finished) : channel.phase = .finished := by
  obtain ⟨cost, sequence, phase, replies⟩ := channel
  rcases hnext with rfl | rfl | rfl <;> cases phase <;> first | rfl | cases h

variable {channel}

theorem System.Sound.attended_refuse (hsound : s.Sound)
    (h : Attended (tickets s.state.waiting) s.channels)
    (hwaiting : s.state.waiting = kept ++ job :: rest) (reason : SchedulerAcquireError) :
    Attended (tickets (kept ++ rest)) (Scheduler.refuse s (kept ++ rest) job reason).channels := by
  obtain ⟨hjob, hrest⟩ := tickets_refuse hwaiting
  obtain ⟨channel, hc, -⟩ := hsound.behind hjob
  change Attended _ ((send _ _ _).getD _)
  rw [hrest, send_getD hc]
  exact h.leave hsound.nodup hjob _

/-- **A move leaves no entry without a caller**, while sequence numbers tell the entries apart. -/
theorem Move.attended (hmove : Move shared s t) (hsound : s.Sound) (hordered : Ordered s)
    (h : Attended (tickets s.state.waiting) s.channels) :
    Attended (tickets t.state.waiting) t.channels := by
  cases hmove with
  | retune => exact h
  | reject hwaiting => exact hsound.attended_refuse h hwaiting _
  | @grant now index job hroom hindex hjob =>
    have hticket := getElem?_tickets_bypassed hjob
    obtain ⟨channel, hc, -⟩ := hsound.behind hticket
    rw [grant_waiting, grant_channels hc, tickets_eraseIdx, tickets_bypassed]
    exact h.leave hsound.nodup hticket _
  | @drain job rest hwaiting =>
    exact hsound.attended_refuse h (show s.state.waiting = [] ++ job :: rest from hwaiting) _
  | take ready => exact h.modify ready fun c => c.finished_of (.inl rfl)
  | cancel ready => exact h.modify ready fun c => c.finished_of (.inr (.inl rfl))
  | @drop ready channel phase hc hphase =>
    refine h.set (fun _ ht => ht) fun ticket ht hit => ?_
    obtain ⟨c, hc', -, -, hun⟩ := hsound.pending ticket ht
    rw [hit, hc] at hc'
    obtain rfl := Option.some.inj hc'
    rcases hun.phase with hp | hp | hp <;> rw [hp] at hphase <;> cases hphase
  | @forget ready channel hc hphase hnone =>
    refine h.set (fun _ ht => ht) fun ticket ht hit => ?_
    obtain ⟨c, hc', -, hsequence, -⟩ := hsound.pending ticket ht
    rw [hit, hc] at hc'
    obtain rfl := Option.some.inj hc'
    obtain ⟨job, hjob, rfl⟩ := List.mem_map.mp ht
    exact absurd hsequence.symm (hnone job hjob)
  | @remove ready index channel job hc hphase hjob hsequence =>
    have hticket := getElem?_tickets hjob
    have hother : ∀ ticket ∈ (tickets s.state.waiting).eraseIdx index,
        ticket.sequence ≠ job.sequence := fun ticket ht =>
      ((mem_eraseIdx_of_nodup hordered.nodup_sequence hticket).mp ht).2
    have hdone : Attended ((tickets s.state.waiting).eraseIdx index)
        (s.channels.set ready { channel with phase := .finished }) := by
      refine h.set (List.eraseIdx_sublist _ _).subset fun ticket ht hit => ?_
      obtain ⟨c, hc', -, hsame, -⟩ := hsound.pending ticket ((List.eraseIdx_sublist _ _).subset ht)
      rw [hit, hc] at hc'
      obtain rfl := Option.some.inj hc'
      exact absurd (hsame.symm.trans hsequence.symm) (hother ticket ht)
    change Attended (tickets (s.state.waiting.eraseIdx index)) (List.modify _ job.ready _)
    rw [tickets_eraseIdx]
    exact hdone.modify job.ready fun c => c.finished_of (.inr (.inr rfl))

/-- The queue in order and every entry with its caller. -/
structure InOrder (sys : System) : Prop where
  sound : sys.Sound
  ordered : Ordered sys
  attended : Attended (tickets sys.state.waiting) sys.channels

theorem InOrder.initially (capacity : SchedulerCapacity) : InOrder (initial capacity) :=
  ⟨Sound.initially, ⟨List.Pairwise.nil, by simp [initial, tickets], Nat.le_refl 0⟩,
    by simp [Attended, initial, tickets]⟩

theorem Attended.append
    (h : Attended queue channels) (channel : Channel) : Attended queue (channels ++ [channel]) :=
  fun t ht => by
    obtain ⟨c, hc, hphase⟩ := h t ht
    exact ⟨c, getElem?_concat_eq_some.mpr (.inl hc), hphase⟩

theorem InOrder.enqueue (h : InOrder s) (now : ℕ) (cost : JobResourceCost)
    (hroom : s.channels.length + 1 < 2 ^ 64) : InOrder (s.enqueue now cost) := by
  refine ⟨h.sound.enqueue now cost, h.ordered.enqueue now cost hroom, ?_⟩
  intro t ht
  simp only [System.enqueue, tickets, List.map_append, List.map_singleton, List.mem_append,
    List.mem_singleton] at ht
  rcases ht with ht | rfl
  · exact h.attended.append _ t ht
  · exact ⟨_, List.getElem?_concat_length, Phase.noConfusion⟩

/-- **While fewer than `2 ^ 64` calls are made, the queue is in order at every moment.** -/
theorem inOrder_turn (h : InOrder s) {turn : Env × Action} (hcounts : CountsOn s turn) :
    InOrder (enter shared turn.1 s turn.2).system ∧ InOrder (step shared s turn) :=
  turn_invariant h (fun cost haction _ => h.enqueue turn.1.now cost (hcounts cost haction))
    (fun cost reason _ => ⟨h.sound.refuseCall cost reason, h.ordered.refuseCall cost reason,
      h.attended.append _⟩)
    (fun _ _ hmove hinv => ⟨hmove.sound hinv.sound, hmove.ordered hinv.ordered,
      hmove.attended hinv.sound hinv.ordered hinv.attended⟩)

/-! ## The number of calls -/

/-- The calls of `acquire` in a run. -/
def acquires (turns : List (Env × Action)) : ℕ := turns.countP fun turn => turn.2.isAcquire

theorem Moves.length_channels (h : Moves shared s t) : t.channels.length = s.channels.length := by
  induction h with
  | refl => rfl
  | tail _ hmove ih => rw [hmove.length_channels, ih]

theorem length_channels_step (sys : System) (turn : Env × Action) :
    (step shared sys turn).channels.length
      = sys.channels.length + if turn.2.isAcquire then 1 else 0 := by
  rw [(step_moves shared sys turn).length_channels]
  rcases enter_moves shared turn.1 sys turn.2 with
    ⟨cost, haction, ⟨-, heq⟩ | ⟨reason, heq⟩⟩ | ⟨hother, hmoves⟩
  · rw [heq, haction]
    simp [Section.system, System.enqueue, Action.isAcquire]
  · rw [heq, haction]
    simp [Section.system, System.refuseCall, Action.isAcquire]
  · rw [hmoves.length_channels, hother]
    rfl

/-- Fewer than `2 ^ 64` calls never make the counter wrap. -/
theorem countsOn_of_acquires_lt : ∀ (turns : List (Env × Action)) {sys : System},
    sys.channels.length + acquires turns < 2 ^ 64 → RunsWithin (step shared) CountsOn sys turns
  | [], _, _ => trivial
  | turn :: turns, sys, h => by
    rw [acquires, List.countP_cons, ← acquires] at h
    refine ⟨fun cost haction => ?_, countsOn_of_acquires_lt turns ?_⟩
    · rw [haction] at h
      simp only [Action.isAcquire, if_true] at h
      omega
    · rw [length_channels_step]
      omega

theorem inOrder_after {capacity : SchedulerCapacity} {turns : List (Env × Action)}
    (h : acquires turns < 2 ^ 64) : InOrder (after shared capacity turns) :=
  @after_invariant_within shared InOrder capacity (InOrder.initially capacity) CountsOn
    (fun _ _ hinv hcounts => (inOrder_turn hinv hcounts).2) turns
    (countsOn_of_acquires_lt turns (by simpa [initial] using h))

end DatabasesEverywhere.Scheduler
