import DatabasesEverywhere.Watcher.System

/-!
# Watcher/WakeUps — how a consumer hears of changes

A callback marks the queue under its lock and signals when it has let go of it: it counts the
change and then wakes whoever waits.  A consumer drains the queue, takes the count with it and
waits until the count is another one:

    callback   mark ▸ count ▸ notify
    consumer   drain ▸ enable ▸ check ▸ (asleep ▸ wake ▸ enable …) ▸ drain

No mark is lost between two drains, and whoever sleeps over a marked queue is about to be woken.
-/

open Foundations

namespace DatabasesEverywhere.Watcher

/-! ## The queue -/

namespace Shared

variable (c : Counting) (limits : WatcherLimits)

/-- `handle_callback`, where `none` is an error of the backend. -/
def handleCallback (now : ℕ) (result : Option Event) (shared : Shared) : Shared :=
  match result with
  | none => degradeAll c limits now { shared with backendRebuildRequested := true }
  | some event => shared.handleEvent c limits now event

/-- The targets that a callback marks, or `none` for all of them. -/
def marks (now : ℕ) (result : Option Event) (shared : Shared) : Option (List String) :=
  match result with
  | none => none
  | some event =>
    if event.needRescan then none
    else if event.kind = .access || event.kind = .other then some []
    else if event.paths.isEmpty then none
    else some (event.paths.foldl (handlePath c limits event.kind now) (shared, [])).2

variable (shared : Shared)

/-- The next drain names the target, or asks for all of them. -/
def Pending (id : String) : Prop :=
  shared.globalChangePending = true ∨ id ∈ shared.changedTargets

/-- The next drain has something to give. -/
def Undrained : Prop :=
  shared.globalChangePending = true ∨ shared.changedTargets ≠ ∅

instance : Decidable shared.Undrained :=
  inferInstanceAs (Decidable (_ ∨ _))

theorem drainChanges_of_pending {shared : Shared} {id : String} (h : shared.Pending id) :
    shared.drainChanges.2.all (id ∈ ·) := by
  by_cases hglobal : shared.globalChangePending = true
  · simp [drainChanges, hglobal]
  · simpa [drainChanges, hglobal, Pending] using h

/-- What a section that marks some targets does to the queue. -/
structure Queues (ids : Option (List String)) (shared after : Shared) : Prop where
  bounded : shared.changedTargets.card ≤ limits.maximumPendingTargets →
    after.changedTargets.card ≤ limits.maximumPendingTargets
  kept : ∀ id, shared.Pending id → after.Pending id
  marked : ∀ id, ids.all (id ∈ ·) → after.Pending id
  quiet : ids = some [] → after.Undrained → shared.Undrained

theorem enqueueGlobalChange_queues :
    Queues limits none shared (shared.enqueueGlobalChange c) where
  bounded _ := Nat.zero_le _
  kept _ _ := .inl rfl
  marked _ _ := .inl rfl
  quiet h := by simp at h

theorem enqueueTargetChange_queues (id : String) :
    Queues limits (some [id]) shared (shared.enqueueTargetChange c limits id) := by
  simp only [enqueueTargetChange]
  split_ifs with hglobal hfull
  · exact ⟨fun h => h, fun _ h => h, fun _ _ => .inl hglobal, by simp⟩
  · exact ⟨fun _ => Nat.zero_le _, fun _ _ => .inl rfl, fun _ _ => .inl rfl, by simp⟩
  · exact ⟨fun _ => Nat.le_of_not_lt hfull, fun _ h => h.imp_right Finset.mem_insert_of_mem,
      fun other h => .inr (by simp_all), by simp⟩

theorem enqueueTargetChanges_queues : ∀ (ids : List String) (shared : Shared),
    Queues limits (some ids) shared
      (ids.foldl (fun shared id => shared.enqueueTargetChange c limits id) shared)
  | [], _ => ⟨fun h => h, fun _ h => h, by simp, fun _ h => h⟩
  | id :: ids, shared => by
    have hfirst := enqueueTargetChange_queues c limits shared id
    have hrest := enqueueTargetChanges_queues ids (shared.enqueueTargetChange c limits id)
    refine ⟨hrest.bounded ∘ hfirst.bounded, fun other h => hrest.kept other (hfirst.kept other h),
      fun other h => ?_, by simp⟩
    rcases List.mem_cons.mp (of_decide_eq_true h) with rfl | hmem
    · exact hrest.kept other (hfirst.marked other (by simp))
    · exact hrest.marked other (by simpa using hmem)

/-- Paths are marked at their targets; the queue is only changed afterwards. -/
theorem handlePaths_queue (kind : EventKind) (now : ℕ) (paths : List EventPath) :
    ∀ step : Shared × List String,
      let after := (paths.foldl (handlePath c limits kind now) step).1
      after.globalChangePending = step.1.globalChangePending ∧
        after.changedTargets = step.1.changedTargets := by
  induction paths with
  | nil => exact fun _ => ⟨rfl, rfl⟩
  | cons path paths ih =>
    intro step
    have hpath : (handlePath c limits kind now step path).1.globalChangePending =
          step.1.globalChangePending ∧
        (handlePath c limits kind now step path).1.changedTargets = step.1.changedTargets := by
      rw [handlePath]
      repeat' split
      all_goals exact ⟨rfl, rfl⟩
    obtain ⟨hglobal, hchanged⟩ := ih (handlePath c limits kind now step path)
    exact ⟨hglobal.trans hpath.1, hchanged.trans hpath.2⟩

theorem Queues.of_queue {ids : Option (List String)} {shared shared' after : Shared}
    (h : Queues limits ids shared' after)
    (hglobal : shared'.globalChangePending = shared.globalChangePending)
    (hchanged : shared'.changedTargets = shared.changedTargets) :
    Queues limits ids shared after := by
  obtain ⟨hbounded, hkept, hmarked, hquiet⟩ := h
  simp only [Pending, Undrained, hglobal, hchanged] at hbounded hkept hmarked hquiet
  exact ⟨hbounded, hkept, hmarked, hquiet⟩

/-- **A callback queues what it marks.** -/
theorem handleCallback_queues (now : ℕ) (result : Option Event) :
    Queues limits (shared.marks c limits now result) shared
      (shared.handleCallback c limits now result) := by
  match result with
  | none => exact (enqueueGlobalChange_queues c limits _).of_queue limits rfl rfl
  | some event =>
    simp only [marks, handleCallback, handleEvent]
    split_ifs
    · exact enqueueGlobalChange_queues c limits shared
    · exact ⟨fun h => h, fun _ h => h, by simp, fun _ h => h⟩
    · exact enqueueGlobalChange_queues c limits shared
    · obtain ⟨hglobal, hchanged⟩ := handlePaths_queue c limits event.kind now event.paths (shared, [])
      exact (enqueueTargetChanges_queues c limits _ _).of_queue limits hglobal hchanged

end Shared

/-! ## Callbacks and a consumer -/

/-- Where the consumer is; `observed` is the sequence of its last drain. -/
inductive Consumer
  | running
  | waiting (observed : ℕ)
  | enabled (observed : ℕ) (notified : Bool)
  | asleep (observed : ℕ) (notified : Bool)
  deriving DecidableEq

namespace Consumer

/-- The steps of `changed_after`. -/
def enable : Consumer → Consumer
  | waiting observed => enabled observed false
  | consumer => consumer

def check (current : ℕ) : Consumer → Consumer
  | enabled observed notified => if current ≠ observed then running else asleep observed notified
  | consumer => consumer

def wake : Consumer → Consumer
  | asleep observed notified => if notified then waiting observed else asleep observed notified
  | consumer => consumer

/-- `notify_waiters` keeps nothing for a wait that is not enabled. -/
def notify : Consumer → Consumer
  | enabled observed _ => enabled observed true
  | asleep observed _ => asleep observed true
  | consumer => consumer

def observed? : Consumer → Option ℕ
  | running => none
  | waiting observed | enabled observed _ | asleep observed _ => some observed

end Consumer

structure WakeUps where
  shared : Shared
  changeSequence : ℕ
  consumer : Consumer
  /-- callbacks that have marked and not yet counted -/
  uncounted : ℕ
  /-- callbacks that have counted and not yet notified -/
  unnotified : ℕ
  /-- the changes counted since the last drain -/
  since : ℕ

inductive WakeAction
  | callback (now : ℕ) (result : Option Event)
  | count | notify
  | drain | enable | check | wake

namespace WakeUps

variable (limits : WatcherLimits)

/-- `count` and `notify` are the two halves of `signal_change`.  A drain reads the sequence before
it lets go of the lock, and may take the place of a wait that was given up. -/
def step (w : WakeUps) : WakeAction → WakeUps
  | .callback now result =>
    { w with
      shared := w.shared.handleCallback .machine limits now result
      uncounted := if w.shared.marks .machine limits now result = some [] then w.uncounted
        else w.uncounted + 1 }
  | .count =>
    if w.uncounted = 0 then w
    else
      { w with
        changeSequence := Counting.machine.fetchAdd w.changeSequence
        uncounted := w.uncounted - 1
        unnotified := w.unnotified + 1
        since := w.since + 1 }
  | .notify =>
    if w.unnotified = 0 then w
    else { w with consumer := w.consumer.notify, unnotified := w.unnotified - 1 }
  | .drain =>
    { w with
      shared := w.shared.drainChanges.1
      consumer := .waiting w.changeSequence
      since := 0 }
  | .enable => { w with consumer := w.consumer.enable }
  | .check => { w with consumer := w.consumer.check w.changeSequence }
  | .wake => { w with consumer := w.consumer.wake }

/-- What is known of a queue while its consumer waits for the next change. -/
structure Informed (w : WakeUps) : Prop where
  bounded : w.shared.changedTargets.card ≤ limits.maximumPendingTargets
  counted : ∀ observed ∈ w.consumer.observed?,
    w.changeSequence % 2 ^ 64 = (observed + w.since) % 2 ^ 64
  signalled : w.consumer.observed?.isSome → w.shared.Undrained → 0 < w.uncounted ∨ 0 < w.since
  notified : ∀ observed, w.consumer = .asleep observed false → w.unnotified = 0 → 2 ^ 64 ∣ w.since

variable {limits} {w : WakeUps}

/-- A step of the consumer that does not begin a sleep after the sequence has moved on. -/
theorem Informed.move (h : w.Informed limits) {consumer : Consumer}
    (hobserved : ∀ observed ∈ consumer.observed?, observed ∈ w.consumer.observed?)
    (hasleep : ∀ observed, consumer = .asleep observed false →
      w.consumer = .asleep observed false ∨ w.changeSequence = observed) :
    Informed limits { w with consumer } where
  bounded := h.bounded
  counted observed hmem := h.counted observed (hobserved observed hmem)
  signalled hsome := by
    obtain ⟨observed, hmem⟩ := Option.isSome_iff_exists.mp hsome
    exact h.signalled (Option.isSome_of_mem (hobserved observed hmem))
  notified observed hconsumer hnone := by
    obtain rfl : consumer = .asleep observed false := hconsumer
    rcases hasleep observed rfl with hsame | hcurrent
    · exact h.notified observed hsame hnone
    · have := h.counted observed (hobserved observed rfl)
      change 2 ^ 64 ∣ w.since
      omega

theorem step_informed (w : WakeUps) (action : WakeAction) (h : w.Informed limits) :
    (w.step limits action).Informed limits := by
  cases action with
  | callback now result =>
    have hqueues := w.shared.handleCallback_queues .machine limits now result
    refine ⟨hqueues.bounded h.bounded, h.counted, fun hwaits hundrained => ?_, h.notified⟩
    simp only [step]
    split_ifs with hquiet
    · exact h.signalled hwaits (hqueues.quiet hquiet hundrained)
    · exact .inl (Nat.succ_pos _)
  | count =>
    simp only [step]
    split_ifs with hnone
    · exact h
    · refine ⟨h.bounded, fun observed hmem => ?_, fun _ _ => .inr (Nat.succ_pos _), by simp⟩
      have := h.counted observed hmem
      simp only [Counting.machine]
      omega
  | notify =>
    simp only [step]
    split_ifs
    · exact h
    have hawake : ∀ observed, w.consumer.notify ≠ .asleep observed false := by
      cases w.consumer <;> simp [Consumer.notify]
    have hmoved : Informed limits { w with consumer := w.consumer.notify } :=
      h.move (by cases w.consumer <;> simp [Consumer.notify, Consumer.observed?])
        fun observed hasleep => absurd hasleep (hawake observed)
    exact ⟨hmoved.bounded, hmoved.counted, hmoved.signalled,
      fun observed hasleep => absurd hasleep (hawake observed)⟩
  | drain =>
    exact ⟨Nat.zero_le _, by simp [step, Consumer.observed?],
      by simp [step, Shared.drainChanges, Shared.Undrained], by simp [step]⟩
  | enable => apply h.move <;> cases w.consumer <;> grind [Consumer.enable, Consumer.observed?]
  | check => apply h.move <;> cases w.consumer <;> grind [Consumer.check, Consumer.observed?]
  | wake => apply h.move <;> cases w.consumer <;> grind [Consumer.wake, Consumer.observed?]

/-- Only a drain takes anything out of the queue. -/
theorem run_pending {id : String} {actions : List WakeAction} (hdrain : .drain ∉ actions)
    (h : w.shared.Pending id) : (run (step limits) w actions).shared.Pending id := by
  induction actions generalizing w with
  | nil => exact h
  | cons action actions ih =>
    rw [List.mem_cons, not_or] at hdrain
    refine ih hdrain.2 ?_
    cases action with
    | callback now result =>
      exact (w.shared.handleCallback_queues .machine limits now result).kept id h
    | count | notify =>
      simp only [step]
      split_ifs <;> exact h
    | drain => exact absurd rfl hdrain.1
    | enable | check | wake => exact h

/-- **No change and no wake-up is lost**: the queue is bounded, the next drain names whatever a
callback has marked, and whoever sleeps over a marked queue is about to be woken. -/
theorem changes_reach_consumer (hrunning : w.consumer = .running)
    (hbounded : w.shared.changedTargets.card ≤ limits.maximumPendingTargets)
    (actions : List WakeAction) :
    let after := run (step limits) w actions
    after.shared.changedTargets.card ≤ limits.maximumPendingTargets ∧
      (∀ now result id more, (after.shared.marks .machine limits now result).all (id ∈ ·) →
        .drain ∉ more →
          let marked := after.step limits (.callback now result)
          (run (step limits) marked more).shared.drainChanges.2.all (id ∈ ·)) ∧
      ∀ observed, after.consumer = .asleep observed false → after.shared.Undrained →
        0 < after.uncounted ∨ 0 < after.unnotified ∨ 0 < after.since ∧ 2 ^ 64 ∣ after.since := by
  have hstart : w.Informed limits :=
    ⟨hbounded, by simp [hrunning, Consumer.observed?], by simp [hrunning, Consumer.observed?],
      by simp [hrunning]⟩
  have h := run_invariant (fun w action => step_informed w action) actions hstart
  refine ⟨h.bounded, fun now result id more hmark hdrain => ?_, fun observed hasleep hundrained => ?_⟩
  · have hmarked : ((run (step limits) w actions).step limits (.callback now result)).shared.Pending
        id := (Shared.handleCallback_queues _ _ _ _ _).marked id hmark
    exact Shared.drainChanges_of_pending (run_pending hdrain hmarked)
  have hsignalled := h.signalled (by rw [hasleep]; rfl) hundrained
  have hnotified := h.notified observed hasleep
  by_cases hnone : (run (step limits) w actions).unnotified = 0
  · have hwrapped := hnotified hnone
    rcases hsignalled with hcount | hsince
    · exact .inl hcount
    · exact .inr (.inr ⟨hsince, hwrapped⟩)
  · exact .inr (.inl (Nat.pos_of_ne_zero hnone))

/-- A watcher and its consumer before anything has happened. -/
def start : WakeUps := ⟨.new, 0, .running, 0, 0, 0⟩

/-- A consumer sleeps over what an error of the backend has marked, is woken by its signal, and the
drain after the next error asks for everything. -/
theorem changes_reach_consumer_woken :
    let limits := WatcherLimits.new 1 1 1 1
    let asleep := run (step limits) start [.drain, .enable, .check, .callback 0 none]
    let woken := run (step limits) asleep [.count, .notify, .wake]
    let marked := woken.step limits (.callback 0 none)
    asleep.consumer = .asleep 0 false ∧
      (0 < asleep.uncounted ∨ 0 < asleep.unnotified ∨ 0 < asleep.since ∧ 2 ^ 64 ∣ asleep.since) ∧
      woken.consumer = .waiting 0 ∧ woken.shared.changedTargets.card ≤ 1 ∧
      (run (step limits) marked [.count, .notify, .enable]).shared.drainChanges.2.all ("t" ∈ ·) := by
  intro limits asleep woken marked
  have hasleep := @changes_reach_consumer limits start rfl (Nat.zero_le _)
    [.drain, .enable, .check, .callback 0 none]
  have hwoken := @changes_reach_consumer limits start rfl (Nat.zero_le _)
    [.drain, .enable, .check, .callback 0 none, .count, .notify, .wake]
  refine ⟨by decide, hasleep.2.2 0 (by decide) (by decide), by decide, hwoken.1, ?_⟩
  exact hwoken.2.1 0 none "t" [.count, .notify, .enable] rfl (by simp)

/-- One error of the backend, signalled to the end. -/
def signalledError : List WakeAction := [.callback 0 none, .count, .notify]

/-- The state after errors that were all signalled before the consumer has enabled its wait. -/
theorem run_signalledError : ∀ (n : ℕ) (w : WakeUps), w.consumer = .waiting 0 → w.uncounted = 0 →
    w.unnotified = 0 → w.changeSequence < 2 ^ 64 → w.shared.Undrained ∨ 0 < n →
    let after := run (step limits) w (List.replicate n signalledError).flatten
    after.consumer = .waiting 0 ∧ after.uncounted = 0 ∧ after.unnotified = 0 ∧
      after.shared.Undrained ∧ after.changeSequence = (w.changeSequence + n) % 2 ^ 64
  | 0, w, hwaiting, hcounted, hnotified, hlt, hundrained =>
    ⟨hwaiting, hcounted, hnotified, hundrained.resolve_right (lt_irrefl 0),
      (Nat.mod_eq_of_lt hlt).symm⟩
  | n + 1, w, hwaiting, hcounted, hnotified, _, _ => by
    obtain ⟨shared, sequence, consumer, uncounted, unnotified, since⟩ := w
    obtain rfl : consumer = .waiting 0 := hwaiting
    obtain rfl : uncounted = 0 := hcounted
    obtain rfl : unnotified = 0 := hnotified
    rw [List.replicate_succ, List.flatten_cons, run_append]
    obtain ⟨hafter, hcounted, hnotified, hundrained, hsequence⟩ := run_signalledError n
      ⟨shared.handleCallback .machine limits 0 none, (sequence + 1) % 2 ^ 64, .waiting 0, 0, 0,
        since + 1⟩ rfl rfl rfl (Nat.mod_lt _ (by decide)) (.inl (.inl rfl))
    refine ⟨hafter, hcounted, hnotified, hundrained, hsequence.trans ?_⟩
    rw [Nat.mod_add_mod, Nat.add_right_comm, Nat.add_assoc]

/-- The consumer drains, and checks its sequence after `n` signals. -/
def lateCheck (n : ℕ) : List WakeAction :=
  .drain :: ((List.replicate n signalledError).flatten ++ [.enable, .check])

theorem asleep_of_lateCheck {n : ℕ} (hpos : 0 < n) (hwraps : 2 ^ 64 ∣ n) :
    let after := run (step limits) start (lateCheck n)
    after.consumer = .asleep 0 false ∧ after.shared.Undrained ∧ after.uncounted = 0 ∧
      after.unnotified = 0 := by
  obtain ⟨hwaiting, hcounted, hnotified, hundrained, hsequence⟩ :=
    @run_signalledError limits n (start.step limits .drain) rfl rfl rfl
      (Nat.two_pow_pos 64) (.inr hpos)
  rw [lateCheck, run_cons, run_append]
  generalize run (step limits) (start.step limits .drain) _ = signalled at *
  have hzero : signalled.changeSequence = 0 :=
    hsequence.trans (Nat.mod_eq_zero_of_dvd ((Nat.zero_add n).symm ▸ hwraps))
  have hasleep : (run (step limits) signalled [.enable, .check]).consumer = .asleep 0 false := by
    simp [step, hwaiting, hzero, Consumer.enable, Consumer.check]
  exact ⟨hasleep, hundrained, hcounted, hnotified⟩

/-- **Who sleeps over a marked queue**: a consumer whose callback has not signalled yet, and one that
has missed `2 ^ 64` signals between its drain and its check. -/
theorem asleep_over_marked_queue :
    let limits := WatcherLimits.new 1 1 1 1
    let marked := run (step limits) start [.drain, .enable, .check, .callback 0 none]
    let wrapped := run (step limits) start (lateCheck (2 ^ 64))
    (marked.consumer = .asleep 0 false ∧ marked.shared.Undrained) ∧
      wrapped.consumer = .asleep 0 false ∧ wrapped.shared.Undrained ∧
      wrapped.uncounted = 0 ∧ wrapped.unnotified = 0 :=
  ⟨by decide, asleep_of_lateCheck (by decide) (dvd_refl _)⟩

end WakeUps

end DatabasesEverywhere.Watcher
