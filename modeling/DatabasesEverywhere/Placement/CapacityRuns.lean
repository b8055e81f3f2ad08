import DatabasesEverywhere.Foundations.Runs
import DatabasesEverywhere.Placement.CapacityLedger

/-!
# Placement/CapacityRuns — the ledger under every interleaving

Any number of workers call the repository.  A call is a transaction, and for some calls a read after
it, with the transactions of others in between:

    call ──▸ transaction ──▸ … ──▸ finish: read and return
                  │
                  └─▸ error: return, and the ledger is as before

A worker may keep the value of a runtime for as long as it likes, change it as `check_resize`
allows, and save it.  **The counters are exact in every run** (`capacity_ledger_exact`).
-/

open Foundations

namespace DatabasesEverywhere.Placement

open Server (DeploymentMode)

/-! ## Calls -/

inductive PlacementCall
  | reserve (request : ReserveTenant)
  | markProvisioned (instanceId : String)
  | release (instanceId : String)
  | resize (instanceId : String) (requested : InstanceLimits)
  | attach (instanceId : String) (inst : SharedInstance)
  | deleteInstance (instanceId : String)
  | save (runtime : EngineRuntime)
  deriving DecidableEq

namespace PlacementCall

def transaction : PlacementCall → Ledger → Except PlacementRepositoryError Ledger
  | reserve request => Placement.reserve request
  | markProvisioned instanceId => Placement.markProvisioned instanceId
  | release instanceId => Placement.release instanceId
  | resize instanceId requested => Placement.resize instanceId requested
  | attach instanceId inst => Placement.attach instanceId inst
  | deleteInstance instanceId => Placement.deleteInstance instanceId
  | save runtime => Placement.save runtime

end PlacementCall

inductive PlacementReply
  | runtime (runtime : EngineRuntime)
  | reservation (reservation : TenantReservation)
  | released (released : Bool)
  | done
  deriving DecidableEq

/-- `self.get(runtime_id).await?.ok_or(RuntimeNotFound)` -/
def getExisting (runtimeId : String) (ledger : Ledger) :
    Except PlacementRepositoryError PlacementReply := do
  match ← get runtimeId ledger with
  | some runtime => return .runtime runtime
  | none => throw (.runtimeNotFound runtimeId)

/-- The end of `mark_provisioned`: `updated` says that its update found a row. -/
def getProvisioned (instanceId : String) (updated : Bool) (ledger : Ledger) :
    Except PlacementRepositoryError PlacementReply := do
  let reservation ← findRow ledger.reservations instanceId (.reservationNotFound instanceId)
  require (updated || reservation.state = .provisioned) (.reservationNotFound instanceId)
  return .reservation reservation

/-- What a call returns whose transaction began in `before` and whose read is in `seen`. -/
def PlacementCall.reply (before seen : Ledger) :
    PlacementCall → Except PlacementRepositoryError PlacementReply
  | reserve request => getExisting request.runtimeId seen
  | markProvisioned instanceId =>
    getProvisioned instanceId (before.reservations.lookup instanceId).isSome seen
  | release instanceId => .ok (.released ((before.reservations.lookup instanceId).any fun r =>
      (before.runtimes.lookup r.runtimeId).isSome))
  | resize instanceId _ => do
    let reservation ← findRow before.reservations instanceId (.reservationNotFound instanceId)
    getExisting reservation.runtimeId seen
  | attach _ _ | deleteInstance _ | save _ => .ok .done

/-! ## The system -/

/-- A call whose transaction is committed. -/
structure CommittedCall where
  call : PlacementCall
  before : Ledger
  after : Ledger

/-- A call that has returned. -/
structure ReturnedCall extends CommittedCall where
  seen : Ledger
  result : Except PlacementRepositoryError PlacementReply

structure PlacementSystem where
  ledger : Ledger
  /-- values that were read, and those `check_resize` made of them -/
  snapshots : List EngineRuntime
  pending : Map ℕ CommittedCall
  returned : List ReturnedCall

inductive PlacementAction
  | call (worker : ℕ) (call : PlacementCall)
  | finish (worker : ℕ)
  | read (runtimeId : String)
  | resizePool (index : ℕ) (limits : PoolLimits)
  deriving DecidableEq

/-- The value of a runtime that is provisioned now: a pool is empty and has room for its engine. -/
def isNewRuntime (runtime : EngineRuntime) : Bool :=
  runtime.deploymentMode = .dedicated ||
    runtime.reserved = ⟨0, 0⟩ &&
      (poolDiskMib runtime.protocol 0).any fun pool => pool ≤ runtime.limits.diskMib

/-- The value is a snapshot, but for fields that have nothing to do with capacity. -/
def isSnapshot (snapshots : List EngineRuntime) (runtime : EngineRuntime) : Bool :=
  snapshots.any fun snapshot =>
    runtime = { snapshot with
      status := runtime.status, desiredState := runtime.desiredState, owner := runtime.owner }

namespace PlacementSystem

def start : PlacementSystem := ⟨.empty, [], ∅, []⟩

def allows (system : PlacementSystem) : PlacementCall → Bool
  | .save runtime => isNewRuntime runtime || isSnapshot system.snapshots runtime
  | _ => true

def step (system : PlacementSystem) : PlacementAction → PlacementSystem
  | .call worker call =>
    if system.allows call && (system.pending.lookup worker).isNone then
      match call.transaction system.ledger with
      | .error error =>
        { system with
          returned := ⟨⟨call, system.ledger, system.ledger⟩, system.ledger, .error error⟩ ::
            system.returned }
      | .ok after =>
        { system with
          ledger := after
          pending := system.pending.insert worker ⟨call, system.ledger, after⟩ }
    else system
  | .finish worker =>
    match system.pending.lookup worker with
    | none => system
    | some committed =>
      { system with
        pending := system.pending.erase worker
        returned := ⟨committed, system.ledger, committed.call.reply committed.before system.ledger⟩ ::
          system.returned }
  | .read runtimeId =>
    match get runtimeId system.ledger with
    | .ok (some runtime) => { system with snapshots := runtime :: system.snapshots }
    | _ => system
  | .resizePool index limits =>
    match system.snapshots[index]? with
    | none => system
    | some pool =>
      match checkResize pool limits with
      | .error _ => system
      | .ok _ => { system with snapshots := resizedPool pool limits :: system.snapshots }

end PlacementSystem

/-! ## What a call leaves behind -/

/-- The runtime that a call reads at its end. -/
def CommittedCall.target (committed : CommittedCall) : Option String :=
  match committed.call with
  | .reserve request => some request.runtimeId
  | .resize instanceId _ => (committed.before.reservations.lookup instanceId).map (·.runtimeId)
  | _ => none

/-- The reservation was marked, and was gone when `mark_provisioned` read it. -/
def ReturnedCall.Vanished (entry : ReturnedCall) : Prop :=
  ∃ instanceId reservation, entry.call = .markProvisioned instanceId ∧
    entry.result = .error (.reservationNotFound instanceId) ∧
    entry.before.reservations.lookup instanceId = some reservation ∧
    entry.seen.reservations.lookup instanceId = none ∧
    entry.after.reservations =
      entry.before.reservations.insert instanceId { reservation with state := .provisioned } ∧
    entry.after.runtimes = entry.before.runtimes ∧ entry.after.instances = entry.before.instances

def ReturnedCall.failed (entry : ReturnedCall) : Prop := ∃ error, entry.result = .error error

variable {ledger : Ledger}

theorem getExisting_ok (h : ledger.Exact) {runtimeId : String}
    (hid : (ledger.runtimes.lookup runtimeId).isSome) :
    ∃ reply, getExisting runtimeId ledger = .ok reply := by
  obtain ⟨row, hrow⟩ := Option.isSome_iff_exists.mp hid
  have hcheck := (h.stored _ _ hrow).2
  exact ⟨.runtime row, by simp [getExisting, get, hrow, hcheck]; rfl⟩

variable {error : PlacementRepositoryError} {instanceId : String}

theorem getProvisioned_error (h : getProvisioned instanceId true ledger = .error error) :
    error = .reservationNotFound instanceId ∧ ledger.reservations.lookup instanceId = none := by
  cases hrow : ledger.reservations.lookup instanceId with
  | none =>
    simp only [getProvisioned, findRow, hrow, error_bind] at h
    exact ⟨(Except.error.inj h).symm, rfl⟩
  | some row =>
    simp only [getProvisioned, findRow, hrow] at h
    cases h

variable {after : Ledger}

theorem reserve_runtime {request : ReserveTenant} (h : reserve request ledger = .ok after) :
    (ledger.runtimes.lookup request.runtimeId).isSome := by
  simp only [reserve, bind_eq_ok, findRow_eq_ok] at h
  obtain ⟨-, -, -, -, -, -, -, -, -, -, -, -, row, hrow, -⟩ := h
  exact Option.isSome_iff_exists.mpr ⟨row, hrow⟩

theorem resize_reservation {requested : InstanceLimits}
    (h : resize instanceId requested ledger = .ok after) :
    ∃ reservation, ledger.reservations.lookup instanceId = some reservation := by
  simp only [resize, bind_eq_ok, findRow_eq_ok] at h
  obtain ⟨-, -, -, -, -, -, old, hold, -⟩ := h
  exact ⟨old, hold⟩

variable {committed : CommittedCall}

/-- The runtime that a call reads at its end was there when it began. -/
theorem target_runtime (h : committed.before.Exact)
    (hcommitted : committed.call.transaction committed.before = .ok committed.after) {id : String}
    (hid : committed.target = some id) : (committed.before.runtimes.lookup id).isSome := by
  obtain ⟨call, before, after⟩ := committed
  cases call with
  | reserve request =>
    cases hid
    exact reserve_runtime hcommitted
  | resize instanceId requested =>
    obtain ⟨reservation, hreservation⟩ := resize_reservation hcommitted
    simp only [CommittedCall.target, hreservation, Option.map_some, Option.some.injEq] at hid
    exact hid ▸ h.housed _ _ hreservation
  | markProvisioned _ | release _ | attach _ _ | deleteInstance _ | save _ => cases hid

/-- **A call that returns an error after its commit** is a `mark_provisioned`. -/
theorem reply_error {seen : Ledger} (hseen : seen.Exact)
    (hcommitted : committed.call.transaction committed.before = .ok committed.after)
    (htarget : ∀ id, committed.target = some id → (seen.runtimes.lookup id).isSome)
    (h : committed.call.reply committed.before seen = .error error) :
    committed.after = committed.before ∨
      ReturnedCall.Vanished ⟨committed, seen, .error error⟩ := by
  obtain ⟨call, before, after⟩ := committed
  cases call with
  | reserve request =>
    obtain ⟨reply, hreply⟩ := getExisting_ok hseen (htarget _ rfl)
    cases hreply.symm.trans h
  | resize instanceId requested =>
    obtain ⟨reservation, hreservation⟩ := resize_reservation hcommitted
    simp only [CommittedCall.target, hreservation, Option.map_some, Option.some.injEq] at htarget
    obtain ⟨reply, hreply⟩ := getExisting_ok hseen (htarget _ rfl)
    simp only [PlacementCall.reply, findRow, hreservation, ok_bind] at h
    cases hreply.symm.trans h
  | markProvisioned instanceId =>
    simp only [PlacementCall.transaction, markProvisioned] at hcommitted
    cases hold : before.reservations.lookup instanceId with
    | none =>
      rw [hold] at hcommitted
      exact .inl (Except.ok.inj hcommitted).symm
    | some reservation =>
      simp only [hold] at hcommitted
      obtain ⟨hreservations, hruntimes, hinstances⟩ := Ledger.putReservation_eq_ok hcommitted
      simp only [PlacementCall.reply, hold, Option.isSome_some] at h
      obtain ⟨rfl, hgone⟩ := getProvisioned_error h
      exact .inr ⟨instanceId, reservation, rfl, rfl, hold, hgone, hreservations, hruntimes,
        hinstances⟩
  | release _ | attach _ _ | deleteInstance _ | save _ => cases h

/-! ## Sound systems -/

namespace PlacementSystem

structure Sound (system : PlacementSystem) : Prop where
  exact : system.ledger.Exact
  snapshots : ∀ snapshot ∈ system.snapshots,
    (system.ledger.runtimes.lookup snapshot.runtimeId).isSome ∧
      (snapshot.deploymentMode = .shared → Fits snapshot)
  pending : ∀ worker committed, system.pending.lookup worker = some committed →
    committed.call.transaction committed.before = .ok committed.after ∧
      ∀ id, committed.target = some id → (system.ledger.runtimes.lookup id).isSome
  returned : ∀ entry ∈ system.returned, entry.failed → entry.after = entry.before ∨ entry.Vanished

namespace Sound

theorem start : start.Sound :=
  ⟨.empty, fun _ h => absurd h List.not_mem_nil, fun _ _ h => (by cases h),
    fun _ h => absurd h List.not_mem_nil⟩

variable {system : PlacementSystem}

variable (h : system.Sound)
include h

theorem leads {call : PlacementCall} (hallows : system.allows call = true)
    (hcall : call.transaction system.ledger = .ok after) : system.ledger.Leads after := by
  cases call with
  | reserve request => exact h.exact.reserve hcall
  | markProvisioned instanceId => exact h.exact.markProvisioned hcall
  | release instanceId => exact h.exact.release hcall
  | resize instanceId requested => exact h.exact.resize hcall
  | attach instanceId inst => exact h.exact.attach hcall
  | deleteInstance instanceId => exact h.exact.deleteInstance hcall
  | save runtime =>
    simp only [allows, Bool.or_eq_true] at hallows
    rcases hallows with hnew | hold
    · simp only [isNewRuntime, Bool.or_eq_true, Bool.and_eq_true, decide_eq_true_eq] at hnew
      rcases hnew with hdedicated | ⟨hreserved, hroom⟩
      · exact h.exact.save (by simp [hdedicated]) (by simp [hdedicated]) hcall
      cases hpool : poolDiskMib runtime.protocol 0 with
      | none => simp [hpool] at hroom
      | some pool =>
        have hle : pool ≤ runtime.limits.diskMib := by simpa [hpool] using hroom
        refine h.exact.save (fun _ => ⟨pool, ?_, hle⟩) (fun _ _ => hreserved) hcall
        rw [hreserved, hpool]
    · obtain ⟨snapshot, hsnapshot, heq⟩ := List.any_eq_true.mp hold
      have heq := of_decide_eq_true heq
      obtain ⟨hsome, hfits⟩ := h.snapshots snapshot hsnapshot
      refine h.exact.save (fun hshared => ?_) (fun hnone => ?_) hcall
      · rw [heq] at hshared ⊢
        exact hfits hshared
      · rw [heq] at hnone
        exact absurd (hnone ▸ hsome) nofun

/-- The ledger moves on, and a call is pending. -/
theorem commit {worker : ℕ} {call : PlacementCall} (hallows : system.allows call = true)
    (hcall : call.transaction system.ledger = .ok after) :
    Sound { system with
      ledger := after
      pending := system.pending.insert worker ⟨call, system.ledger, after⟩ } := by
  have hleads := h.leads hallows hcall
  refine ⟨hleads.exact, fun snapshot hsnapshot => ?_, fun other committed hcommitted => ?_,
    h.returned⟩
  · obtain ⟨hsome, hfits⟩ := h.snapshots snapshot hsnapshot
    exact ⟨hleads.runtimes _ hsome, hfits⟩
  · rcases Map.lookup_insert_eq hcommitted with ⟨-, rfl⟩ | ⟨-, hold⟩
    · exact ⟨hcall, fun id hid => hleads.runtimes id (target_runtime h.exact hcall hid)⟩
    · obtain ⟨htransaction, htarget⟩ := h.pending other committed hold
      exact ⟨htransaction, fun id hid => hleads.runtimes id (htarget id hid)⟩

/-- A call has returned. -/
theorem enter {entry : ReturnedCall}
    (hentry : entry.failed → entry.after = entry.before ∨ entry.Vanished) :
    Sound { system with returned := entry :: system.returned } :=
  ⟨h.exact, h.snapshots, h.pending, List.forall_mem_cons.mpr ⟨hentry, h.returned⟩⟩

/-- A worker has another value of a runtime. -/
theorem keep {snapshot : EngineRuntime}
    (hsome : (system.ledger.runtimes.lookup snapshot.runtimeId).isSome)
    (hfits : snapshot.deploymentMode = .shared → Fits snapshot) :
    Sound { system with snapshots := snapshot :: system.snapshots } :=
  ⟨h.exact, List.forall_mem_cons.mpr ⟨⟨hsome, hfits⟩, h.snapshots⟩, h.pending, h.returned⟩

theorem read (runtimeId : String) : (system.step (.read runtimeId)).Sound := by
  cases hrow : system.ledger.runtimes.lookup runtimeId with
  | none =>
    simp only [step, get, hrow]
    exact h
  | some row =>
    obtain ⟨hid, hcheck⟩ := h.exact.stored _ _ hrow
    have hget : get runtimeId system.ledger = .ok (some row) := by
      simp only [get, hrow, hcheck]
      rfl
    simp only [step, hget]
    exact h.keep (by rw [hid, hrow]; rfl) (h.exact.fits _ _ hrow)

theorem resizePool (index : ℕ) (limits : PoolLimits) :
    (system.step (.resizePool index limits)).Sound := by
  cases hpool : system.snapshots[index]? with
  | none =>
    simp only [step, hpool]
    exact h
  | some pool =>
    cases hcheck : checkResize pool limits with
    | error error =>
      simp only [step, hpool, hcheck]
      exact h
    | ok _ =>
      simp only [step, hpool, hcheck]
      obtain ⟨hsome, hfits⟩ := h.snapshots pool (List.mem_of_getElem? hpool)
      simp only [checkResize, bind_eq_ok, require_eq_ok, Bool.and_eq_true, decide_eq_true_eq]
        at hcheck
      obtain ⟨-, -, -, ⟨-, hdisk⟩, -⟩ := hcheck
      refine h.keep hsome fun hshared => ?_
      obtain ⟨needed, hneeded, hle⟩ := hfits hshared
      exact ⟨needed, hneeded, hle.trans hdisk⟩

/-- **Every step keeps the system sound.** -/
theorem step (action : PlacementAction) : (system.step action).Sound := by
  cases action with
  | call worker call =>
    simp only [PlacementSystem.step]
    split
    · next hguard =>
      have hallows := (Bool.and_eq_true _ _ ▸ hguard).1
      cases hcall : call.transaction system.ledger with
      | error error => exact h.enter fun _ => .inl rfl
      | ok after => exact h.commit hallows hcall
    · exact h
  | finish worker =>
    cases hpending : system.pending.lookup worker with
    | none =>
      simp only [PlacementSystem.step, hpending]
      exact h
    | some committed =>
      simp only [PlacementSystem.step, hpending]
      obtain ⟨hcommitted, htarget⟩ := h.pending worker committed hpending
      have hrest : Sound { system with pending := system.pending.erase worker } :=
        ⟨h.exact, h.snapshots,
          fun other committed hother => h.pending other committed (Map.lookup_of_erase hother),
          h.returned⟩
      refine hrest.enter fun hfailed => ?_
      obtain ⟨error, herror⟩ := hfailed
      have herror : committed.call.reply committed.before system.ledger = .error error := herror
      rw [herror]
      exact reply_error h.exact hcommitted htarget herror
  | read runtimeId => exact h.read runtimeId
  | resizePool index limits => exact h.resizePool index limits

end Sound

end PlacementSystem

/-! ## Every run -/

/-- **The ledger is exact in every run.**  A call that returns an error has changed nothing, but
for a `mark_provisioned` whose reservation was gone when it was read. -/
theorem capacity_ledger_exact (actions : List PlacementAction) :
    (∀ id row, (run PlacementSystem.step .start actions).ledger.runtimes.lookup id = some row →
      row.deploymentMode = .shared →
      row.reserved.tenants =
        (run PlacementSystem.step .start actions).ledger.tenantCount id ∧
      row.reserved.tenants ≤ row.maxTenants ∧
      row.reserved.diskMib =
        (run PlacementSystem.step .start actions).ledger.reservedDiskMib id ∧
      ∃ pool, poolDiskMib row.protocol row.reserved.diskMib = some pool ∧
        pool ≤ row.limits.diskMib) ∧
    (∀ id id' first second,
      (run PlacementSystem.step .start actions).ledger.reservations.lookup id = some first →
      (run PlacementSystem.step .start actions).ledger.reservations.lookup id' = some second →
      first.runtimeId = second.runtimeId → id ≠ id' →
      first.database ≠ second.database ∧ first.username ≠ second.username) ∧
    ∀ entry ∈ (run PlacementSystem.step .start actions).returned, entry.failed →
      entry.after = entry.before ∨ entry.Vanished := by
  have hstep : ∀ (system : PlacementSystem) action, system.Sound → (system.step action).Sound :=
    fun _ action h => h.step action
  have h := run_invariant hstep actions PlacementSystem.Sound.start
  generalize run PlacementSystem.step .start actions = system at h
  refine ⟨fun id row hrow hshared => ?_, fun id id' first second hfirst hsecond hruntime hne => ?_,
    h.returned⟩
  · have hcounted := h.exact.counted id row hrow hshared
    have hle := (EngineRuntime.le_of_checks (system.ledger.checked id row hrow)).1
    exact ⟨by rw [hcounted]; rfl, hle, by rw [hcounted]; rfl, h.exact.fits id row hrow hshared⟩
  · exact ⟨fun heq => hne (system.ledger.databases id id' first second hfirst hsecond hruntime heq),
      fun heq => hne (system.ledger.usernames id id' first second hfirst hsecond hruntime heq)⟩

/-! ## Runs with one pool -/

def examplePool : EngineRuntime where
  runtimeId := "pool"
  protocol := .postgres
  deploymentMode := .shared
  status := .running
  desiredState := .running
  owner := some ⟨"p", "s"⟩
  limits := ⟨1, 512, 4096⟩
  maxTenants := 2
  reserved := ⟨0, 0⟩

def exampleRequest (instanceId : String) (diskMib : ℕ) : ReserveTenant :=
  ⟨⟨"p", "s"⟩, instanceId, "pool", instanceId, instanceId, ⟨1, 64, diskMib⟩⟩

/-- Two tenants fill the pool, a value from before them is saved, and a third is refused. -/
def fullRun : List PlacementAction :=
  [.call 0 (.save examplePool), .finish 0, .read "pool",
    .call 0 (.reserve (exampleRequest "a" 1000)), .call 1 (.reserve (exampleRequest "b" 500)),
    .finish 1, .finish 0, .call 0 (.save { examplePool with desiredState := .stopped }), .finish 0,
    .call 0 (.reserve (exampleRequest "c" 1))]

theorem fullRun_exact :
    ∃ row, (run PlacementSystem.step .start fullRun).ledger.runtimes.lookup "pool" = some row ∧
      row.reserved = ⟨2, 1500⟩ ∧
      row.reserved.tenants = (run PlacementSystem.step .start fullRun).ledger.tenantCount "pool" ∧
      ∃ entry ∈ (run PlacementSystem.step .start fullRun).returned, entry.failed ∧
        (entry.after = entry.before ∨ entry.Vanished) := by
  obtain ⟨hrows, -, hreturned⟩ := capacity_ledger_exact fullRun
  have hrow : (run PlacementSystem.step .start fullRun).ledger.runtimes.lookup "pool" =
      some { examplePool with desiredState := .stopped, reserved := ⟨2, 1500⟩ } := by
    decide +kernel
  have hfailed : ((run PlacementSystem.step .start fullRun).returned.any fun entry =>
      entry.result matches .error _) = true := by
    decide +kernel
  obtain ⟨entry, hentry, herror⟩ := List.any_eq_true.mp hfailed
  have herror : entry.failed := by
    unfold ReturnedCall.failed
    cases hresult : entry.result with
    | error error => exact ⟨error, rfl⟩
    | ok reply => simp [hresult] at herror
  exact ⟨_, hrow, rfl, (hrows _ _ hrow rfl).1, entry, hentry, herror, hreturned entry hentry herror⟩

/-- A tenant is released between the update and the read of its `mark_provisioned`. -/
def releasedRun : List PlacementAction :=
  [.call 0 (.save examplePool), .finish 0, .call 0 (.reserve (exampleRequest "a" 1000)), .finish 0,
    .call 0 (.markProvisioned "a"), .call 1 (.release "a"), .finish 1, .finish 0]

theorem releasedRun_changed :
    ¬ ∀ entry ∈ (run PlacementSystem.step .start releasedRun).returned, entry.failed →
      entry.after = entry.before := by
  intro h
  have hchanged : ((run PlacementSystem.step .start releasedRun).returned.any fun entry =>
      entry.result = .error (.reservationNotFound "a") &&
        entry.after.reservations.lookup "a" ≠ entry.before.reservations.lookup "a") = true := by
    decide +kernel
  obtain ⟨entry, hentry, hwitness⟩ := List.any_eq_true.mp hchanged
  simp only [Bool.and_eq_true, decide_eq_true_eq] at hwitness
  exact hwitness.2 (by rw [h entry hentry ⟨_, hwitness.1⟩])

end DatabasesEverywhere.Placement
