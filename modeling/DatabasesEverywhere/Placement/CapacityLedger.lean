import DatabasesEverywhere.Placement.Capacity

/-!
# Placement/CapacityLedger — what every transaction keeps

`Ledger.Exact` says that the counters of a shared runtime are the count and the sum of its
reservations, that its disk covers what they need, that every row can be read back, and that an
instance has a reservation with its runtime.  Four transactions change a reservation and count its
runtime again; they are one lemma, `Ledger.Exact.recount`.
-/

open Foundations

namespace DatabasesEverywhere.Placement

open Server (DeploymentMode)

/-! ## What a transaction that succeeds has done -/

theorem findRow_eq_ok {V : Type} {rows : Map String V} {id : String}
    {missing : PlacementRepositoryError} {row : V} :
    findRow rows id missing = .ok row ↔ rows.lookup id = some row := by
  cases hrow : rows.lookup id <;> simp [findRow, hrow]

theorem poolDiskLimit_eq_ok {protocol : Protocol} {next limit : ℕ}
    (h : poolDiskLimit protocol next = .ok limit) : poolDiskMib protocol next = some limit := by
  cases hpool : poolDiskMib protocol next with
  | none => simp [poolDiskLimit, hpool] at h
  | some pool =>
    simp only [poolDiskLimit, hpool, u64ToI64] at h
    split at h
    · exact congrArg some (Except.ok.inj h)
    · cases h

variable {instanceId : String} {reservation : TenantReservation}

namespace Ledger

variable {ledger after : Ledger}

theorem putRuntime_eq_ok {row : EngineRuntime} (h : ledger.putRuntime row = .ok after) :
    after.runtimes = ledger.runtimes.insert row.runtimeId row ∧
      after.reservations = ledger.reservations ∧ after.instances = ledger.instances := by
  unfold putRuntime at h
  split at h
  · cases h
    exact ⟨rfl, rfl, rfl⟩
  · cases h

theorem putReservation_eq_ok (h : ledger.putReservation instanceId reservation = .ok after) :
    after.reservations = ledger.reservations.insert instanceId reservation ∧
      after.runtimes = ledger.runtimes ∧ after.instances = ledger.instances := by
  unfold putReservation at h
  split at h
  · split at h
    · cases h
      exact ⟨rfl, rfl, rfl⟩
    · cases h
  · cases h

end Ledger

/-- The counters, as the reservations have them. -/
def Ledger.counted (ledger : Ledger) (runtimeId : String) : RuntimeReservation :=
  ⟨ledger.tenantCount runtimeId, ledger.reservedDiskMib runtimeId⟩

theorem syncRuntimeCapacity_eq_ok {ledger after : Ledger} {runtimeId : String}
    (h : syncRuntimeCapacity runtimeId ledger = .ok after) :
    ∃ row, ledger.runtimes.lookup runtimeId = some row ∧
      after.runtimes = ledger.runtimes.insert row.runtimeId
        { row with reserved := ledger.counted runtimeId } ∧
      after.reservations = ledger.reservations ∧ after.instances = ledger.instances := by
  simp only [syncRuntimeCapacity, bind_eq_ok, require_eq_ok, findRow_eq_ok] at h
  obtain ⟨row, hrow, -, -, -, -, h⟩ := h
  exact ⟨row, hrow, Ledger.putRuntime_eq_ok h⟩

/-! ## Rows that can be read back -/

variable {runtime : EngineRuntime}

theorem EngineRuntime.check_eq_ok :
    runtime.check = .ok () ↔
      (runtime.runtimeId.toList.all isWhitespace = false ∧
        supports runtime.deploymentMode runtime.protocol = true ∧ runtime.checkOwner = .ok ()) ∧
      (validateRuntimeLimits runtime.limits.cpuCores runtime.limits.memoryMib = .ok () ∧
        runtime.limits.diskMib ≠ 0) ∧
      runtime.maxTenants ≠ 0 ∧
      (runtime.deploymentMode = .dedicated → runtime.maxTenants = 1) ∧
      runtime.reserved.tenants ≤ runtime.maxTenants ∧
      runtime.reserved.diskMib ≤ runtime.limits.diskMib := by
  simp only [EngineRuntime.check, bind_eq_ok, require_eq_ok, mapError_eq_ok]
  simp [and_assoc, Unique.exists_iff, imp_iff_not_or]

theorem EngineRuntime.le_of_checks {row : EngineRuntime} (h : row.checks = true) :
    row.reserved.tenants ≤ row.maxTenants ∧ row.reserved.diskMib ≤ row.limits.diskMib := by
  simp only [EngineRuntime.checks, Bool.and_eq_true, decide_eq_true_eq] at h
  exact ⟨h.1.1.1.2, h.1.1.2⟩

/-- A row with other counters can be read back if the table accepts it. -/
theorem EngineRuntime.check_reserved {row : EngineRuntime} {reserved : RuntimeReservation}
    (h : row.check = .ok ()) (hchecks : { row with reserved := reserved }.checks = true) :
    { row with reserved := reserved }.check = .ok () := by
  obtain ⟨hidentity, hlimits, htenants, hdedicated, -⟩ := check_eq_ok.mp h
  exact check_eq_ok.mpr ⟨hidentity, hlimits, htenants, hdedicated, le_of_checks hchecks⟩

/-- A saved row can be read back if the table accepts it. -/
theorem EngineRuntime.check_savedRow {row : EngineRuntime} (h : row.check = .ok ())
    (hruntime : runtime.check = .ok ()) (hchecks : (savedRow row runtime).checks = true) :
    (savedRow row runtime).check = .ok () := by
  obtain ⟨-, hlimits, -⟩ := check_eq_ok.mp h
  obtain ⟨hidentity, hlimits', htenants, hdedicated, -⟩ := check_eq_ok.mp hruntime
  refine check_eq_ok.mpr ⟨hidentity, ?_, htenants, hdedicated, le_of_checks hchecks⟩
  simp only [savedRow]
  split
  · exact hlimits'
  · exact hlimits

/-! ## Exact ledgers -/

/-- The disk of the runtime covers what its tenants have reserved. -/
def Fits (row : EngineRuntime) : Prop :=
  ∃ pool, poolDiskMib row.protocol row.reserved.diskMib = some pool ∧ pool ≤ row.limits.diskMib

structure Ledger.Exact (ledger : Ledger) : Prop where
  stored : ∀ id row, ledger.runtimes.lookup id = some row → row.runtimeId = id ∧ row.check = .ok ()
  counted : ∀ id row, ledger.runtimes.lookup id = some row → row.deploymentMode = .shared →
    row.reserved = ledger.counted id
  fits : ∀ id row, ledger.runtimes.lookup id = some row → row.deploymentMode = .shared → Fits row
  housed : ∀ id reservation, ledger.reservations.lookup id = some reservation →
    (ledger.runtimes.lookup reservation.runtimeId).isSome
  attached : ∀ id inst, ledger.instances.lookup id = some inst →
    ∃ reservation, ledger.reservations.lookup id = some reservation ∧
      reservation.runtimeId = inst.runtimeId

/-- The next ledger is exact and has all runtimes of the one before. -/
structure Ledger.Leads (ledger after : Ledger) : Prop where
  exact : after.Exact
  runtimes : ∀ id, (ledger.runtimes.lookup id).isSome → (after.runtimes.lookup id).isSome

namespace Ledger.Exact

variable {ledger after : Ledger}

theorem empty : Ledger.empty.Exact := by
  constructor <;> exact fun _ _ h => by cases h

section Rows

variable (h : ledger.Exact) {row : EngineRuntime}
  (hothers : ∀ id, id ≠ row.runtimeId → after.counted id = ledger.counted id)
  (hhoused : ∀ id reservation, after.reservations.lookup id = some reservation →
    reservation.runtimeId = row.runtimeId ∨
      ∃ id', ledger.reservations.lookup id' = some reservation)
  (hattached : ∀ id inst, after.instances.lookup id = some inst →
    ∃ reservation, after.reservations.lookup id = some reservation ∧
      reservation.runtimeId = inst.runtimeId)

include h hothers hhoused hattached

/-- **One row is written**, and nothing was counted for another runtime. -/
theorem write
    (hruntimes : ∀ id, after.runtimes.lookup id =
      if id = row.runtimeId then some row else ledger.runtimes.lookup id)
    (hcheck : row.check = .ok ())
    (hcounted : row.deploymentMode = .shared → row.reserved = after.counted row.runtimeId)
    (hfits : row.deploymentMode = .shared → Fits row) : ledger.Leads after := by
  have hcases : ∀ id other, after.runtimes.lookup id = some other →
      id = row.runtimeId ∧ other = row ∨
        id ≠ row.runtimeId ∧ ledger.runtimes.lookup id = some other := by
    intro id other hother
    rw [hruntimes] at hother
    split at hother
    · exact .inl ⟨by assumption, (Option.some.inj hother).symm⟩
    · exact .inr ⟨by assumption, hother⟩
  have hkept : ∀ id, (ledger.runtimes.lookup id).isSome → (after.runtimes.lookup id).isSome := by
    intro id hid
    rw [hruntimes]
    split
    · rfl
    · exact hid
  refine ⟨⟨fun id other hother => ?_, fun id other hother hshared => ?_,
    fun id other hother hshared => ?_, fun id reservation hreservation => ?_, hattached⟩, hkept⟩
  · rcases hcases id other hother with ⟨rfl, rfl⟩ | ⟨-, hold⟩
    · exact ⟨rfl, hcheck⟩
    · exact h.stored id other hold
  · rcases hcases id other hother with ⟨rfl, rfl⟩ | ⟨hne, hold⟩
    · exact hcounted hshared
    · rw [hothers id hne]
      exact h.counted id other hold hshared
  · rcases hcases id other hother with ⟨rfl, rfl⟩ | ⟨-, hold⟩
    · exact hfits hshared
    · exact h.fits id other hold hshared
  · rcases hhoused id reservation hreservation with hid | ⟨id', hold⟩
    · rw [hid, hruntimes, if_pos rfl]
      rfl
    · exact hkept _ (h.housed id' reservation hold)

/-- **A runtime is counted again.** -/
theorem recount (hrow : ledger.runtimes.lookup row.runtimeId = some row)
    (hruntimes : ∀ id, after.runtimes.lookup id =
      if id = row.runtimeId then some { row with reserved := after.counted row.runtimeId }
      else ledger.runtimes.lookup id)
    (hfits : row.deploymentMode = .shared →
      Fits { row with reserved := after.counted row.runtimeId }) : ledger.Leads after := by
  have hwritten := hruntimes row.runtimeId
  rw [if_pos rfl] at hwritten
  have hcheck := EngineRuntime.check_reserved (h.stored _ _ hrow).2 (after.checked _ _ hwritten)
  exact @write _ after h { row with reserved := after.counted row.runtimeId } hothers hhoused
    hattached hruntimes hcheck (fun _ => rfl) hfits

end Rows

end Ledger.Exact

/-! ## How the counters change -/

namespace Ledger

variable {ledger after : Ledger} {id : String}

/-- What a reservation counts for. -/
def share (id : String) (reservation : Option TenantReservation) : RuntimeReservation :=
  match reservation with
  | none => ⟨0, 0⟩
  | some reservation =>
    if reservation.runtimeId = id then ⟨1, reservation.limits.diskMib⟩ else ⟨0, 0⟩

/-- The counters without the reservation of an instance. -/
def rest (ledger : Ledger) (instanceId id : String) : RuntimeReservation :=
  (ledger.dropReservation instanceId).counted id

theorem counted_eq (ledger : Ledger) (instanceId id : String) :
    ledger.counted id =
      ⟨(share id (ledger.reservations.lookup instanceId)).tenants +
          (ledger.rest instanceId id).tenants,
        (share id (ledger.reservations.lookup instanceId)).diskMib +
          (ledger.rest instanceId id).diskMib⟩ := by
  simp only [counted, rest, tenantCount, reservedDiskMib, dropReservation]
  rw [Map.total_eq ledger.reservations instanceId, Map.total_eq ledger.reservations instanceId]
  cases ledger.reservations.lookup instanceId with
  | none => simp [share]
  | some reservation =>
    by_cases hid : reservation.runtimeId = id <;> simp [share, hid]

theorem counted_of_insert
    (h : after.reservations = ledger.reservations.insert instanceId reservation) :
    after.counted id =
      ⟨(share id (some reservation)).tenants + (ledger.rest instanceId id).tenants,
        (share id (some reservation)).diskMib + (ledger.rest instanceId id).diskMib⟩ := by
  simp only [counted, rest, tenantCount, reservedDiskMib, dropReservation, h, Map.total_insert]
  by_cases hid : reservation.runtimeId = id <;> simp [share, hid]

theorem counted_of_erase (h : after.reservations = ledger.reservations.erase instanceId) :
    after.counted id = ledger.rest instanceId id := by
  simp only [counted, rest, tenantCount, reservedDiskMib, dropReservation, h]

theorem share_of_ne {reservation : Option TenantReservation}
    (h : ∀ r, reservation = some r → r.runtimeId ≠ id) : share id reservation = ⟨0, 0⟩ := by
  cases reservation with
  | none => rfl
  | some reservation => exact if_neg (h reservation rfl)

end Ledger

/-! ## Every transaction leads to an exact ledger -/

namespace Ledger.Exact

variable {ledger after : Ledger}

variable (h : ledger.Exact)
include h

variable {row : EngineRuntime}

theorem rest_disk_add (instanceId : String) (hrow : ledger.runtimes.lookup row.runtimeId = some row)
    (hshared : row.deploymentMode = .shared) :
    (share row.runtimeId (ledger.reservations.lookup instanceId)).diskMib +
      (ledger.rest instanceId row.runtimeId).diskMib = row.reserved.diskMib := by
  rw [h.counted _ _ hrow hshared, counted_eq ledger instanceId]

/-- The reservation of an instance changes, and its runtime is counted again. -/
theorem change {booked : RuntimeReservation} {changed : Ledger}
    (hrow : ledger.runtimes.lookup row.runtimeId = some row)
    (hold : ∀ old, ledger.reservations.lookup instanceId = some old →
      old.runtimeId = row.runtimeId) (hnew : reservation.runtimeId = row.runtimeId)
    (hruntimes : changed.runtimes = ledger.runtimes.insert row.runtimeId
      { row with reserved := booked })
    (hreservations : changed.reservations = ledger.reservations.insert instanceId reservation)
    (hinstances : ∀ id inst, changed.instances.lookup id = some inst →
      ∃ old, ledger.instances.lookup id = some old ∧ old.runtimeId = inst.runtimeId)
    (hfits : ∃ pool, poolDiskMib row.protocol
      (reservation.limits.diskMib + (ledger.rest instanceId row.runtimeId).diskMib) = some pool ∧
        pool ≤ row.limits.diskMib) (hsync : syncRuntimeCapacity row.runtimeId changed = .ok after) :
    ledger.Leads after := by
  obtain ⟨found, hfound, hafter, hsame, hkept⟩ := syncRuntimeCapacity_eq_ok hsync
  rw [hruntimes, AList.lookup_insert] at hfound
  obtain rfl := Option.some.inj hfound
  have hcounted : ∀ id, after.counted id = changed.counted id := fun id => by
    simp only [Ledger.counted, tenantCount, reservedDiskMib, hsame]
  refine h.recount (fun id hne => ?_) (fun id other hother => ?_) (fun id inst hinst => ?_) hrow
    (fun id => ?_) (fun _ => ?_)
  · rw [hcounted, counted_of_insert hreservations, counted_eq ledger instanceId,
      share_of_ne fun r hr => (hold r hr).trans_ne hne.symm,
      share_of_ne fun r hr => (Option.some.inj hr ▸ hnew).trans_ne hne.symm]
  · rw [hsame, hreservations] at hother
    rcases Map.lookup_insert_eq hother with ⟨-, rfl⟩ | ⟨-, hother⟩
    · exact .inl hnew
    · exact .inr ⟨id, hother⟩
  · rw [hkept] at hinst
    obtain ⟨old, hinstOld, hruntime⟩ := hinstances id inst hinst
    obtain ⟨other, hother, hotherRuntime⟩ := h.attached id old hinstOld
    rw [hsame, hreservations, Map.lookup_insert_ite]
    split
    · subst id
      exact ⟨reservation, rfl, by rw [hnew, ← hold other hother, hotherRuntime, hruntime]⟩
    · exact ⟨other, hother, hotherRuntime.trans hruntime⟩
  · rw [hafter, hcounted, Map.lookup_insert_ite, hruntimes, Map.lookup_insert_ite]
    split <;> rfl
  · obtain ⟨pool, hpool, hle⟩ := hfits
    refine ⟨pool, ?_, hle⟩
    rw [hcounted, counted_of_insert hreservations]
    simpa [share, hnew] using hpool

theorem reserve {request : ReserveTenant}
    (hreserve : Placement.reserve request ledger = .ok after) : ledger.Leads after := by
  simp only [Placement.reserve, bind_eq_ok, require_eq_ok, findRow_eq_ok, Bool.and_eq_true,
    decide_eq_true_eq, Option.isNone_iff_eq_none] at hreserve
  obtain ⟨-, -, -, -, -, -, -, -, -, -, -, -, row, hrow, -, -, limit, hlimit, -, hnone, -, -, -, -,
    -, ⟨⟨⟨⟨⟨hshared, -⟩, -⟩, -⟩, -⟩, hle⟩, updated, hupdated, inserted, hinserted, hsync⟩ := hreserve
  obtain ⟨hid, -⟩ := h.stored _ _ hrow
  rw [← hid] at hrow hsync
  obtain ⟨hruntimes, hreservations, hinstances⟩ := putRuntime_eq_ok hupdated
  obtain ⟨hreservations', hruntimes', hinstances'⟩ := putReservation_eq_ok hinserted
  have hdisk := h.rest_disk_add request.instanceId hrow hshared
  rw [hnone] at hdisk
  rw [hreservations] at hreservations'
  refine h.change hrow (fun old hold => ?_) hid.symm (hruntimes'.trans hruntimes) hreservations'
    (fun id inst hinst => ⟨inst, ?_, rfl⟩) ⟨limit, ?_, hle⟩ hsync
  · rw [hnone] at hold
    cases hold
  · rwa [hinstances', hinstances] at hinst
  · rw [← poolDiskLimit_eq_ok hlimit, ← hdisk]
    simp [share, Nat.add_comm]

/-- The reservation of an instance is dropped, and its runtime is counted again. -/
theorem drop (hrow : ledger.runtimes.lookup row.runtimeId = some row)
    (hold : ∀ old, ledger.reservations.lookup instanceId = some old →
      old.runtimeId = row.runtimeId)
    (hruntimes : after.runtimes = ledger.runtimes.insert row.runtimeId
      { row with reserved := after.counted row.runtimeId })
    (hreservations : after.reservations = ledger.reservations.erase instanceId)
    (hinstances : ∀ id inst, after.instances.lookup id = some inst →
      id ≠ instanceId ∧ ledger.instances.lookup id = some inst) : ledger.Leads after := by
  refine h.recount (fun id hne => ?_) (fun id other hother => ?_) (fun id inst hinst => ?_) hrow
    (fun id => ?_) (fun hshared => ?_)
  · rw [counted_of_erase hreservations, counted_eq ledger instanceId,
      share_of_ne fun r hr => (hold r hr).trans_ne hne.symm]
    simp
  · rw [hreservations] at hother
    exact .inr ⟨id, Map.lookup_of_erase hother⟩
  · obtain ⟨hne, hinstOld⟩ := hinstances id inst hinst
    rw [hreservations, AList.lookup_erase_ne hne]
    exact h.attached id inst hinstOld
  · rw [hruntimes, Map.lookup_insert_ite]
  · obtain ⟨pool, hpool, hle⟩ := h.fits _ _ hrow hshared
    have hdisk := h.rest_disk_add instanceId hrow hshared
    obtain ⟨pool', hpool', hle'⟩ := poolDiskMib_mono (Nat.le_add_left _ _) (hdisk ▸ hpool)
    refine ⟨pool', ?_, hle'.trans hle⟩
    rw [counted_of_erase hreservations]
    exact hpool'

theorem release (hrelease : Placement.release instanceId ledger = .ok after) :
    ledger.Leads after := by
  simp only [Placement.release, bind_eq_ok, require_eq_ok, Option.isNone_iff_eq_none] at hrelease
  obtain ⟨-, hdetached, hrelease⟩ := hrelease
  have hstays : ledger.Leads ledger := ⟨h, fun _ hid => hid⟩
  cases hold : ledger.reservations.lookup instanceId with
  | none =>
    rw [hold] at hrelease
    cases hrelease
    exact hstays
  | some old =>
    simp only [hold] at hrelease
    cases hrow : ledger.runtimes.lookup old.runtimeId with
    | none =>
      rw [hrow] at hrelease
      cases hrelease
      exact hstays
    | some row =>
      simp only [hrow] at hrelease
      obtain ⟨hid, -⟩ := h.stored _ _ hrow
      obtain ⟨found, hfound, hruntimes, hreservations, hinstances⟩ :=
        syncRuntimeCapacity_eq_ok hrelease
      obtain rfl : row = found := Option.some.inj (hrow.symm.trans hfound)
      rw [← hid] at hrow hruntimes
      refine h.drop hrow (fun other hother => ?_) ?_ hreservations (fun id inst hinst => ?_)
      · rw [hold] at hother
        rw [← Option.some.inj hother, hid]
      · rw [hruntimes, counted_of_erase hreservations]
        rfl
      · rw [hinstances] at hinst
        refine ⟨fun heq => ?_, hinst⟩
        subst heq
        cases hinst.symm.trans hdetached

theorem deleteInstance (hdelete : Placement.deleteInstance instanceId ledger = .ok after) :
    ledger.Leads after := by
  cases hinst : ledger.instances.lookup instanceId with
  | none =>
    simp only [Placement.deleteInstance, hinst] at hdelete
    cases hdelete
    exact ⟨h, fun _ hid => hid⟩
  | some inst =>
    obtain ⟨reservation, hreservation, hruntime⟩ := h.attached _ _ hinst
    have hhoused := h.housed _ _ hreservation
    rw [hruntime] at hhoused
    obtain ⟨row, hrow⟩ := Option.isSome_iff_exists.mp hhoused
    obtain ⟨hid, -⟩ := h.stored _ _ hrow
    simp only [Placement.deleteInstance, hinst, dropReservation, dropInstance, hrow, bind_eq_ok]
      at hdelete
    obtain ⟨-, -, hput⟩ := hdelete
    obtain ⟨hruntimes, hreservations, hinstances⟩ := putRuntime_eq_ok hput
    rw [← hid] at hrow
    refine h.drop hrow (fun other hother => ?_) ?_ hreservations (fun id other hother => ?_)
    · rw [hreservation] at hother
      rw [← Option.some.inj hother, hid, hruntime]
    · rw [hruntimes, counted_of_erase hreservations, hid]
      rfl
    · rw [hinstances] at hother
      refine ⟨fun heq => ?_, Map.lookup_of_erase hother⟩
      rw [heq, AList.lookup_erase] at hother
      cases hother

theorem resize {requested : InstanceLimits}
    (hresize : Placement.resize instanceId requested ledger = .ok after) : ledger.Leads after := by
  simp only [Placement.resize, bind_eq_ok, require_eq_ok, findRow_eq_ok, Bool.and_eq_true,
    decide_eq_true_eq] at hresize
  obtain ⟨-, -, -, -, -, -, old, hold, row, hrow, -, -, limit, hlimit, -,
    ⟨⟨⟨⟨hshared, -⟩, -⟩, -⟩, hle⟩, updated, hupdated, changed, hchanged, inst, hinst, -, hsame, -, -,
    hsync⟩ := hresize
  obtain ⟨hid, -⟩ := h.stored _ _ hrow
  rw [← hid] at hrow hsync
  obtain ⟨hruntimes, hreservations, hinstances⟩ := putRuntime_eq_ok hupdated
  obtain ⟨hreservations', hruntimes', hinstances'⟩ := putReservation_eq_ok hchanged
  have hdisk := h.rest_disk_add instanceId hrow hshared
  rw [hreservations] at hreservations'
  rw [hinstances', hinstances] at hinst
  have hnew : { old with limits := requested }.runtimeId = row.runtimeId := hid.symm
  have hrows : (changed.putInstance instanceId { inst with limits := requested }).runtimes = _ :=
    hruntimes'.trans hruntimes
  refine h.change hrow (fun other hother => ?_) hnew hrows hreservations'
    (fun id other hother => ?_) ⟨limit, ?_, hle⟩ hsync
  · rw [hold] at hother
    rw [← Option.some.inj hother, hid]
  · simp only [putInstance, hinstances', hinstances] at hother
    rcases Map.lookup_insert_eq hother with ⟨rfl, rfl⟩ | ⟨-, hother⟩
    · exact ⟨inst, hinst, rfl⟩
    · exact ⟨other, hother, rfl⟩
  · have hshare : share row.runtimeId (some old) = ⟨1, old.limits.diskMib⟩ := if_pos hid.symm
    have hnext : row.reserved.diskMib - old.limits.diskMib + requested.diskMib =
        requested.diskMib + (ledger.rest instanceId row.runtimeId).diskMib := by
      simp only [hold, hshare] at hdisk
      omega
    rw [← poolDiskLimit_eq_ok hlimit, hnext]

/-- Nothing that is counted changes. -/
theorem same (hruntimes : after.runtimes = ledger.runtimes)
    (hcounted : ∀ id, after.counted id = ledger.counted id)
    (hhoused : ∀ id reservation, after.reservations.lookup id = some reservation →
      (ledger.runtimes.lookup reservation.runtimeId).isSome)
    (hattached : ∀ id inst, after.instances.lookup id = some inst →
      ∃ reservation, after.reservations.lookup id = some reservation ∧
        reservation.runtimeId = inst.runtimeId) : ledger.Leads after := by
  refine ⟨⟨?_, ?_, ?_, ?_, hattached⟩, fun id hid => ?_⟩
  · rw [hruntimes]
    exact h.stored
  · intro id row hrow hshared
    rw [hruntimes] at hrow
    rw [hcounted, h.counted id row hrow hshared]
  · rw [hruntimes]
    exact h.fits
  · rw [hruntimes]
    exact hhoused
  · rwa [hruntimes]

theorem markProvisioned (hmark : Placement.markProvisioned instanceId ledger = .ok after) :
    ledger.Leads after := by
  cases hold : ledger.reservations.lookup instanceId with
  | none =>
    simp only [Placement.markProvisioned, hold] at hmark
    cases hmark
    exact ⟨h, fun _ hid => hid⟩
  | some old =>
    simp only [Placement.markProvisioned, hold] at hmark
    obtain ⟨hreservations, hruntimes, hinstances⟩ := putReservation_eq_ok hmark
    refine h.same hruntimes (fun id => ?_) (fun id other hother => ?_) (fun id inst hinst => ?_)
    · rw [counted_of_insert hreservations, counted_eq ledger instanceId, hold]
      rfl
    · rw [hreservations] at hother
      rcases Map.lookup_insert_eq hother with ⟨rfl, rfl⟩ | ⟨-, hother⟩
      · exact h.housed id old hold
      · exact h.housed id other hother
    · rw [hinstances] at hinst
      obtain ⟨other, hother, hruntime⟩ := h.attached id inst hinst
      rw [hreservations, Map.lookup_insert_ite]
      split
      · subst id
        exact ⟨_, rfl, by rw [← hruntime, ← Option.some.inj (hold.symm.trans hother)]⟩
      · exact ⟨other, hother, hruntime⟩

theorem attach {inst : SharedInstance}
    (hattach : Placement.attach instanceId inst ledger = .ok after) : ledger.Leads after := by
  simp only [Placement.attach, checkInstance, bind_eq_ok, require_eq_ok, decide_eq_true_eq]
    at hattach
  obtain ⟨-, ⟨-, -, hexact⟩, hput⟩ := hattach
  cases hput
  refine h.same rfl (fun _ => rfl) h.housed (fun id other hother => ?_)
  rcases Map.lookup_insert_eq hother with ⟨rfl, rfl⟩ | ⟨-, hother⟩
  · exact ⟨_, hexact, rfl⟩
  · exact h.attached id other hother

/-- A runtime without a row has no reservation. -/
theorem counted_of_none {id : String} (hid : ledger.runtimes.lookup id = none) :
    ledger.counted id = ⟨0, 0⟩ := by
  have hne : ∀ key reservation, ledger.reservations.lookup key = some reservation →
      reservation.runtimeId ≠ id := by
    rintro key reservation hreservation rfl
    have hhoused := h.housed key reservation hreservation
    rw [hid] at hhoused
    cases hhoused
  refine congr (congrArg RuntimeReservation.mk (Map.total_eq_zero fun key reservation hkey => ?_))
    (Map.total_eq_zero fun key reservation hkey => ?_)
  · exact if_neg (hne key reservation hkey)
  · exact if_neg (hne key reservation hkey)

/-- A row is put, and nothing else changes. -/
theorem put (hput : ledger.putRuntime row = .ok after) (hcheck : row.check = .ok ())
    (hcounted : row.deploymentMode = .shared → row.reserved = ledger.counted row.runtimeId)
    (hfits : row.deploymentMode = .shared → Fits row) : ledger.Leads after := by
  obtain ⟨hruntimes, hreservations, hinstances⟩ := putRuntime_eq_ok hput
  have hsame : ∀ id, after.counted id = ledger.counted id := fun id => by
    simp only [Ledger.counted, tenantCount, reservedDiskMib, hreservations]
  refine h.write (fun id _ => hsame id) (fun id reservation hid => ?_) (fun id inst hid => ?_)
    (fun id => ?_) hcheck (fun hshared => ?_) hfits
  · exact .inr ⟨id, hreservations ▸ hid⟩
  · rw [hreservations]
    exact h.attached id inst (hinstances ▸ hid)
  · rw [hruntimes, Map.lookup_insert_ite]
  · rw [hsame, hcounted hshared]

/-- **A stale value does no harm**: its limits are written only over the counters it fits. -/
theorem save (hfits : runtime.deploymentMode = .shared → Fits runtime)
    (hnew : ledger.runtimes.lookup runtime.runtimeId = none → runtime.deploymentMode = .shared →
      runtime.reserved = ⟨0, 0⟩) (hsave : Placement.save runtime ledger = .ok after) :
    ledger.Leads after := by
  simp only [Placement.save, bind_eq_ok, mapError_eq_ok] at hsave
  obtain ⟨_, hcheck, -, -, -, -, -, -, -, -, hsave⟩ := hsave
  cases hrow : ledger.runtimes.lookup runtime.runtimeId with
  | none =>
    simp only [hrow] at hsave
    refine h.put hsave hcheck (fun hshared => ?_) hfits
    rw [h.counted_of_none hrow, hnew hrow hshared]
  | some row =>
    simp only [hrow, bind_eq_ok, require_eq_ok] at hsave
    obtain ⟨-, hidentity, -, -, hput⟩ := hsave
    have hsame : row.protocol = runtime.protocol ∧ row.deploymentMode = runtime.deploymentMode := by
      simp only [keepsIdentity, Bool.or_eq_true, Bool.and_eq_true, decide_eq_true_eq] at hidentity
      rcases hidentity with ⟨⟨-, hprotocol⟩, hmode⟩ | ⟨⟨⟨⟨hmode, hmode'⟩, hprotocol⟩, -⟩, -⟩
      · exact ⟨hprotocol, hmode⟩
      · exact ⟨hprotocol, hmode.trans hmode'.symm⟩
    have hchecks := after.checked runtime.runtimeId (savedRow row runtime)
      (by rw [(putRuntime_eq_ok hput).1]; exact AList.lookup_insert _)
    have hcheck' := EngineRuntime.check_savedRow (h.stored _ _ hrow).2 hcheck hchecks
    have hcounted := fun hshared => h.counted _ _ hrow (hsame.2.trans hshared)
    refine h.put hput hcheck' hcounted (fun hshared => ?_)
    -- the counters are those of the value, or the limits are those of the row
    by_cases hreserved : row.reserved = runtime.reserved
    · obtain ⟨pool, hpool, hle⟩ := hfits hshared
      exact ⟨pool, by simpa only [savedRow, hreserved] using hpool,
        by simpa only [savedRow, hreserved, if_true] using hle⟩
    · obtain ⟨pool, hpool, hle⟩ := h.fits _ _ hrow (hsame.2.trans hshared)
      exact ⟨pool, by simpa only [savedRow, hsame.1] using hpool,
        by simpa only [savedRow, hreserved, if_false] using hle⟩

end Ledger.Exact

end DatabasesEverywhere.Placement
