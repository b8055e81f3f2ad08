import DatabasesEverywhere.Foundations.Maps
import DatabasesEverywhere.Foundations.Result
import DatabasesEverywhere.Foundations.Runs
import DatabasesEverywhere.Foundations.Saturating

/-!
# Disk/CapacityService — disk space that is reserved before it is written

A gate lets one `reserve` at a time read what is reserved on its file system, sample the free space
and record its request.  A reservation is released when it is dropped, whoever holds the gate.

    lock ──▸ sampled ──▸ finish         a call; it may be cancelled at each of its awaits
    ··· drop ······ drop ····· drop     reservations, at any time

What is recorded is the sum of the reservations there are, so while a call holds the gate the sum
stays at or below what the call has read.
-/

open Foundations

namespace DatabasesEverywhere.Disk

def diskSafetyReserveBytes : ℕ := 64 * 1024 * 1024

structure FilesystemIdentity where
  identity : String
  deriving DecidableEq

def filesystemIdentity (dev : ℕ) : FilesystemIdentity := ⟨"unix-device:" ++ toString dev⟩

inductive CapacityError
  | inspectRoot (error : String)
  | invalidRoot
  | identifyFilesystem (error : String)
  | pathNotUtf8
  | inspectCapacity (error : String)
  | overflow
  | insufficient (required available : ℕ)
  deriving DecidableEq

def requiredCapacity (requested alreadyReserved : ℕ) : Except CapacityError ℕ :=
  if requested + alreadyReserved + diskSafetyReserveBytes ≤ u64Max then
    .ok (requested + alreadyReserved + diskSafetyReserveBytes)
  else .error .overflow

/-- `ensure_disk_space`, with the answer to its sample of the free space. -/
def ensureDiskSpace (sample : Except CapacityError ℕ) (requested alreadyReserved : ℕ) :
    Except CapacityError Unit := do
  let available ← sample
  let required ← requiredCapacity requested alreadyReserved
  if available < required then .error (.insufficient required available) else .ok ()

structure DiskCapacityReservation where
  filesystem : FilesystemIdentity
  bytes : ℕ
  deriving DecidableEq

/-- The `Drop` of a reservation: the totals after it, or the assertion that fails. -/
def DiskCapacityReservation.release (reservation : DiskCapacityReservation)
    (totals : Map FilesystemIdentity ℕ) : Except String (Map FilesystemIdentity ℕ) :=
  match totals.lookup reservation.filesystem with
  | none => .error "output capacity reservation identity was missing"
  | some total =>
    if total < reservation.bytes then .error "output capacity reservation underflow"
    else if total - reservation.bytes = 0 then .ok (totals.erase reservation.filesystem)
    else .ok (totals.insert reservation.filesystem (total - reservation.bytes))

/-- A call of `reserve` that holds the gate. -/
structure ReserveCall where
  filesystem : FilesystemIdentity
  requested : ℕ
  alreadyReserved : ℕ
  sample : Option (Except CapacityError ℕ) := none

structure DiskCapacityService where
  gate : Option ReserveCall := none
  totals : Map FilesystemIdentity ℕ := ∅
  /-- the reservations that are not dropped yet -/
  live : List DiskCapacityReservation := []

inductive CapacityAction
  /-- A call comes with the device of its root, or with why it has none. -/
  | lock (root : Except CapacityError ℕ) (requested : ℕ)
  | sampled (sample : Except CapacityError ℕ)
  | finish
  /-- The call that holds the gate is dropped at an await. -/
  | cancel
  | drop (reservation : DiskCapacityReservation)

namespace DiskCapacityService

variable (service : DiskCapacityService) (filesystem : FilesystemIdentity)

def reserved : ℕ :=
  (service.totals.lookup filesystem).getD 0

variable (reservation : DiskCapacityReservation)

/-- What a reservation takes of a file system. -/
def share : ℕ :=
  if filesystem = reservation.filesystem then reservation.bytes else 0

def liveBytes : ℕ :=
  (service.live.map (share filesystem)).sum

/-- `reserve`, up to its sample: a call waits while another holds the gate, and ends if its root is
no good. -/
def lock (root : Except CapacityError ℕ) (requested : ℕ) : DiskCapacityService :=
  match service.gate, root with
  | none, .ok dev =>
    let filesystem := filesystemIdentity dev
    { service with
      gate := some { filesystem, requested, alreadyReserved := service.reserved filesystem } }
  | _, _ => service

/-- `reserve`, behind its sample. -/
def finish (call : ReserveCall) (sample : Except CapacityError ℕ) :
    Except CapacityError DiskCapacityReservation × DiskCapacityService :=
  match ensureDiskSpace sample call.requested call.alreadyReserved with
  | .error error => (.error error, { service with gate := none })
  | .ok () =>
    let total := service.reserved call.filesystem
    if total + call.requested ≤ u64Max then
      (.ok ⟨call.filesystem, call.requested⟩,
        { gate := none
          totals := service.totals.insert call.filesystem (total + call.requested)
          live := ⟨call.filesystem, call.requested⟩ :: service.live })
    else
      -- the entry is there by now
      (.error .overflow,
        { service with gate := none, totals := service.totals.insert call.filesystem total })

/-- A reservation is dropped. -/
def drop : DiskCapacityService where
  gate := service.gate
  totals := (reservation.release service.totals).toOption.getD service.totals
  live := service.live.erase reservation

def step : CapacityAction → DiskCapacityService
  | .lock root requested => service.lock root requested
  | .sampled sample =>
    { service with
      gate := service.gate.map fun call => { call with sample := call.sample.or (some sample) } }
  | .finish =>
    match service.gate with
    | none => service
    | some call => call.sample.elim service fun sample => (service.finish call sample).2
  | .cancel => { service with gate := none }
  | .drop reservation => if reservation ∈ service.live then service.drop reservation else service

/-! ## What every run keeps -/

structure Sound (service : DiskCapacityService) : Prop where
  total : ∀ filesystem, service.reserved filesystem = service.liveBytes filesystem
  positive : ∀ reservation ∈ service.live, 1 ≤ reservation.bytes
  gate : ∀ call, service.gate = some call →
    1 ≤ call.requested ∧ service.liveBytes call.filesystem ≤ call.alreadyReserved

variable {service} {call : ReserveCall} {sample : Except CapacityError ℕ} {reservation}

theorem sound_default : Sound {} :=
  ⟨fun _ => rfl, nofun, nofun⟩

section SoundService

variable (h : service.Sound)
include h

theorem Sound.leave : Sound { service with gate := none } :=
  ⟨h.total, h.positive, nofun⟩

theorem Sound.lock (root : Except CapacityError ℕ) {requested : ℕ} (hrequested : 1 ≤ requested) :
    (service.lock root requested).Sound := by
  unfold DiskCapacityService.lock
  split
  · refine ⟨h.total, h.positive, fun call hcall => ?_⟩
    cases hcall
    exact ⟨hrequested, (h.total _).ge⟩
  · exact h

theorem Sound.finish (hcall : service.gate = some call) (sample : Except CapacityError ℕ) :
    (service.finish call sample).2.Sound := by
  unfold DiskCapacityService.finish
  split
  · exact h.leave
  dsimp only
  split
  · refine ⟨fun filesystem => ?_, List.forall_mem_cons.mpr ⟨(h.gate call hcall).1, h.positive⟩,
      nofun⟩
    have htotal := h.total filesystem
    by_cases hsame : filesystem = call.filesystem
    · subst hsame
      simp_all [reserved, liveBytes, share, Nat.add_comm]
    · simp_all [reserved, liveBytes, share]
  · refine ⟨fun filesystem => Eq.trans ?_ (h.total filesystem), h.positive, nofun⟩
    simp only [reserved, Map.lookup_insert_ite]
    split
    · next hsame => rw [hsame, Option.getD_some]
    · rfl

/-- **A drop finds its entry**, with at least its own size. -/
theorem Sound.release (hmem : reservation ∈ service.live) :
    ∃ totals, reservation.release service.totals = .ok totals ∧ ∀ filesystem,
      share filesystem reservation + (totals.lookup filesystem).getD 0 =
        service.reserved filesystem := by
  have hpositive := h.positive reservation hmem
  have hshare : reservation.bytes ≤ service.liveBytes reservation.filesystem :=
    (if_pos rfl : share _ reservation = _).ge.trans
      (List.single_le_sum (fun _ _ => Nat.zero_le _) _ (List.mem_map_of_mem hmem))
  rw [← h.total, reserved] at hshare
  cases htotal : service.totals.lookup reservation.filesystem with
  | none =>
    rw [htotal, Option.getD_none] at hshare
    omega
  | some total =>
    rw [htotal, Option.getD_some] at hshare
    simp only [DiskCapacityReservation.release, htotal, if_neg (Nat.not_lt.mpr hshare)]
    split
    all_goals
      refine ⟨_, rfl, fun filesystem => ?_⟩
      by_cases hsame : filesystem = reservation.filesystem
      · subst hsame
        simp only [share, reserved, if_true, AList.lookup_erase, AList.lookup_insert, htotal,
          Option.getD]
        omega
      · simp [share, reserved, hsame, AList.lookup_erase_ne hsame, AList.lookup_insert_ne hsame]

theorem Sound.drop (hmem : reservation ∈ service.live) : (service.drop reservation).Sound := by
  obtain ⟨totals, hrelease, hreserved⟩ := h.release hmem
  have hlive := fun filesystem => List.sum_map_erase (share filesystem) hmem
  simp only [DiskCapacityService.drop, hrelease, Except.toOption, Option.getD_some]
  refine ⟨fun filesystem => ?_, fun other hother => h.positive other (List.mem_of_mem_erase hother),
    fun call hcall => ⟨(h.gate call hcall).1, ?_⟩⟩
  · have hbefore := (hreserved filesystem).trans ((h.total filesystem).trans (hlive filesystem).symm)
    exact Nat.add_left_cancel hbefore
  · refine Nat.le_trans ?_ (h.gate call hcall).2
    exact (Nat.le_add_left _ _).trans (hlive call.filesystem).le

theorem Sound.step (action : CapacityAction)
    (hrequest : ∀ root requested, action = .lock root requested → 1 ≤ requested) :
    (service.step action).Sound := by
  cases action with
  | lock root requested => exact h.lock root (hrequest root requested rfl)
  | sampled sample =>
    refine ⟨h.total, h.positive, fun call hcall => ?_⟩
    obtain ⟨before, hbefore, rfl⟩ := Option.map_eq_some_iff.mp hcall
    exact h.gate before hbefore
  | finish =>
    unfold DiskCapacityService.step
    dsimp only
    split
    · exact h
    · next call hcall =>
      cases call.sample with
      | none => exact h
      | some sample => exact h.finish hcall sample
  | cancel => exact h.leave
  | drop reservation =>
    unfold DiskCapacityService.step
    dsimp only
    split
    · next hmem => exact h.drop hmem
    · exact h

end SoundService

theorem finish_granted (h : (service.finish call sample).1 = .ok reservation) :
    ∃ available, sample = .ok available ∧
      call.alreadyReserved + call.requested + diskSafetyReserveBytes ≤ available := by
  unfold DiskCapacityService.finish at h
  split at h
  · cases h
  next hspace =>
  obtain ⟨available, rfl, hchecked⟩ := bind_eq_ok.mp hspace
  obtain ⟨required, hrequired, henough⟩ := bind_eq_ok.mp hchecked
  rw [requiredCapacity] at hrequired
  split at hrequired
  · cases hrequired
    split at henough
    · cases henough
    · exact ⟨available, rfl, by omega⟩
  · cases hrequired

/-- **Disk capacity reservations are exact**, in every run of calls that ask for at least a byte.
What is recorded for a file system is the sum of its live reservations.  From its reading of the
totals on, that sum is at most what a call has read; and it is granted a reservation only if its
sample has room for what it read, its request and the safety reserve.  And a drop finds its entry,
with at least its own size. -/
theorem reservations_exact (actions : List CapacityAction)
    (hrequests : ∀ root requested, .lock root requested ∈ actions → 1 ≤ requested) :
    let service := run step {} actions
    (∀ filesystem, service.reserved filesystem = service.liveBytes filesystem) ∧
      (∀ call, service.gate = some call →
        service.liveBytes call.filesystem ≤ call.alreadyReserved ∧
        ∀ sample reservation, call.sample = some sample →
          (service.finish call sample).1 = .ok reservation → ∃ available, sample = .ok available ∧
            call.alreadyReserved + call.requested + diskSafetyReserveBytes ≤ available) ∧
      ∀ reservation ∈ service.live, ∃ totals, reservation.release service.totals = .ok totals := by
  have hsound : ∀ (actions : List CapacityAction) {service : DiskCapacityService}, service.Sound →
      (∀ root requested, .lock root requested ∈ actions → 1 ≤ requested) →
      (run step service actions).Sound := by
    intro actions
    induction actions with
    | nil => exact fun h _ => h
    | cons action actions ih =>
      intro service h hrequests
      refine ih (h.step action fun root requested haction => ?_) fun root requested hmem =>
        hrequests root requested (List.mem_cons_of_mem _ hmem)
      exact hrequests root requested (haction ▸ List.mem_cons_self)
  have h := hsound actions sound_default hrequests
  refine ⟨h.total, fun call hcall => ⟨(h.gate call hcall).2, fun _ _ _ => finish_granted⟩, ?_⟩
  intro reservation hmem
  obtain ⟨totals, hrelease, -⟩ := h.release hmem
  exact ⟨totals, hrelease⟩

/-- Two calls for one file system, the second cancelled and made again; then the first is dropped. -/
def twoReservations : List CapacityAction :=
  [.lock (.ok 7) 1024, .sampled (.ok 67112960), .finish, .lock (.ok 7) 2048, .cancel,
    .lock (.ok 7) 2048, .sampled (.ok 67111936), .finish, .drop ⟨filesystemIdentity 7, 1024⟩]

theorem reservations_exact_two :
    (run step {} twoReservations).reserved (filesystemIdentity 7) = 2048 ∧
      ∃ totals, DiskCapacityReservation.release ⟨filesystemIdentity 7, 2048⟩
        (run step {} twoReservations).totals = .ok totals := by
  have h := reservations_exact twoReservations (by simp [twoReservations]; omega)
  exact ⟨(h.1 _).trans (by decide), h.2.2 _ (by decide)⟩

end DiskCapacityService

end DatabasesEverywhere.Disk
