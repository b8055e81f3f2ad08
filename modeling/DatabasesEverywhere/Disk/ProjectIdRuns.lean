import DatabasesEverywhere.Disk.ProjectIdOperations

/-!
# Disk/ProjectIdRuns — ids that are never shared and never reused

A run of the registry is any sequence of calls by any owners, each with the faults the host has for
it; the registry lock makes the calls follow one another.  All that a run can do is moves, so what
moves keep holds in every registry.

One thing a crash can spoil: a file that was created and not finished cannot be read, and every
search that comes to it fails from then on.  `Clear` says that none lies on the way.
-/

open Foundations

namespace DatabasesEverywhere.Disk

inductive RegistryCall
  | allocate (owner : Bytes)
  | activate (owner : Bytes) (id : UInt32)
  | find (owner : Bytes)
  | release (owner : Bytes)
  deriving DecidableEq

structure RegistryAction where
  call : RegistryCall
  faults : List Fault
  deriving DecidableEq

/-- The registry a call leaves behind. -/
def Registry.step (base : UInt32) (registry : Registry) (action : RegistryAction) : Registry :=
  match action.call with
  | .allocate owner => (allocateSync owner base ⟨registry, action.faults⟩).2.state
  | .activate owner id => (activateSync owner id ⟨registry, action.faults⟩).2.state
  | .find owner => (findSync owner base ⟨registry, action.faults⟩).2.state
  | .release owner => (releaseSync owner base ⟨registry, action.faults⟩).2.state

variable {base : UInt32} {registry : Registry}

/-- However an operation ends, it ends in moves. -/
theorem moves_of_ensures {ε α : Type} {program : Program Registry ε α}
    {returned : α → Registry → Prop} (h : Ensures program (movesTo base registry returned) registry)
    (faults : List Fault) : Moves base registry (program ⟨registry, faults⟩).2.state :=
  h.always (fun _ _ hreturned => hreturned.1) (fun _ _ hfailed => hfailed) (fun _ hstopped => hstopped)
    faults

theorem findSync_unchanged (hkept : registry.WellKept base) (owner : Bytes) (faults : List Fault) :
    (findSync owner base ⟨registry, faults⟩).2.state = registry :=
  (findSync_ensures hkept).always (fun _ _ hreturned => hreturned.1) (fun _ _ hfailed => hfailed)
    (fun _ hstopped => hstopped) faults

/-- **One call is made of moves.** -/
theorem Registry.step_moves (hkept : registry.WellKept base) (action : RegistryAction) :
    Moves base registry (registry.step base action) := by
  obtain ⟨call, faults⟩ := action
  cases call with
  | allocate owner => exact moves_of_ensures allocateSync_ensures faults
  | activate owner id => exact moves_of_ensures activateSync_ensures faults
  | find owner =>
    have hsame : registry.step base ⟨.find owner, faults⟩ = registry :=
      findSync_unchanged hkept owner faults
    rw [hsame]
  | release owner => exact moves_of_ensures (releaseSync_ensures hkept) faults

variable {after : Registry}

theorem Moves.kept (h : Moves base registry after)
    (hkept : registry.WellKept base) : after.WellKept base :=
  chain_invariant (fun _ _ hmove hkept => hmove.kept hkept) h hkept

/-- **A run is made of moves.** -/
theorem Registry.run_moves (hkept : registry.WellKept base) (actions : List RegistryAction) :
    Moves base registry (run (Registry.step base) registry actions) :=
  have hstep : ∀ (after : Registry) action, after.WellKept base ∧ Moves base registry after →
      (after.step base action).WellKept base ∧ Moves base registry (after.step base action) :=
    fun _ action h => ⟨(step_moves h.1 action).kept h.1, h.2.trans (step_moves h.1 action)⟩
  (run_invariant hstep actions ⟨hkept, .refl⟩).2

theorem Registry.wellKept_missing (base : UInt32) : Registry.missing.WellKept base where
  present _ h := absurd rfl h
  agree _ _ _ _ _ h := absurd rfl h.file
  probed _ _ h := h.used.elim fun _ hfile => absurd rfl hfile
  unique _ _ _ h := h.used.elim fun _ hfile => absurd rfl hfile

variable {id : UInt32}

theorem Moves.tombstone (h : Moves base registry after)
    (hreleased : registry.files (tombstonePath id) ≠ none) :
    after.files (tombstonePath id) ≠ none := by
  induction h with
  | refl => exact hreleased
  | tail _ hmove ih => exact hmove.files_mono nofun ih

variable {owner : Bytes}

theorem Moves.holds (h : Moves base registry after) (hkept : registry.WellKept base)
    (hheld : registry.Holds id owner) (hreleased : after.files (tombstonePath id) = none) :
    after.Holds id owner := by
  induction h with
  | refl => exact hheld
  | tail hmoves hmove ih =>
    -- a tombstone stays, so there was none before
    have hbefore := by_contra fun hfile =>
      @Registry.Move.files_mono _ (tombstonePath id) _ _ hmove nofun hfile hreleased
    exact hmove.keepsHeld (Moves.kept hmoves hkept) (ih hbefore) hreleased

/-! ## What is handed out -/

section Answers

section Allocation

variable (h : Allocated base owner registry id after)
include h

theorem Allocated.not_released : registry.files (tombstonePath id) = none :=
  h.free.elim (fun hunused => hunused _) fun hheld => hheld.2

/-- **An owner gets the id back that it holds.** -/
theorem Allocated.eq (hkept : registry.WellKept base) {held : UInt32}
    (hheld : registry.Holds held owner) : id = held := by
  rcases h.free with hunused | hown
  · obtain ⟨offset, -, rfl, hpassed⟩ := h.probed
    exact absurd hheld (hkept.unheld hunused hpassed held)
  · exact hkept.unique _ _ owner hown hheld

theorem Allocated.clear : Clear base owner registry id := by
  obtain ⟨offset, -, rfl, hpassed⟩ := h.probed
  exact clear_of_passed hpassed h.readable

theorem Allocated.unblocked : Unblocked base owner registry := by
  obtain ⟨offset, -, rfl, hpassed⟩ := h.probed
  intro offset' _ hfirst
  rcases Nat.lt_trichotomy offset' offset with hlt | rfl | hgt
  · exact (hpassed offset' hlt).readable
  · exact h.readable
  · exact absurd h.free (hfirst offset hgt)

end Allocation

/-- An id in the configured range. -/
def InSpan (base id : UInt32) : Prop :=
  base.toNat ≤ id.toNat ∧ id.toNat < base.toNat + allocationSpan base

theorem inSpan_of_probed (h : ∃ offset < allocationSpan base, id = candidate base owner offset) :
    InSpan base id := by
  obtain ⟨offset, -, rfl⟩ := h
  exact candidate_range base owner offset

end Answers

/-- **Ids are never shared and never reused.**  In the registry after any run: the files of an id
name one owner; an id with a tombstone keeps it, and is not handed out or activated again; an owner
holds at most one id, keeps it until the tombstone is written, and gets no other from an allocation
or a search.  It does get it exactly if every file on the way to it can be read. -/
theorem project_ids_exclusive (base : UInt32) (actions more : List RegistryAction) :
    let registry := run (Registry.step base) .missing actions
    let later := run (Registry.step base) registry more
    (∀ id file file' owner owner', registry.Names ⟨id, file⟩ owner →
      registry.Names ⟨id, file'⟩ owner' → owner = owner') ∧
    (∀ id, registry.files (tombstonePath id) ≠ none →
      later.files (tombstonePath id) ≠ none ∧ ∀ owner faults,
        (allocateSync owner base ⟨later, faults⟩).1 ≠ .returned id ∧
        (activateSync owner id ⟨later, faults⟩).1 ≠ .returned ()) ∧
    (∀ owner id, registry.Holds id owner →
      (later.files (tombstonePath id) = none → later.Holds id owner) ∧
      (∀ other, registry.Holds other owner → other = id) ∧
      (∀ faults other, (allocateSync owner base ⟨registry, faults⟩).1 = .returned other →
        other = id) ∧
      (∀ faults found, (findSync owner base ⟨registry, faults⟩).1 = .returned found →
        found = some ⟨id, registry.stateOf id⟩) ∧
      ((allocateSync owner base ⟨registry, []⟩).1 = .returned id ↔ Clear base owner registry id) ∧
      ((findSync owner base ⟨registry, []⟩).1 = .returned (some ⟨id, registry.stateOf id⟩) ↔
        Clear base owner registry id)) ∧
    ∀ owner faults,
      (∀ id, (allocateSync owner base ⟨registry, faults⟩).1 = .returned id →
        InSpan base id ∧ (allocateSync owner base ⟨registry, faults⟩).2.state.Holds id owner) ∧
      (∀ claim, (findSync owner base ⟨registry, faults⟩).1 = .returned (some claim) →
        InSpan base claim.id) ∧
      (∀ id, (releaseSync owner base ⟨registry, faults⟩).1 = .returned (some id) →
        InSpan base id) := by
  intro registry later
  have hkept : registry.WellKept base :=
    (Registry.run_moves (Registry.wellKept_missing base) actions).kept
      (Registry.wellKept_missing base)
  have hlater : Moves base registry later := Registry.run_moves hkept more
  have hallocated : ∀ {owner faults id} {registry : Registry},
      (allocateSync owner base ⟨registry, faults⟩).1 = .returned id →
      Allocated base owner registry id (allocateSync owner base ⟨registry, faults⟩).2.state :=
    fun hreturned => (allocateSync_ensures.returned hreturned).2
  have hsearched : ∀ owner faults found, (findSync owner base ⟨registry, faults⟩).1 =
      .returned found → (searched base owner registry).returned found
        (findSync owner base ⟨registry, faults⟩).2.state :=
    fun _ _ _ hreturned => (findSync_ensures hkept).returned hreturned
  refine ⟨hkept.agree, fun id hreleased => ?_, fun owner id hheld => ?_, fun owner faults => ?_⟩
  · have hfile := hlater.tombstone hreleased
    refine ⟨hfile, fun owner faults => ⟨fun hreturned => ?_, fun hreturned => ?_⟩⟩
    · exact hfile (hallocated hreturned).not_released
    · exact hfile ((@activateSync_ensures _ _ _ base).returned hreturned).2
  · refine ⟨hlater.holds hkept hheld, fun other hother => hkept.unique _ _ _ hother hheld,
      fun faults other hreturned => (hallocated hreturned).eq hkept hheld,
      fun faults found hreturned => ((hsearched owner faults found hreturned).2.2 id hheld).1,
      ⟨fun hreturned => (hallocated hreturned).clear, fun hclear => ?_⟩,
      ⟨fun hreturned => ((hsearched owner [] _ hreturned).2.2 id hheld).2, fun hclear => ?_⟩⟩
    · obtain ⟨offset, hspan, rfl, -⟩ := hkept.probed id owner hheld
      obtain ⟨id', after, hgrants⟩ := allocateSync_grants hkept hheld.valid
        (hclear.unblocked hheld) ⟨offset, hspan, .inr hheld⟩
      have hreturned := congrArg Prod.fst hgrants
      rw [hreturned, (hallocated hreturned).eq hkept hheld]
    · rw [findSync_grants hkept hheld hclear]
  · refine ⟨fun id hreturned => ?_, fun claim hreturned => ?_, fun id hreturned => ?_⟩
    · obtain ⟨offset, hspan, hid, -⟩ := (hallocated hreturned).probed
      exact ⟨inSpan_of_probed ⟨offset, hspan, hid⟩, (hallocated hreturned).holds⟩
    · exact inSpan_of_probed ((hsearched owner faults _ hreturned).2.1 claim rfl).probed
    · exact inSpan_of_probed (((releaseSync_ensures hkept).returned hreturned).2 id rfl)

/-- **A crash can stop an owner from allocating**, and only in one way: a file that it left
unfinished lies in front of the first id the owner could take. -/
theorem allocation_recovers_iff (base : UInt32) (actions : List RegistryAction) (owner : Bytes)
    (hvalid : validateInstanceId owner = .ok ()) :
    let registry := run (Registry.step base) .missing actions
    (∃ offset < allocationSpan base, registry.Unused (candidate base owner offset)) →
      ((∃ id, (allocateSync owner base ⟨registry, []⟩).1 = .returned id) ↔
        Unblocked base owner registry) := by
  intro registry hunused
  have hkept : registry.WellKept base :=
    (Registry.run_moves (Registry.wellKept_missing base) actions).kept
      (Registry.wellKept_missing base)
  refine ⟨fun ⟨id, hreturned⟩ => (allocateSync_ensures.returned hreturned).2.unblocked,
    fun hopen => ?_⟩
  obtain ⟨id, after, hgrants⟩ := allocateSync_grants hkept hvalid hopen
    (hunused.imp fun _ h => ⟨h.1, .inl h.2⟩)
  exact ⟨id, congrArg Prod.fst hgrants⟩

/-! ## Two owners with one first id -/

instance (registry : Registry) (id : UInt32) (owner : Bytes) :
    Decidable (registry.Holds id owner) :=
  inferInstanceAs (Decidable (_ ∧ _))

def exampleBase : UInt32 := 4294967294

def ownerA : Bytes := ascii "inst-a"

def ownerC : Bytes := ascii "inst-c"

/-- Both start at `4294967295`; the second to come is given the other id. -/
def exampleRun : List RegistryAction :=
  [⟨.allocate ownerC, []⟩, ⟨.allocate ownerA, []⟩, ⟨.activate ownerA 4294967294, []⟩]

theorem exampleRun_exclusive :
    (run (Registry.step exampleBase) .missing exampleRun).Holds 4294967294 ownerA ∧
      ∀ faults other, (allocateSync ownerA exampleBase
        ⟨run (Registry.step exampleBase) .missing exampleRun, faults⟩).1 = .returned other →
        other = 4294967294 := by
  have hheld : (run (Registry.step exampleBase) .missing exampleRun).Holds 4294967294 ownerA := by
    decide +kernel
  obtain ⟨-, -, hkeeps, -⟩ := project_ids_exclusive exampleBase exampleRun []
  exact ⟨hheld, (hkeeps ownerA 4294967294 hheld).2.2.1⟩

/-- The daemon is stopped when the tombstone of the other owner is created and still empty. -/
def tornRun : List RegistryAction :=
  exampleRun ++ [⟨.release ownerC, List.replicate 6 .granted ++ [.stopped 0]⟩]

/-- **A torn tombstone takes an id from its neighbour**: the owner holds it, and neither an
allocation nor a search hands it back. -/
theorem tornRun_lost :
    let registry := run (Registry.step exampleBase) .missing tornRun
    registry.Holds 4294967294 ownerA ∧
      (allocateSync ownerA exampleBase ⟨registry, []⟩).1 =
        .failed (registryIoError (.state (tombstonePath 4294967295)) invalidOwnerData) ∧
      (findSync ownerA exampleBase ⟨registry, []⟩).1 =
        .failed (registryIoError (.state (tombstonePath 4294967295)) invalidOwnerData) := by
  decide +kernel

/-- The second of the two comes to a whole claim and takes the next id. -/
theorem allocation_recovers_second : Unblocked exampleBase ownerA
    (run (Registry.step exampleBase) .missing [⟨.allocate ownerC, []⟩]) :=
  (allocation_recovers_iff exampleBase [⟨.allocate ownerC, []⟩] ownerA (by decide +kernel)
    ⟨1, by decide +kernel, fun file => by cases file <;> decide +kernel⟩).mp
    ⟨4294967294, by decide +kernel⟩

/-- The daemon is stopped when the first marker is created and still empty. -/
def blockedRun : List RegistryAction :=
  [⟨.allocate ownerC, List.replicate 7 .granted ++ [.stopped 0]⟩]

/-- **A torn marker keeps its neighbour from an id that nobody uses.** -/
theorem blockedRun_fails :
    let registry := run (Registry.step exampleBase) .missing blockedRun
    1 < allocationSpan exampleBase ∧ registry.Unused (candidate exampleBase ownerA 1) ∧
      (allocateSync ownerA exampleBase ⟨registry, []⟩).1 =
        .failed (registryIoError (.state (pendingPath 4294967295)) invalidOwnerData) :=
  ⟨by decide +kernel, fun file => by cases file <;> decide +kernel, by decide +kernel⟩

end DatabasesEverywhere.Disk
