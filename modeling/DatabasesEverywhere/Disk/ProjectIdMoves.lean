import DatabasesEverywhere.Disk.ProjectId
import DatabasesEverywhere.Foundations.Runs

/-!
# Disk/ProjectIdMoves — the moves of the registry and what they keep

Six moves make up every change of the registry's files, and each of them is taken only where a
search has just looked:

    reserved   an id without a file gets its pending marker
    claimed    an id with its owner's pending marker gets the claim
    released   an id of one owner gets the tombstone
    activated  a claimed id loses its marker           opened   the directory is created
    cleaned    a released id loses its marker

An id with a file never loses its last one, which is why a search may end at the first id without:
every id an owner probed before its own was in use then, and is in use now.
-/

open Foundations

namespace DatabasesEverywhere.Disk

/-! ## Names in files -/

variable {owner : Bytes}

theorem validateInstanceId_eq_ok :
    validateInstanceId owner = .ok () ↔
      owner ≠ [] ∧ owner.length ≤ 1023 ∧ ∀ byte ∈ owner, isLineBreak byte = false := by
  simp [validateInstanceId, and_assoc]

/-- The content of a file that is written in one go. -/
def line (owner : Bytes) : Bytes := owner ++ [Ascii.newline]

/-- What writing a file can leave behind. -/
inductive Written (owner : Bytes) : Bytes → Prop
  | torn {content : Bytes} (h : content <+: owner) : Written owner content
  | whole : Written owner (line owner)

theorem parseOwner_line (h : validateInstanceId owner = .ok ()) :
    parseOwner (line owner) = .ok owner := by
  obtain ⟨hne, hlength, hbreaks⟩ := validateInstanceId_eq_ok.mp h
  have hany : owner.any isLineBreak = false := by simpa using hbreaks
  simp [parseOwner, line, maxOwnerFileBytes, hne, hany]
  omega

variable {content name : Bytes}

/-- A name cut short has no line break. -/
theorem parseOwner_torn (h : validateInstanceId owner = .ok ())
    (htorn : content <+: owner) : parseOwner content ≠ .ok name := by
  obtain ⟨-, -, hbreaks⟩ := validateInstanceId_eq_ok.mp h
  have hlast : content.getLast? ≠ some Ascii.newline := by
    intro hlast
    have hbreak := hbreaks _ (htorn.subset (List.mem_of_getLast? hlast))
    exact absurd hbreak (by decide)
  simp [parseOwner, hlast]

theorem Written.name_eq (h : validateInstanceId owner = .ok ())
    (hwritten : Written owner content) (hname : parseOwner content = .ok name) : name = owner := by
  cases hwritten with
  | torn htorn => exact absurd hname (parseOwner_torn h htorn)
  | whole => exact (Except.ok.inj ((parseOwner_line h).symm.trans hname)).symm

theorem validateInstanceId_of_parseOwner (h : parseOwner content = .ok name) :
    validateInstanceId name = .ok () := by
  unfold parseOwner at h
  split at h
  · cases h
  split at h
  · cases h
  rename_i hline hname
  cases h
  simp only [maxOwnerFileBytes, Bool.or_eq_true, decide_eq_true_eq, not_or] at hline hname
  refine validateInstanceId_eq_ok.mpr ⟨hname.1, ?_, by simpa using hname.2⟩
  have hlength : ¬content.length > 1024 := by simpa using hline.1
  rw [List.length_dropLast]
  omega

namespace Registry

variable (registry : Registry)

/-- A file of the id names the owner. -/
def Names (path : StatePath) (owner : Bytes) : Prop :=
  registry.owner path = .ok (some owner)

instance (path : StatePath) (owner : Bytes) : Decidable (registry.Names path owner) :=
  decidable_of_iff ((registry.files path).any fun content =>
      match parseOwner content with | .ok name => name = owner | .error _ => false) <| by
    simp only [Names, Registry.owner]
    cases registry.files path with
    | none => simp
    | some content => cases hname : parseOwner content <;> simp [Except.map, hname]

def Used (id : UInt32) : Prop := ∃ file, registry.files ⟨id, file⟩ ≠ none

def Unused (id : UInt32) : Prop := ∀ file, registry.files ⟨id, file⟩ = none

/-- Every file of the id can be read. -/
def Readable (id : UInt32) : Prop :=
  ∀ file, ∃ name, registry.owner ⟨id, file⟩ = .ok name

/-- The owner has a claim to the id, or its marker, and has not released it. -/
def Holds (id : UInt32) (owner : Bytes) : Prop :=
  (registry.Names (claimPath id) owner ∨ registry.Names (pendingPath id) owner) ∧
    registry.files (tombstonePath id) = none

/-- A search for the owner goes on after this id. -/
structure Passed (registry : Registry) (owner : Bytes) (id : UInt32) : Prop where
  used : registry.Used id
  unheld : ¬registry.Holds id owner
  readable : registry.Readable id

variable {registry} {id : UInt32} {path : StatePath}

theorem Names.file (h : registry.Names path owner) : registry.files path ≠ none := by
  intro hnone
  simp [Names, Registry.owner, hnone] at h

theorem Names.valid (h : registry.Names path owner) : validateInstanceId owner = .ok () := by
  simp only [Names, Registry.owner] at h
  split at h
  · cases h
  rename_i content _
  cases hname : parseOwner content with
  | error error => simp [hname, Except.map] at h
  | ok name =>
    simp only [hname, Except.map, Except.ok.injEq, Option.some.injEq] at h
    exact h ▸ validateInstanceId_of_parseOwner hname

theorem owner_eq_none (h : registry.owner path = .ok none) : registry.files path = none := by
  simp only [Registry.owner] at h
  split at h
  · assumption
  next content _ =>
    cases hname : parseOwner content <;> simp [hname, Except.map] at h

theorem owner_of_absent (h : registry.files path = none) : registry.owner path = .ok none := by
  simp [Registry.owner, h]

theorem Holds.used (h : registry.Holds id owner) : registry.Used id :=
  h.1.elim (fun hclaim => ⟨.claim, hclaim.file⟩) fun hpending => ⟨.pending, hpending.file⟩

theorem Holds.valid (h : registry.Holds id owner) : validateInstanceId owner = .ok () :=
  h.1.elim Names.valid Names.valid

theorem not_used (h : registry.Unused id) : ¬registry.Used id := fun ⟨file, hfile⟩ => hfile (h file)

/-! ## Files that change -/

@[simp] theorem files_put (registry : Registry) (path other : StatePath) (content : Bytes) :
    (registry.put path content).files other =
      if other = path then some content else registry.files other := by
  simp [put, Function.update_apply]

variable {other : StatePath}

theorem files_put_of_ne (h : other ≠ path) :
    (registry.put path content).files other = registry.files other := by
  simp [h]

@[simp] theorem files_erase (registry : Registry) (path other : StatePath) :
    (registry.erase path).files other = if other = path then none else registry.files other := by
  simp [erase, Function.update_apply]

@[simp] theorem append_put (registry : Registry) (path : StatePath) (content bytes : Bytes) :
    (registry.put path content).append path bytes = registry.put path (content ++ bytes) := by
  simp [put, append]

theorem erase_put (h : registry.files path = none) :
    (registry.put path content).erase path = registry := by
  simp only [put, erase, Function.update_idem]
  rw [← h, Function.update_eq_self]

variable {after : Registry}

theorem owner_congr (h : after.files path = registry.files path) :
    after.owner path = registry.owner path := by
  simp [Registry.owner, h]

theorem names_put_self :
    (registry.put path content).Names path owner ↔ parseOwner content = .ok owner := by
  cases hname : parseOwner content <;> simp [Names, Registry.owner, Except.map, hname]

theorem names_put_of_ne (h : other ≠ path) :
    (registry.put path content).Names other owner ↔ registry.Names other owner := by
  rw [Names, Names, owner_congr (files_put_of_ne h)]

theorem names_erase (h : (registry.erase path).Names other owner) :
    other ≠ path ∧ registry.Names other owner := by
  have hne : other ≠ path := by
    rintro rfl
    exact h.file (by simp)
  have hfile : (registry.erase path).files other = registry.files other := by simp [hne]
  exact ⟨hne, (owner_congr hfile).symm.trans h⟩

/-! ## Moves -/

/-- What an operation may do to the registry. -/
inductive Move (base : UInt32) (registry : Registry) : Registry → Prop
  | opened : Move base registry { registry with present := true }
  | reserved {owner content : Bytes} {offset : ℕ} (hvalid : validateInstanceId owner = .ok ())
      (hpresent : registry.present = true) (hspan : offset < allocationSpan base)
      (hpassed : ∀ earlier < offset, registry.Passed owner (candidate base owner earlier))
      (hunused : registry.Unused (candidate base owner offset)) (hwritten : Written owner content) :
      Move base registry (registry.put (pendingPath (candidate base owner offset)) content)
  | claimed {id : UInt32} {owner content : Bytes} (hvalid : validateInstanceId owner = .ok ())
      (hpending : registry.Names (pendingPath id) owner)
      (hclaim : registry.files (claimPath id) = none)
      (hreleased : registry.files (tombstonePath id) = none) (hwritten : Written owner content) :
      Move base registry (registry.put (claimPath id) content)
  | released {id : UInt32} {owner content : Bytes} (hvalid : validateInstanceId owner = .ok ())
      (hused : registry.Used id) (hnames : ∀ file name, registry.Names ⟨id, file⟩ name → name = owner)
      (hreleased : registry.files (tombstonePath id) = none) (hwritten : Written owner content) :
      Move base registry (registry.put (tombstonePath id) content)
  | activated {id : UInt32} {owner : Bytes} (hclaim : registry.Names (claimPath id) owner) :
      Move base registry (registry.erase (pendingPath id))
  | cleaned {id : UInt32} {owner : Bytes} (hreleased : registry.Names (tombstonePath id) owner) :
      Move base registry (registry.erase (pendingPath id))

/-- What holds in every registry. -/
structure WellKept (base : UInt32) (registry : Registry) : Prop where
  present : ∀ path, registry.files path ≠ none → registry.present = true
  agree : ∀ id file file' name name', registry.Names ⟨id, file⟩ name →
    registry.Names ⟨id, file'⟩ name' → name = name'
  probed : ∀ id owner, registry.Holds id owner → ∃ offset < allocationSpan base,
    id = candidate base owner offset ∧
      ∀ earlier < offset, registry.Used (candidate base owner earlier)
  unique : ∀ id id' owner, registry.Holds id owner → registry.Holds id' owner → id = id'

variable {base : UInt32}

namespace Move

variable (h : Move base registry after)
include h

theorem files_mono (hpath : path.file ≠ .pending) (hfile : registry.files path ≠ none) :
    after.files path ≠ none := by
  have herase : ∀ id, (registry.erase (pendingPath id)).files path ≠ none := by
    intro id
    have hne : path ≠ pendingPath id := fun heq => hpath (heq ▸ rfl)
    simpa [hne] using hfile
  cases h with
  | opened => exact hfile
  | reserved | claimed | released =>
    rw [files_put]
    split
    · simp
    · exact hfile
  | activated | cleaned => exact herase _

/-- **An id in use stays in use.** -/
theorem used (hused : registry.Used id) : after.Used id := by
  obtain ⟨file, hfile⟩ := hused
  have hput : ∀ path content, (registry.put path content).Used id := by
    intro path content
    refine ⟨file, ?_⟩
    rw [files_put]
    split
    · simp
    · exact hfile
  have herase : ∀ id' other name, other ≠ .pending → registry.Names ⟨id', other⟩ name →
      (registry.erase (pendingPath id')).Used id := by
    intro id' other name hother hname
    by_cases hid : id = id'
    · subst hid
      refine ⟨other, ?_⟩
      have hne : (⟨id, other⟩ : StatePath) ≠ pendingPath id := by simp [pendingPath, hother]
      simpa [hne] using hname.file
    · have hne : (⟨id, file⟩ : StatePath) ≠ pendingPath id' := by simp [pendingPath, hid]
      exact ⟨file, by simpa [hne] using hfile⟩
  cases h with
  | opened => exact ⟨file, hfile⟩
  | reserved | claimed | released => exact hput _ _
  | activated hclaim => exact herase _ _ _ (by decide) hclaim
  | cleaned hreleased => exact herase _ _ _ (by decide) hreleased

/-- A move publishes no second name for an id. -/
theorem names (hkept : WellKept base registry) (id : UInt32) :
    (∀ file name, after.Names ⟨id, file⟩ name → registry.Names ⟨id, file⟩ name) ∨
      ∃ owner, ∀ file name, after.Names ⟨id, file⟩ name → name = owner := by
  have hput : ∀ path owner content, validateInstanceId owner = .ok () → Written owner content →
      (∀ file name, registry.Names ⟨path.id, file⟩ name → name = owner) →
      after = registry.put path content →
      (∀ file name, after.Names ⟨id, file⟩ name → registry.Names ⟨id, file⟩ name) ∨
        ∃ owner, ∀ file name, after.Names ⟨id, file⟩ name → name = owner := by
    rintro path owner content hvalid hwritten hothers rfl
    by_cases hid : path.id = id
    · refine .inr ⟨owner, fun file name hname => ?_⟩
      by_cases hpath : (⟨id, file⟩ : StatePath) = path
      · rw [hpath] at hname
        exact hwritten.name_eq hvalid (names_put_self.mp hname)
      · exact hothers file name (hid ▸ (names_put_of_ne hpath).mp hname)
    · refine .inl fun file name hname => (names_put_of_ne ?_).mp hname
      rintro rfl
      exact hid rfl
  cases h with
  | opened => exact .inl fun _ _ hname => hname
  | reserved hvalid _ _ _ hunused hwritten =>
    exact hput _ _ _ hvalid hwritten (fun file _ hname => absurd (hunused file) hname.file) rfl
  | claimed hvalid hpending _ _ hwritten =>
    exact hput _ _ _ hvalid hwritten
      (fun file name hname => hkept.agree _ file .pending name _ hname hpending) rfl
  | released hvalid _ hnames _ hwritten => exact hput _ _ _ hvalid hwritten hnames rfl
  | activated | cleaned => exact .inl fun _ _ hname => (names_erase hname).2

/-- What is held after a move was held before, or is the first unused id of its owner. -/
theorem held (hheld : after.Holds id owner) :
    registry.Holds id owner ∨ ∃ offset < allocationSpan base, id = candidate base owner offset ∧
      registry.Unused id ∧
      ∀ earlier < offset, registry.Passed owner (candidate base owner earlier) := by
  obtain ⟨hnames, hreleased⟩ := hheld
  cases h with
  | opened => exact .inl ⟨hnames, hreleased⟩
  | @reserved owner' content offset hvalid _ hspan hpassed hunused hwritten =>
    have htombstone : registry.files (tombstonePath id) = none := by
      simpa [tombstonePath, pendingPath] using hreleased
    rcases hnames with hclaim | hpending
    · exact .inl ⟨.inl ((names_put_of_ne (by simp [claimPath, pendingPath])).mp hclaim), htombstone⟩
    by_cases hid : id = candidate base owner' offset
    · subst hid
      cases hwritten.name_eq hvalid (names_put_self.mp hpending)
      exact .inr ⟨offset, hspan, rfl, hunused, hpassed⟩
    · exact .inl ⟨.inr ((names_put_of_ne (by simp [pendingPath, hid])).mp hpending), htombstone⟩
  | @claimed id' owner' content hvalid hpending' _ _ hwritten =>
    have htombstone : registry.files (tombstonePath id) = none := by
      simpa [tombstonePath, claimPath] using hreleased
    rcases hnames with hclaim | hpending
    · by_cases hid : id = id'
      · subst hid
        cases hwritten.name_eq hvalid (names_put_self.mp hclaim)
        exact .inl ⟨.inr hpending', htombstone⟩
      · exact .inl ⟨.inl ((names_put_of_ne (by simp [claimPath, hid])).mp hclaim), htombstone⟩
    · exact .inl ⟨.inr ((names_put_of_ne (by simp [claimPath, pendingPath])).mp hpending), htombstone⟩
  | @released id' _ _ _ _ _ _ _ =>
    have hne : tombstonePath id ≠ tombstonePath id' := by
      intro heq
      simp [heq] at hreleased
    refine .inl ⟨hnames.imp ?_ ?_, by simpa [hne] using hreleased⟩
    · exact (names_put_of_ne (by simp [claimPath, tombstonePath])).mp
    · exact (names_put_of_ne (by simp [pendingPath, tombstonePath])).mp
  | activated | cleaned =>
    exact .inl ⟨hnames.imp (fun hname => (names_erase hname).2) fun hname => (names_erase hname).2,
      by simpa [tombstonePath, pendingPath] using hreleased⟩

/-- **A held id stays held** until its tombstone is written. -/
theorem keepsHeld (hkept : WellKept base registry) (hheld : registry.Holds id owner)
    (hreleased : after.files (tombstonePath id) = none) : after.Holds id owner := by
  refine ⟨?_, hreleased⟩
  have hput : ∀ path content, registry.files path = none →
      (registry.put path content).Names (claimPath id) owner ∨
        (registry.put path content).Names (pendingPath id) owner := by
    intro path content habsent
    have hne : ∀ other, registry.Names other owner → other ≠ path :=
      fun other hname heq => hname.file (heq ▸ habsent)
    exact hheld.1.imp (fun hname => (names_put_of_ne (hne _ hname)).mpr hname)
      fun hname => (names_put_of_ne (hne _ hname)).mpr hname
  have herase : ∀ {path other}, path ≠ other → registry.Names path owner →
      (registry.erase other).Names path owner := by
    intro path other hne hname
    exact (owner_congr (by simp [hne])).trans hname
  cases h with
  | opened => exact hheld.1
  | reserved _ _ _ _ hunused _ => exact hput _ _ (hunused _)
  | claimed _ _ hclaim _ _ => exact hput _ _ hclaim
  | released _ _ _ habsent _ => exact hput _ _ habsent
  | @activated id' owner' hclaim =>
    rcases hheld.1 with hname | hname
    · exact .inl (herase (by simp [claimPath, pendingPath]) hname)
    by_cases hid : id = id'
    · subst hid
      cases hkept.agree _ _ _ _ _ hname hclaim
      exact .inl (herase (by simp [claimPath, pendingPath]) hclaim)
    · exact .inr (herase (by simp [pendingPath, hid]) hname)
  | @cleaned id' owner' hreleased' =>
    have hid : id ≠ id' := by
      rintro rfl
      exact hreleased'.file hheld.2
    exact hheld.1.imp (herase (by simp [claimPath, pendingPath]))
      (herase (by simp [pendingPath, hid]))

end Move

/-- **Nothing is held by an owner whose search ends at an unused id.** -/
theorem WellKept.unheld (h : WellKept base registry) {offset : ℕ}
    (hunused : registry.Unused (candidate base owner offset))
    (hpassed : ∀ earlier < offset, registry.Passed owner (candidate base owner earlier))
    (id : UInt32) : ¬registry.Holds id owner := by
  intro hheld
  obtain ⟨offset', -, hid, hused⟩ := h.probed id owner hheld
  rcases Nat.lt_trichotomy offset' offset with hlt | heq | hgt
  · exact (hpassed offset' hlt).unheld (hid ▸ hheld)
  · exact not_used hunused (heq ▸ hid ▸ hheld.used)
  · exact not_used hunused (hused offset hgt)

/-- **Every move keeps the registry.** -/
theorem Move.kept (h : Move base registry after)
    (hkept : WellKept base registry) : WellKept base after where
  present := by
    have hput : ∀ path content, registry.present = true → ∀ other,
        (registry.put path content).files other ≠ none →
          (registry.put path content).present = true := fun _ _ hpresent _ _ => hpresent
    have hused : ∀ {id}, registry.Used id → registry.present = true :=
      fun ⟨_, hfile⟩ => hkept.present _ hfile
    have herase : ∀ path other, (registry.erase path).files other ≠ none →
        registry.present = true := by
      intro path other hfile
      rw [files_erase] at hfile
      split at hfile
      · exact absurd rfl hfile
      · exact hkept.present other hfile
    cases h with
    | opened => exact fun _ _ => rfl
    | reserved _ hpresent _ _ _ _ => exact hput _ _ hpresent
    | claimed _ hpending _ _ _ => exact hput _ _ (hkept.present _ hpending.file)
    | released _ hid _ _ _ => exact hput _ _ (hused hid)
    | activated | cleaned => exact herase _
  agree id file file' name name' hname hname' := by
    rcases h.names hkept id with hnames | ⟨owner, hnames⟩
    · exact hkept.agree id file file' name name' (hnames _ _ hname) (hnames _ _ hname')
    · exact (hnames _ _ hname).trans (hnames _ _ hname').symm
  probed id owner hheld := by
    rcases h.held hheld with hheld | ⟨offset, hspan, hid, -, hpassed⟩
    · obtain ⟨offset, hspan, hid, hused⟩ := hkept.probed id owner hheld
      exact ⟨offset, hspan, hid, fun earlier hlt => h.used (hused earlier hlt)⟩
    · exact ⟨offset, hspan, hid, fun earlier hlt => h.used (hpassed earlier hlt).used⟩
  unique id id' owner hheld hheld' := by
    rcases h.held hheld with hheld | ⟨offset, -, hid, hunused, hpassed⟩ <;>
      rcases h.held hheld' with hheld' | ⟨offset', -, hid', hunused', hpassed'⟩
    · exact hkept.unique id id' owner hheld hheld'
    · exact absurd hheld (hkept.unheld (hid' ▸ hunused') hpassed' id)
    · exact absurd hheld' (hkept.unheld (hid ▸ hunused) hpassed id')
    · rcases Nat.lt_trichotomy offset offset' with hlt | heq | hgt
      · exact absurd (hid ▸ (hpassed' offset hlt).used) (not_used hunused)
      · rw [hid, hid', heq]
      · exact absurd (hid' ▸ (hpassed offset' hgt).used) (not_used hunused')

end Registry

end DatabasesEverywhere.Disk
