import DatabasesEverywhere.Disk.ProjectIdMoves

/-!
# Disk/ProjectIdOperations — the registry's operations are made of moves

Whatever the host does with its steps, an operation leaves the registry where moves can lead it.  A
search stops at the first id without a file, and `WellKept` says that nothing of the owner lies
beyond it; if every step is granted and every file on the way can be read, the search ends at the
id the owner holds.
-/

open Foundations

namespace DatabasesEverywhere.Disk

open Registry

/-! ## Operations are made of moves -/

/-- A file is as it was, or it was absent and something of it is written. -/
def Fills (owner : Bytes) (path : StatePath) (registry after : Registry) : Prop :=
  after = registry ∨ registry.files path = none ∧ ∃ content, Written owner content ∧
    after = registry.put path content

section Programs

variable {registry : Registry} {path : StatePath} {owner : Bytes} {id base : UInt32}

variable {post : Post Registry IoError Unit}

theorem ensures_touch (hreturned : post.returned () registry)
    (hfailed : ∀ error, post.failed error registry) (hstopped : post.stopped registry) :
    Ensures touch post registry :=
  ensures_step hreturned (fun _ => hfailed _) fun _ => hstopped

theorem ensures_readOwner {post : Post Registry IoError (Option Bytes)}
    (hreturned : ∀ name, registry.owner path = .ok name → post.returned name registry)
    (hfailed : ∀ error, post.failed error registry) (hstopped : post.stopped registry) :
    Ensures (readOwner path) post registry := by
  refine ensures_bind (ensures_touch ?_ hfailed hstopped)
  exact ensures_ofExcept hreturned fun error _ => hfailed error

theorem ensures_readRegistryOwner {post : Post Registry DiskLimitError (Option Bytes)}
    (hreturned : ∀ name, registry.owner path = .ok name → post.returned name registry)
    (hfailed : ∀ error, post.failed error registry) (hstopped : post.stopped registry) :
    Ensures (readRegistryOwner path) post registry :=
  ensures_mapError (ensures_readOwner hreturned (fun _ => hfailed _) hstopped)

theorem ensures_createNew
    (hreturned : registry.files path = none → post.returned () (registry.put path []))
    (hexists : registry.files path ≠ none → post.failed (.host .alreadyExists) registry)
    (hfailed : post.failed (.host .other) registry) (hstopped : post.stopped registry) :
    Ensures (createNew path) post registry := by
  refine ensures_bind (ensures_look ?_)
  by_cases hfile : registry.files path = none
  · simp only [hfile, Option.isSome_none, Bool.false_eq_true, if_false]
    exact ensures_step (hreturned hfile) (fun _ => hfailed) fun _ => hstopped
  · simp only [Option.isSome_iff_ne_none.mpr hfile, if_true]
    exact ensures_fail (hexists hfile)

theorem ensures_writeAll {content bytes : Bytes}
    (hreturned : post.returned () (registry.put path (content ++ bytes))) (hfailed : ∀ written,
      post.failed (.host .other) (registry.put path (content ++ bytes.take written)))
    (hstopped : ∀ written, post.stopped (registry.put path (content ++ bytes.take written))) :
    Ensures (writeAll path bytes) post (registry.put path content) := by
  refine ensures_step ?_ (fun written => ?_) fun written => ?_ <;> rw [append_put]
  · exact hreturned
  · exact hfailed written
  · exact hstopped written

theorem ensures_removeFile (hreturned : post.returned () (registry.erase path))
    (hfailed : ∀ error, post.failed error registry) (hstopped : post.stopped registry) :
    Ensures (removeFile path) post registry := by
  refine ensures_bind (ensures_look ?_)
  by_cases hfile : (registry.files path).isNone = true
  · simp only [hfile, if_true]
    exact ensures_fail (hfailed _)
  · simp only [hfile]
    exact ensures_step hreturned (fun _ => hfailed _) fun _ => hstopped

/-- What writing a file ends in. -/
def filled (owner : Bytes) (path : StatePath)
    (registry : Registry) : Post Registry IoError Unit where
  returned _ after := registry.files path = none ∧ after = registry.put path (line owner)
  failed error after := Fills owner path registry after ∧
    (error.kind = .alreadyExists → after = registry ∧ registry.files path ≠ none)
  stopped := Fills owner path registry

/-- **Writing a file leaves nothing but a part of it.** -/
theorem createOwnerFile_ensures (owner : Bytes) (path : StatePath) (registry : Registry) :
    Ensures (createOwnerFile path owner) (filled owner path registry) registry := by
  refine ensures_bind (ensures_createNew (fun habsent => ?_)
    (fun hexists => ⟨.inl rfl, fun _ => ⟨rfl, hexists⟩⟩) ⟨.inl rfl, by simp [IoError.kind]⟩ (.inl rfl))
  have hfills : ∀ {content}, Written owner content →
      Fills owner path registry (registry.put path content) :=
    fun hwritten => .inr ⟨habsent, _, hwritten, rfl⟩
  -- after an error the file is removed, or what was written of it stays
  have hclean : ∀ {content}, Written owner content →
      Ensures (do let _ ← (removeFile path).attempt; .fail (.host .other))
        (filled owner path registry) (registry.put path content) := by
    intro content hwritten
    refine ensures_bind (ensures_attempt (ensures_removeFile ?_ (fun _ => ?_) (hfills hwritten)))
    · rw [erase_put habsent]
      exact ensures_fail ⟨.inl rfl, by simp [IoError.kind]⟩
    · exact ensures_fail ⟨hfills hwritten, by simp [IoError.kind]⟩
  have htorn : ∀ written, Written owner ([] ++ owner.take written) :=
    fun written => .torn (List.take_prefix written owner)
  have hline : ∀ written, Written owner ([] ++ owner ++ [Ascii.newline].take written) := by
    intro written
    cases written with
    | zero => exact .torn (by simp)
    | succ _ => simpa [line] using @Written.whole owner
  refine ensures_bind (ensures_attempt (ensures_bind (ensures_writeAll ?_
    (fun written => hclean (htorn written)) fun written => hfills (htorn written))))
  refine ensures_bind (ensures_writeAll ?_
    (fun written => hclean (hline written)) fun written => hfills (hline written))
  exact ensures_step (ensures_pure ⟨habsent, rfl⟩) (fun _ => hclean .whole) fun _ => hfills .whole

/-- A claim to a file: it is written, or it is there already. -/
theorem claim_ensures (hvalid : validateInstanceId owner = .ok ()) :
    Ensures (claim path owner)
      { returned := fun result after => Fills owner path registry after ∧
          (result ≠ .ownedByAnother ∧ after.Names path owner ∨
            result = .ownedByAnother ∧ registry.files path ≠ none ∧ ¬registry.Names path owner)
        failed := fun _ => Fills owner path registry
        stopped := Fills owner path registry } registry := by
  refine ensures_bind (ensures_attempt ((createOwnerFile_ensures owner path registry).mono ?_ ?_ ?_))
  · rintro ⟨⟩ after ⟨habsent, rfl⟩
    have hfills : Fills owner path registry (registry.put path (line owner)) :=
      .inr ⟨habsent, _, .whole, rfl⟩
    refine ensures_bind (ensures_touch ?_ (fun _ => hfills) hfills)
    exact ensures_pure
      ⟨hfills, .inl ⟨nofun, names_put_self.mpr (parseOwner_line hvalid)⟩⟩
  · rintro error after ⟨hfills, hexists⟩
    by_cases hkind : error.kind = .alreadyExists
    · obtain ⟨rfl, hfile⟩ := hexists hkind
      simp only [hkind, if_true]
      refine ensures_bind (ensures_readOwner (fun name hname => ?_) (fun _ => hfills) hfills)
      by_cases howner : name = some owner
      · simp only [howner, if_true]
        exact ensures_pure ⟨hfills, .inl ⟨nofun, hname.trans (congrArg _ howner)⟩⟩
      · simp only [howner, if_false]
        refine ensures_pure ⟨hfills, .inr ⟨rfl, hfile, fun hnames => howner ?_⟩⟩
        exact Except.ok.inj (hname.symm.trans hnames)
    · simp only [hkind, if_false]
      exact ensures_fail hfills
  · exact fun _ => id

/-- Moves in a row. -/
abbrev Moves (base : UInt32) : Registry → Registry → Prop :=
  Relation.ReflTransGen (Registry.Move base)

theorem Fills.moves {after : Registry} (h : Fills owner path registry after)
    (hmove : ∀ content, registry.files path = none → Written owner content →
      Registry.Move base registry (registry.put path content)) : Moves base registry after := by
  rcases h with rfl | ⟨habsent, content, hwritten, rfl⟩
  · exact .refl
  · exact .single (hmove content habsent hwritten)

/-- An operation that ends in moves, and what is true when it returns. -/
def movesTo (base : UInt32) (registry : Registry) {ε α : Type} (returned : α → Registry → Prop) :
    Post Registry ε α where
  returned result after := Moves base registry after ∧ returned result after
  failed _ := Moves base registry
  stopped := Moves base registry

/-- An id an allocation may publish: nobody has used it, or it is the owner's own. -/
inductive Publishes (base : UInt32) (owner : Bytes) (registry : Registry) : UInt32 → Prop
  | fresh {offset : ℕ} (hpresent : registry.present = true) (hspan : offset < allocationSpan base)
      (hpassed : ∀ earlier < offset, registry.Passed owner (candidate base owner earlier))
      (hunused : registry.Unused (candidate base owner offset)) :
      Publishes base owner registry (candidate base owner offset)
  | resumed {id : UInt32} (hpending : registry.Names (pendingPath id) owner)
      (hclaim : registry.files (claimPath id) = none ∨ registry.Names (claimPath id) owner)
      (hreleased : registry.files (tombstonePath id) = none) : Publishes base owner registry id

/-- **Publishing an id** leads to a claim of the owner. -/
theorem publishPendingClaim_ensures (hvalid : validateInstanceId owner = .ok ())
    (hpublishes : Publishes base owner registry id) :
    Ensures (publishPendingClaim id owner)
      (movesTo base registry fun result after => result = .alreadyOwned ∧ after.Holds id owner)
      registry := by
  have hpending : ∀ {after}, Fills owner (pendingPath id) registry after →
      Moves base registry after := by
    intro after hfills
    refine hfills.moves fun content habsent hwritten => ?_
    cases hpublishes with
    | fresh hpresent hspan hpassed hunused =>
      exact .reserved hvalid hpresent hspan hpassed hunused hwritten
    | resumed hname _ _ => exact absurd habsent hname.file
  have hothers : ∀ {after}, Fills owner (pendingPath id) registry after →
      (after.files (claimPath id) = none ∨ after.Names (claimPath id) owner) ∧
        after.files (tombstonePath id) = none := by
    intro after hfills
    have hsame : after.files (claimPath id) = registry.files (claimPath id) ∧
        after.files (tombstonePath id) = registry.files (tombstonePath id) := by
      rcases hfills with rfl | ⟨-, content, -, rfl⟩
      · exact ⟨rfl, rfl⟩
      · simp [claimPath, tombstonePath, pendingPath]
    rw [Registry.Names, owner_congr hsame.1, hsame.1, hsame.2]
    cases hpublishes with
    | fresh _ _ _ hunused => exact ⟨.inl (hunused _), hunused _⟩
    | resumed _ hclaim hreleased => exact ⟨hclaim, hreleased⟩
  have hmarked : registry.files (pendingPath id) = none ∨ registry.Names (pendingPath id) owner := by
    cases hpublishes with
    | fresh _ _ _ hunused => exact .inl (hunused _)
    | resumed hname _ _ => exact .inr hname
  refine ensures_bind ((claim_ensures hvalid).mono ?_ (fun _ _ => hpending) fun _ => hpending)
  rintro result marked ⟨hfills, ⟨hresult, hnames⟩ | ⟨-, hfile, hother⟩⟩
  swap
  · exact absurd (hmarked.resolve_left hfile) hother
  obtain ⟨hclaim, hreleased⟩ := hothers hfills
  have hclaimed : ∀ {after}, Fills owner (claimPath id) marked after → Moves base registry after := by
    refine fun hfills' => (hpending hfills).trans (hfills'.moves fun content habsent hwritten => ?_)
    exact .claimed hvalid hnames habsent hreleased hwritten
  cases result with
  | ownedByAnother => exact absurd rfl hresult
  | created | alreadyOwned =>
    refine ensures_bind ((claim_ensures hvalid).mono ?_ (fun _ _ => hclaimed) fun _ => hclaimed)
    rintro result after ⟨hfills', ⟨hresult', hnames'⟩ | ⟨-, hfile, hother⟩⟩
    swap
    · exact absurd (hclaim.resolve_left hfile) hother
    have htombstone : after.files (tombstonePath id) = none := by
      rcases hfills' with rfl | ⟨-, content, -, rfl⟩
      · exact hreleased
      · simpa [claimPath, tombstonePath] using hreleased
    cases result with
    | created | alreadyOwned =>
      exact ensures_pure ⟨hclaimed hfills', rfl, .inl hnames', htombstone⟩
    | ownedByAnother => exact absurd rfl hresult'

/-! ## Reading the files of an id -/

/-- The owners in the files of an id, read and compared. -/
structure StateOwners (registry : Registry) (id : UInt32)
    (claimOwner pendingOwner releasedOwner : Option Bytes) : Prop where
  claim : registry.owner (claimPath id) = .ok claimOwner
  pending : registry.owner (pendingPath id) = .ok pendingOwner
  released : registry.owner (tombstonePath id) = .ok releasedOwner
  agree : validateCandidateOwners id claimOwner pendingOwner releasedOwner = .ok ()

variable {claimOwner pendingOwner releasedOwner : Option Bytes}

theorem validateCandidateOwners_eq_ok :
    validateCandidateOwners id claimOwner pendingOwner releasedOwner = .ok () ↔
      ∃ owner, (∀ name ∈ claimOwner, name = owner) ∧ (∀ name ∈ pendingOwner, name = owner) ∧
        ∀ name ∈ releasedOwner, name = owner := by
  cases claimOwner <;> cases pendingOwner <;> cases releasedOwner <;>
    simp [validateCandidateOwners]

variable {name : Option Bytes}

namespace StateOwners

theorem names_iff (h : registry.owner path = .ok name) :
    registry.Names path owner ↔ name = some owner := by
  rw [Registry.Names, h, Except.ok.injEq]

theorem absent_iff (h : registry.owner path = .ok name) :
    registry.files path = none ↔ name = none :=
  ⟨fun habsent => Except.ok.inj (h.symm.trans (owner_of_absent habsent)),
    fun hnone => owner_eq_none (h.trans (congrArg _ hnone))⟩

variable (h : StateOwners registry id claimOwner pendingOwner releasedOwner)
include h

theorem readable : registry.Readable id
  | .claim => ⟨_, h.claim⟩
  | .pending => ⟨_, h.pending⟩
  | .released => ⟨_, h.released⟩

theorem holds_iff : registry.Holds id owner ↔
    (claimOwner = some owner ∨ pendingOwner = some owner) ∧ releasedOwner = none := by
  rw [Registry.Holds, names_iff h.claim, names_iff h.pending, absent_iff h.released]

theorem unused_iff : registry.Unused id ↔
    claimOwner = none ∧ pendingOwner = none ∧ releasedOwner = none := by
  rw [← absent_iff h.claim, ← absent_iff h.pending, ← absent_iff h.released]
  refine ⟨fun hunused => ⟨hunused _, hunused _, hunused _⟩, fun hunused file => ?_⟩
  cases file with
  | claim => exact hunused.1
  | pending => exact hunused.2.1
  | released => exact hunused.2.2

theorem used_of_not (hsome : ¬(claimOwner = none ∧ pendingOwner = none ∧ releasedOwner = none)) :
    registry.Used id := by
  by_contra hunused
  exact hsome (h.unused_iff.mp fun file => by_contra fun hfile => hunused ⟨file, hfile⟩)

theorem names_eq (howner : claimOwner = some owner ∨ pendingOwner = some owner ∨
      releasedOwner = some owner) :
    ∀ file name, registry.Names ⟨id, file⟩ name → name = owner := by
  obtain ⟨expected, hclaim, hpending, hreleased⟩ := validateCandidateOwners_eq_ok.mp h.agree
  have hexpected : owner = expected := by
    rcases howner with howner | howner | howner
    · exact hclaim owner howner
    · exact hpending owner howner
    · exact hreleased owner howner
  subst hexpected
  intro file name hname
  cases file with
  | claim => exact hclaim name ((names_iff h.claim).mp hname)
  | pending => exact hpending name ((names_iff h.pending).mp hname)
  | released => exact hreleased name ((names_iff h.released).mp hname)

/-- A claim beside a marker is the same owner's. -/
theorem claim_eq (hpending : pendingOwner = some owner) :
    registry.files (claimPath id) = none ∨ registry.Names (claimPath id) owner := by
  rw [absent_iff h.claim, names_iff h.claim]
  cases hclaim : claimOwner with
  | none => exact .inl rfl
  | some name =>
    exact .inr (congrArg some (h.names_eq (.inr (.inl hpending)) .claim name
      ((names_iff h.claim).mpr hclaim)))

/-- A marker stands beside a claim of the same owner. -/
theorem pending_eq (hclaim : claimOwner = some owner) (hpending : pendingOwner ≠ none) :
    pendingOwner = some owner := by
  obtain ⟨name, rfl⟩ := Option.ne_none_iff_exists'.mp hpending
  exact congrArg some (h.names_eq (.inl hclaim) .pending name h.pending)

end StateOwners

/-- Three files of an id are read, and their owners compared. -/
theorem ensures_readCandidate {p q r : StatePath} {α : Type}
    {next : Option Bytes → Option Bytes → Option Bytes → Program Registry DiskLimitError α}
    {post : Post Registry DiskLimitError α}
    (hnext : ∀ first second third, registry.owner p = .ok first → registry.owner q = .ok second →
      registry.owner r = .ok third → Ensures (next first second third) post registry)
    (hfailed : ∀ error, post.failed error registry) (hstopped : post.stopped registry) :
    Ensures (do
      let first ← readRegistryOwner p
      let second ← readRegistryOwner q
      let third ← readRegistryOwner r
      next first second third) post registry := by
  refine ensures_bind (ensures_readRegistryOwner (fun first hfirst => ?_) hfailed hstopped)
  refine ensures_bind (ensures_readRegistryOwner (fun second hsecond => ?_) hfailed hstopped)
  refine ensures_bind (ensures_readRegistryOwner (fun third hthird => ?_) hfailed hstopped)
  exact hnext first second third hfirst hsecond hthird

/-! ## Allocation -/

theorem Publishes.free (h : Publishes base owner registry id) :
    registry.Unused id ∨ registry.Holds id owner := by
  cases h with
  | fresh _ _ _ hunused => exact .inl hunused
  | resumed hname _ hreleased => exact .inr ⟨.inr hname, hreleased⟩

/-- What an allocation hands out. -/
structure Allocated (base : UInt32) (owner : Bytes) (registry : Registry) (id : UInt32)
    (after : Registry) : Prop where
  probed : ∃ offset < allocationSpan base, id = candidate base owner offset ∧
    (∀ earlier < offset, registry.Passed owner (candidate base owner earlier))
  readable : registry.Readable id
  free : registry.Unused id ∨ registry.Holds id owner
  holds : after.Holds id owner

variable {offset : ℕ}

theorem allocateFrom_ensures (hvalid : validateInstanceId owner = .ok ())
    (hpresent : registry.present = true) :
    ∀ (count offset : ℕ), offset + count = allocationSpan base →
      (∀ earlier < offset, registry.Passed owner (candidate base owner earlier)) →
      Ensures (allocateFrom owner base (List.range' offset count))
        (movesTo base registry (Allocated base owner registry)) registry
  | 0, _, _, _ => ensures_fail .refl
  | count + 1, offset, hspan, hpassed => by
    refine ensures_readCandidate (fun claimOwner pendingOwner releasedOwner hclaim hpending
      hreleased => ?_) (fun _ => .refl) .refl
    refine ensures_bind (ensures_ofExcept (fun _ hvalidate => ?_) fun _ _ => .refl)
    have howners : StateOwners registry (candidate base owner offset) _ _ _ :=
      ⟨hclaim, hpending, hreleased, hvalidate⟩
    have hprobed := fun (after : Registry) => @Allocated.mk base owner registry
      (candidate base owner offset) after ⟨offset, by omega, rfl, hpassed⟩ howners.readable
    have hnext := fun hused hunheld => allocateFrom_ensures hvalid hpresent count (offset + 1)
      (by omega) (Nat.forall_lt_succ_right.mpr ⟨hpassed, hused, hunheld, howners.readable⟩)
    cases releasedOwner with
    | some name =>
      exact hnext (howners.used_of_not (by simp)) (by simp [howners.holds_iff])
    | none =>
      simp only [Option.isSome_none, Bool.false_eq_true, if_false]
      split
      · -- the claim is in service
        have hheld : registry.Holds (candidate base owner offset) owner :=
          howners.holds_iff.mpr ⟨.inl (by simp_all), rfl⟩
        exact ensures_pure ⟨.refl, hprobed _ (.inr hheld) hheld⟩
      rename_i hown
      split
      · -- the id is another owner's
        rename_i hother
        simp only [Bool.and_eq_true, decide_eq_true_eq, not_and, Bool.not_eq_true',
          decide_eq_false_iff_not, Bool.and_eq_false_imp] at hown hother
        refine hnext (howners.used_of_not fun hnone => hother.2 hnone.1 hnone.2.1) fun hheld => ?_
        rcases (howners.holds_iff.mp hheld).1 with hclaim | hmarker
        · exact hother.1 (howners.pending_eq hclaim (hown hclaim))
        · exact hother.1 hmarker
      next hother =>
        have hpublishes : Publishes base owner registry (candidate base owner offset) := by
          by_cases hmarker : pendingOwner = some owner
          · exact .resumed ((StateOwners.names_iff hpending).mpr hmarker)
              (howners.claim_eq hmarker) ((StateOwners.absent_iff hreleased).mpr rfl)
          · refine .fresh hpresent (by omega) hpassed (howners.unused_iff.mpr ?_)
            simpa [hmarker] using hother
        refine ensures_bind (ensures_mapError ((publishPendingClaim_ensures hvalid hpublishes).mono
          ?_ (fun _ _ => id) fun _ => id))
        rintro result after ⟨hmoves, rfl, hholds⟩
        exact ensures_pure ⟨hmoves, hprobed _ hpublishes.free hholds⟩

/-! ## Search -/

/-- Every file a search reads on its way to the id can be read. -/
def Clear (base : UInt32) (owner : Bytes) (registry : Registry) (id : UInt32) : Prop :=
  ∀ offset < allocationSpan base, (∀ earlier < offset, candidate base owner earlier ≠ id) →
    registry.Readable (candidate base owner offset)

theorem clear_of_passed
    (hpassed : ∀ earlier < offset, registry.Passed owner (candidate base owner earlier))
    (hreadable : registry.Readable (candidate base owner offset)) :
    Clear base owner registry (candidate base owner offset) := by
  intro offset' _ hfirst
  rcases Nat.lt_trichotomy offset' offset with hlt | rfl | hgt
  · exact (hpassed offset' hlt).readable
  · exact hreadable
  · exact absurd rfl (hfirst offset hgt)

/-- The state of an id, as its files show it. -/
def Registry.stateOf (registry : Registry) (id : UInt32) : ProjectIdState :=
  claimState (registry.files (pendingPath id)).isSome (registry.files (tombstonePath id)).isSome

/-- What a search may hand back: an id that carries no name but the owner's. -/
structure Found (base : UInt32) (owner : Bytes) (registry : Registry) (claim : ProjectIdClaim) :
    Prop where
  probed : ∃ offset < allocationSpan base, claim.id = candidate base owner offset
  used : registry.Used claim.id
  names : ∀ file name, registry.Names ⟨claim.id, file⟩ name → name = owner

/-- What a search ends in: the registry is untouched, and an id that is held is found. -/
def searched (base : UInt32) (owner : Bytes) (registry : Registry) :
    Post Registry DiskLimitError (Option ProjectIdClaim) where
  returned result after := after = registry ∧ (∀ claim ∈ result, Found base owner registry claim) ∧
    ∀ id, registry.Holds id owner → result = some ⟨id, registry.stateOf id⟩ ∧
      Clear base owner registry id
  failed _ after := after = registry
  stopped after := after = registry

theorem StateOwners.stateOf_eq (h : StateOwners registry id claimOwner pendingOwner releasedOwner) :
    registry.stateOf id = claimState pendingOwner.isSome releasedOwner.isSome := by
  have hisSome : ∀ {path name}, registry.owner path = .ok name →
      (registry.files path).isSome = name.isSome := by
    intro path name hname
    rw [Bool.eq_iff_iff, Option.isSome_iff_ne_none, Option.isSome_iff_ne_none, Ne, Ne,
      absent_iff hname]
  rw [Registry.stateOf, hisSome h.pending, hisSome h.released]

theorem claimState_eq_released {marker tombstone : Bool} :
    claimState marker tombstone = .released ↔ tombstone = true := by
  cases marker <;> cases tombstone <;> decide

/-- The search stops at an id that is held. -/
theorem StateOwners.found_iff (h : StateOwners registry id claimOwner pendingOwner releasedOwner) :
    ((decide (claimOwner = some owner) || decide (pendingOwner = some owner) ||
      decide (claimOwner = none) && decide (releasedOwner = some owner)) &&
      decide (claimState pendingOwner.isSome releasedOwner.isSome ≠ .released)) = true ↔
      registry.Holds id owner := by
  simp only [h.holds_iff, Bool.and_eq_true, Bool.or_eq_true, decide_eq_true_eq, ne_eq,
    claimState_eq_released, Option.isSome_iff_ne_none, not_not]
  grind

/-- The first released id of the caller is remembered. -/
theorem found_recorded {owned : Bool} {releasedClaim : Option ProjectIdClaim}
    {claim : ProjectIdClaim} (hfound : ∀ claim ∈ releasedClaim, Found base owner registry claim)
    (hclaim : owned = true → Found base owner registry claim) :
    ∀ found ∈ (if owned then releasedClaim.or (some claim) else releasedClaim),
      Found base owner registry found := by
  intro found hmem
  cases owned with
  | false => exact hfound found hmem
  | true =>
    cases releasedClaim with
    | some _ => exact hfound found hmem
    | none =>
      cases hmem
      exact hclaim rfl

theorem findFrom_ensures (hkept : registry.WellKept base) :
    ∀ (count offset : ℕ) (releasedClaim : Option ProjectIdClaim),
      offset + count = allocationSpan base →
      (∀ earlier < offset, registry.Passed owner (candidate base owner earlier)) →
      (∀ claim ∈ releasedClaim, Found base owner registry claim) →
      Ensures (findFrom owner base (List.range' offset count) releasedClaim)
        (searched base owner registry) registry
  | 0, offset, _, hspan, hpassed, hfound => by
    refine ensures_pure ⟨rfl, hfound, fun id hheld => ?_⟩
    obtain ⟨own, hown, rfl, -⟩ := hkept.probed id owner hheld
    exact absurd hheld (hpassed own (by omega)).unheld
  | count + 1, offset, releasedClaim, hspan, hpassed, hfound => by
    refine ensures_readCandidate (fun claimOwner releasedOwner pendingOwner hclaim hreleased
      hpending => ?_) (fun _ => rfl) rfl
    refine ensures_bind (ensures_ofExcept (fun _ hvalidate => ?_) fun _ _ => rfl)
    have howners : StateOwners registry (candidate base owner offset) _ _ _ :=
      ⟨hclaim, hpending, hreleased, hvalidate⟩
    dsimp only
    have hfoundHere : claimOwner = some owner ∨ pendingOwner = some owner ∨
        releasedOwner = some owner →
        Found base owner registry ⟨candidate base owner offset,
          claimState pendingOwner.isSome releasedOwner.isSome⟩ := fun hname =>
      ⟨⟨offset, by omega, rfl⟩, howners.used_of_not (by grind), howners.names_eq hname⟩
    split
    · -- an id of the caller that is not released
      rename_i hown
      have hheld := howners.found_iff.mp hown
      refine ensures_pure ⟨rfl, fun claim hclaim => ?_, fun id hheld' => ?_⟩
      · cases hclaim
        exact hfoundHere ((howners.holds_iff.mp hheld).1.imp id .inl)
      · cases hkept.unique _ _ _ hheld hheld'
        rw [howners.stateOf_eq]
        exact ⟨rfl, clear_of_passed hpassed howners.readable⟩
    next hown =>
      have hnames : (decide (claimOwner = some owner) || decide (pendingOwner = some owner) ||
          decide (claimOwner = none) && decide (releasedOwner = some owner)) = true →
          claimOwner = some owner ∨ pendingOwner = some owner ∨ releasedOwner = some owner := by
        grind
      have hfoundNext := found_recorded hfound fun howned => hfoundHere (hnames howned)
      split
      next hnone =>
        have hunused : registry.Unused (candidate base owner offset) :=
          howners.unused_iff.mpr (by simpa [and_assoc] using hnone)
        exact ensures_pure ⟨rfl, hfoundNext, fun id hheld =>
          absurd hheld (hkept.unheld hunused hpassed id)⟩
      next hnone =>
        have hused := howners.used_of_not (by simpa [and_assoc] using hnone)
        exact findFrom_ensures hkept count (offset + 1) _ (by omega) (Nat.forall_lt_succ_right.mpr
          ⟨hpassed, hused, hown ∘ howners.found_iff.mpr, howners.readable⟩) hfoundNext

/-! ## Release and activation -/

/-- An id of one owner gets its tombstone, or has it already. -/
theorem writeTombstone_ensures (hvalid : validateInstanceId owner = .ok ())
    (hused : registry.Used id)
    (hnames : ∀ file name, registry.Names ⟨id, file⟩ name → name = owner) :
    Ensures (writeTombstone id owner)
      (movesTo base registry fun _ after => after.Names (tombstonePath id) owner) registry := by
  have hmoves : ∀ {after}, Fills owner (tombstonePath id) registry after →
      Moves base registry after :=
    fun hfills => hfills.moves fun _ habsent hwritten =>
      .released hvalid hused hnames habsent hwritten
  refine ensures_bind (ensures_attempt
    ((createOwnerFile_ensures owner (tombstonePath id) registry).mono ?_ ?_ fun _ => hmoves))
  · rintro ⟨⟩ after ⟨habsent, rfl⟩
    have hafter := hmoves (.inr ⟨habsent, _, .whole, rfl⟩)
    exact ensures_touch ⟨hafter, names_put_self.mpr (parseOwner_line hvalid)⟩
      (fun _ => hafter) hafter
  rintro error after ⟨hfills, hexists⟩
  by_cases hkind : error.kind = .alreadyExists
  · obtain ⟨rfl, -⟩ := hexists hkind
    simp only [hkind, if_true]
    refine ensures_bind (ensures_readOwner (fun name hname => ?_) (fun _ => .refl) .refl)
    by_cases howner : name = some owner
    · simp only [howner, if_true]
      exact ensures_pure ⟨.refl, hname.trans (congrArg _ howner)⟩
    · simp only [howner, if_false]
      exact ensures_fail .refl
  · simp only [hkind, if_false]
    exact ensures_fail (hmoves hfills)

theorem removePending_ensures
    (hmove : Registry.Move base registry (registry.erase (pendingPath id))) :
    Ensures (removePending id owner) (movesTo base registry fun _ _ => True) registry := by
  refine ensures_bind (ensures_readOwner (fun name _ => ?_) (fun _ => .refl) .refl)
  cases name with
  | none => exact ensures_pure ⟨.refl, trivial⟩
  | some name =>
    dsimp only
    split
    · exact ensures_fail .refl
    · refine ensures_bind (ensures_removeFile ?_ (fun _ => .refl) .refl)
      exact ensures_touch ⟨.single hmove, trivial⟩ (fun _ => .single hmove) (.single hmove)

theorem ensures_openExistingRegistry {post : Post Registry DiskLimitError Bool}
    (hreturned : post.returned registry.present registry)
    (hfailed : ∀ error, post.failed error registry) (hstopped : post.stopped registry) :
    Ensures openExistingRegistry post registry := by
  refine ensures_bind (ensures_mapError (ensures_touch ?_ (fun _ => hfailed _) hstopped))
  exact ensures_bind (ensures_look (ensures_pure hreturned))

theorem ensures_lockRegistry {post : Post Registry DiskLimitError Unit}
    (hreturned : post.returned () registry) (hfailed : ∀ error, post.failed error registry)
    (hstopped : post.stopped registry) : Ensures lockRegistry post registry :=
  ensures_mapError (ensures_touch hreturned (fun _ => hfailed _) hstopped)

/-! ## The four operations -/

theorem allocateSync_ensures :
    Ensures (allocateSync owner base)
      (movesTo base registry fun id after => Allocated base owner registry id after) registry := by
  refine ensures_bind (ensures_ofExcept (fun _ hvalid => ?_) fun _ _ => .refl)
  have hopened : Moves base registry { registry with present := true } := .single .opened
  refine ensures_bind (ensures_bind (ensures_step ?_ (fun _ => .refl) fun _ => .refl))
  refine ensures_mapError (ensures_touch ?_ (fun _ => hopened) hopened)
  refine ensures_bind (ensures_lockRegistry ?_ (fun _ => hopened) hopened)
  refine (allocateFrom_ensures hvalid rfl _ 0 (Nat.zero_add _) nofun).mono ?_
    (fun _ _ => hopened.trans) fun _ => hopened.trans
  rintro id after ⟨hmoves, ⟨offset, hspan, hid, hpassed⟩, hreadable, hfree, hholds⟩
  -- the new directory is empty: what was read is what was there before
  refine ⟨hopened.trans hmoves, ⟨offset, hspan, hid, fun earlier hlt => ?_⟩, hreadable, hfree, hholds⟩
  exact ⟨(hpassed earlier hlt).used, (hpassed earlier hlt).unheld, (hpassed earlier hlt).readable⟩

section Kept

variable (hkept : registry.WellKept base)
include hkept

theorem Registry.WellKept.present_of_holds (hheld : registry.Holds id owner) :
    registry.present = true :=
  hheld.used.elim fun _ => hkept.present _

theorem findLocked_ensures :
    Ensures (findLocked owner base) (searched base owner registry) registry :=
  findFrom_ensures hkept _ 0 none (Nat.zero_add _) nofun nofun

theorem findSync_ensures :
    Ensures (findSync owner base) (searched base owner registry) registry := by
  refine ensures_bind (ensures_ofExcept (fun _ hvalid => ?_) fun _ _ => rfl)
  refine ensures_bind (ensures_openExistingRegistry ?_ (fun _ => rfl) rfl)
  cases hpresent : registry.present with
  | false =>
    refine ensures_pure ⟨rfl, nofun, fun id hheld => ?_⟩
    rw [hkept.present_of_holds hheld] at hpresent
    cases hpresent
  | true =>
    exact ensures_bind (ensures_lockRegistry (findLocked_ensures hkept) (fun _ => rfl) rfl)

theorem releaseSync_ensures :
    Ensures (releaseSync owner base)
      (movesTo base registry fun result _ => ∀ id ∈ result, ∃ offset < allocationSpan base,
        id = candidate base owner offset) registry := by
  refine ensures_bind (ensures_ofExcept (fun _ hvalid => ?_) fun _ _ => .refl)
  refine ensures_bind (ensures_openExistingRegistry ?_ (fun _ => .refl) .refl)
  cases hpresent : registry.present with
  | false => exact ensures_pure ⟨.refl, nofun⟩
  | true =>
    refine ensures_bind (ensures_lockRegistry ?_ (fun _ => .refl) .refl)
    refine ensures_bind ((findLocked_ensures hkept).mono ?_ ?_ ?_)
    · rintro result _ ⟨rfl, hfound, -⟩
      cases result with
      | none => exact ensures_pure ⟨.refl, nofun⟩
      | some claim =>
        obtain ⟨⟨offset, hspan, hid⟩, hused, hnames⟩ := hfound claim rfl
        refine ensures_bind (ensures_mapError ((writeTombstone_ensures hvalid hused hnames).mono ?_
          (fun _ _ => id) fun _ => id))
        rintro ⟨⟩ after ⟨hmoves, htombstone⟩
        refine ensures_bind (ensures_mapError ((removePending_ensures (.cleaned htombstone)).mono ?_
          (fun _ _ => hmoves.trans) fun _ => hmoves.trans))
        rintro ⟨⟩ last ⟨hlast, -⟩
        refine ensures_pure ⟨hmoves.trans hlast, ?_⟩
        rintro _ ⟨⟩
        exact ⟨offset, hspan, hid⟩
    · rintro _ _ rfl
      exact .refl
    · rintro _ rfl
      exact .refl

end Kept

theorem activateSync_ensures :
    Ensures (activateSync owner id)
      (movesTo base registry fun _ _ => registry.files (tombstonePath id) = none) registry := by
  refine ensures_bind (ensures_ofExcept (fun _ hvalid => ?_) fun _ _ => .refl)
  refine ensures_bind (ensures_openExistingRegistry ?_ (fun _ => .refl) .refl)
  cases hpresent : registry.present with
  | false => exact ensures_fail .refl
  | true =>
    refine ensures_bind (ensures_lockRegistry ?_ (fun _ => .refl) .refl)
    refine ensures_readCandidate (fun claimOwner pendingOwner releasedOwner hclaim hpending
      hreleased => ?_) (fun _ => .refl) .refl
    refine ensures_bind (ensures_ofExcept (fun _ hvalidate => ?_) fun _ _ => .refl)
    cases releasedOwner with
    | some name => exact ensures_fail .refl
    | none =>
      have habsent := owner_eq_none hreleased
      by_cases howner : claimOwner = some owner
      · simp only [howner, Option.isSome_none, ne_eq, not_true_eq_false, if_false,
          Bool.false_eq_true]
        have hmove : Registry.Move base registry (registry.erase (pendingPath id)) :=
          .activated (hclaim.trans (congrArg _ howner))
        exact ensures_mapError ((removePending_ensures hmove).mono
          (fun _ _ h => ⟨h.1, habsent⟩) (fun _ _ h => h) fun _ h => h)
      · simp only [howner, Option.isSome_none, ne_eq, not_false_eq_true, if_true, if_false,
          Bool.false_eq_true]
        exact ensures_fail .refl

/-! ## Runs without a fault -/

theorem touch_grants : Grants touch registry () registry := rfl

theorem readRegistryOwner_grants (h : registry.owner path = .ok name) :
    Grants (readRegistryOwner path) registry name registry :=
  grants_mapError (grants_bind touch_grants (grants_bind rfl (grants_ofExcept h)))

theorem createOwnerFile_exists (h : registry.files path ≠ none) :
    createOwnerFile path owner ⟨registry, []⟩ =
      (.failed (.host .alreadyExists), ⟨registry, []⟩) := by
  simp [createOwnerFile, createNew, bind, Program.bind, Program.look,
    Option.isSome_iff_ne_none.mpr h, Program.fail]

theorem createOwnerFile_grants (h : registry.files path = none) :
    Grants (createOwnerFile path owner) registry () (registry.put path (line owner)) := by
  have hcreate : Grants (createNew path) registry () (registry.put path []) := by
    simp [Grants, createNew, bind, Program.bind, Program.look, h, Program.step]
  have hwrite : ∀ content bytes, Grants (writeAll path bytes) (registry.put path content) ()
      (registry.put path (content ++ bytes)) := by
    simp [Grants, writeAll, Program.step]
  exact grants_bind hcreate (grants_bind (grants_attempt
    (grants_bind (hwrite _ _) (grants_bind (hwrite _ _) rfl))) rfl)

theorem claim_grants_owned (h : registry.Names path owner) :
    Grants (claim path owner) registry .alreadyOwned registry := by
  refine grants_bind (grants_attempt_failed (createOwnerFile_exists h.file)) ?_
  refine grants_bind (grants_bind touch_grants (grants_bind rfl (grants_ofExcept h))) ?_
  simp only [if_true]
  rfl

theorem claim_grants_created (h : registry.files path = none) :
    Grants (claim path owner) registry .created (registry.put path (line owner)) :=
  grants_bind (grants_attempt (createOwnerFile_grants h)) (grants_bind touch_grants rfl)

theorem publishPendingClaim_grants (hpending : registry.Names (pendingPath id) owner)
    (hclaim : registry.files (claimPath id) = none ∨ registry.Names (claimPath id) owner) :
    ∃ after, Grants (publishPendingClaim id owner) registry .alreadyOwned after := by
  rcases hclaim with habsent | hname
  · exact ⟨_, grants_bind (claim_grants_owned hpending)
      (grants_bind (claim_grants_created habsent) rfl)⟩
  · exact ⟨_, grants_bind (claim_grants_owned hpending)
      (grants_bind (claim_grants_owned hname) rfl)⟩

theorem publishPendingClaim_grants_unused (h : registry.Unused id) :
    ∃ after, Grants (publishPendingClaim id owner) registry .alreadyOwned after := by
  have hclaim : (registry.put (pendingPath id) (line owner)).files (claimPath id) = none :=
    (files_put_of_ne (by simp [claimPath, pendingPath])).trans (h .claim)
  exact ⟨_, grants_bind (claim_grants_created (h .pending))
    (grants_bind (claim_grants_created hclaim) rfl)⟩

/-- An allocation takes the id: it is free, or the owner holds it. -/
def Registry.Usable (registry : Registry) (owner : Bytes) (id : UInt32) : Prop :=
  registry.Unused id ∨ registry.Holds id owner

/-- Every file an allocation reads can be read: those of the ids up to the first it can take. -/
def Unblocked (base : UInt32) (owner : Bytes) (registry : Registry) : Prop :=
  ∀ offset < allocationSpan base,
    (∀ earlier < offset, ¬registry.Usable owner (candidate base owner earlier)) →
    registry.Readable (candidate base owner offset)

theorem Clear.unblocked (h : Clear base owner registry id) (hheld : registry.Holds id owner) :
    Unblocked base owner registry :=
  fun offset hspan hfirst => h offset hspan fun earlier hlt hid =>
    hfirst earlier hlt (.inr (hid ▸ hheld))

variable (hkept : registry.WellKept base)
include hkept

/-- Files that can be read agree. -/
theorem Registry.WellKept.stateOwners (hreadable : registry.Readable id) :
    ∃ claimOwner pendingOwner releasedOwner,
      StateOwners registry id claimOwner pendingOwner releasedOwner := by
  obtain ⟨claimOwner, hclaim⟩ := hreadable .claim
  obtain ⟨pendingOwner, hpending⟩ := hreadable .pending
  obtain ⟨releasedOwner, hreleased⟩ := hreadable .released
  refine ⟨claimOwner, pendingOwner, releasedOwner, hclaim, hpending, hreleased, ?_⟩
  have hname : ∀ {path name owner}, registry.owner path = .ok name → owner ∈ name →
      registry.Names path owner := fun h hmem => h.trans (congrArg _ hmem)
  rw [validateCandidateOwners_eq_ok]
  by_cases hsome : ∃ file owner, registry.Names ⟨id, file⟩ owner
  · obtain ⟨file, owner, howner⟩ := hsome
    exact ⟨owner, fun _ hmem => hkept.agree id _ file _ _ (hname hclaim hmem) howner,
      fun _ hmem => hkept.agree id _ file _ _ (hname hpending hmem) howner,
      fun _ hmem => hkept.agree id _ file _ _ (hname hreleased hmem) howner⟩
  · exact ⟨[], fun _ hmem => absurd ⟨_, _, hname hclaim hmem⟩ hsome,
      fun _ hmem => absurd ⟨_, _, hname hpending hmem⟩ hsome,
      fun _ hmem => absurd ⟨_, _, hname hreleased hmem⟩ hsome⟩

/-- An allocation comes to an id it can take if there is one and nothing blocks the way. -/
theorem allocateFrom_grants (hopen : Unblocked base owner registry)
    (husable : ∃ offset < allocationSpan base, registry.Usable owner (candidate base owner offset)) :
    ∀ count offset : ℕ, offset + count = allocationSpan base →
      (∀ earlier < offset, ¬registry.Usable owner (candidate base owner earlier)) →
      ∃ id after, Grants (allocateFrom owner base (List.range' offset count)) registry id after
  | 0, offset, hspan, hfirst => by
    obtain ⟨own, hown, hid⟩ := husable
    exact absurd hid (hfirst own (by omega))
  | count + 1, offset, hspan, hfirst => by
    obtain ⟨claimOwner, pendingOwner, releasedOwner, howners⟩ :=
      hkept.stateOwners (hopen offset (by omega) hfirst)
    -- what is left is the decision about this id
    refine Exists.imp (fun id => Exists.imp fun after hgrants =>
      grants_bind (readRegistryOwner_grants howners.claim) <|
      grants_bind (readRegistryOwner_grants howners.pending) <|
      grants_bind (readRegistryOwner_grants howners.released) <|
      grants_bind (grants_ofExcept howners.agree) hgrants) ?_
    by_cases hid : registry.Usable owner (candidate base owner offset)
    · rcases hid with hunused | hheld
      · obtain ⟨after, hpublish⟩ := @publishPendingClaim_grants_unused _ owner _ hunused
        obtain ⟨rfl, rfl, rfl⟩ := howners.unused_iff.mp hunused
        exact ⟨_, after, grants_bind (grants_mapError hpublish) rfl⟩
      obtain ⟨hname, rfl⟩ := howners.holds_iff.mp hheld
      by_cases hactive : claimOwner = some owner ∧ pendingOwner = none
      · simp only [hactive, Option.isSome_none, Bool.false_eq_true, if_false, decide_true,
          Bool.and_self, if_true]
        exact ⟨_, registry, rfl⟩
      have hmarker : pendingOwner = some owner :=
        hname.elim (fun hclaim => howners.pending_eq hclaim fun hnone => hactive ⟨hclaim, hnone⟩)
          fun hmarker => hmarker
      obtain ⟨after, hpublish⟩ := publishPendingClaim_grants
        ((StateOwners.names_iff howners.pending).mpr hmarker) (howners.claim_eq hmarker)
      simp only [hmarker, Option.isSome_none, Bool.false_eq_true, if_false, reduceCtorEq,
        decide_false, Bool.and_false, decide_true, Bool.not_true, Bool.false_and]
      exact ⟨_, after, grants_bind (grants_mapError hpublish) rfl⟩
    · have ih := allocateFrom_grants hopen husable count (offset + 1) (by omega)
        (Nat.forall_lt_succ_right.mpr ⟨hfirst, hid⟩)
      cases releasedOwner with
      | some name => exact ih
      | none =>
        have hclaim : claimOwner ≠ some owner := fun h =>
          hid (.inr (howners.holds_iff.mpr ⟨.inl h, rfl⟩))
        have hmarker : pendingOwner ≠ some owner := fun h =>
          hid (.inr (howners.holds_iff.mpr ⟨.inr h, rfl⟩))
        have hsome : ¬(claimOwner = none ∧ pendingOwner = none) := fun h =>
          hid (.inl (howners.unused_iff.mpr ⟨h.1, h.2, rfl⟩))
        have hdecide : (decide (claimOwner = none) && decide (pendingOwner = none)) = false := by
          simpa using hsome
        simp only [hclaim, hmarker, hdecide, Option.isSome_none, Bool.false_eq_true, if_false,
          decide_false, Bool.false_and, Bool.not_false, Bool.true_and, if_true]
        exact ih

theorem allocateSync_grants (hvalid : validateInstanceId owner = .ok ())
    (hopen : Unblocked base owner registry)
    (husable : ∃ offset < allocationSpan base, registry.Usable owner (candidate base owner offset)) :
    ∃ id after, Grants (allocateSync owner base) registry id after := by
  obtain ⟨id, after, hgrants⟩ := allocateFrom_grants (Registry.Move.opened.kept hkept) hopen
    husable (allocationSpan base) 0 (Nat.zero_add _) nofun
  exact ⟨id, after, grants_bind (grants_ofExcept hvalid) <|
    grants_bind (grants_bind grants_step (grants_mapError touch_grants)) <|
    grants_bind (grants_mapError touch_grants) hgrants⟩

variable (hheld : registry.Holds id owner)
include hheld

/-- A search for an id that is held passes the ids before it. -/
theorem Registry.WellKept.used_before
    (hfirst : ∀ earlier < offset + 1, candidate base owner earlier ≠ id) :
    registry.Used (candidate base owner offset) ∧
      ¬registry.Holds (candidate base owner offset) owner := by
  obtain ⟨own, -, hid, hused⟩ := hkept.probed id owner hheld
  have hlt : offset < own := by
    by_contra hge
    exact hfirst own (by omega) hid.symm
  exact ⟨hused offset hlt, fun hother =>
    hfirst offset (Nat.lt_succ_self _) (hkept.unique _ _ owner hother hheld)⟩

variable (hclear : Clear base owner registry id)
include hclear

theorem findFrom_grants :
    ∀ (count offset : ℕ) (releasedClaim : Option ProjectIdClaim),
      offset + count = allocationSpan base →
      (∀ earlier < offset, candidate base owner earlier ≠ id) →
      Grants (findFrom owner base (List.range' offset count) releasedClaim) registry
        (some ⟨id, registry.stateOf id⟩) registry
  | 0, offset, _, hspan, hfirst => by
    obtain ⟨own, hown, hid, -⟩ := hkept.probed id owner hheld
    exact absurd hid.symm (hfirst own (by omega))
  | count + 1, offset, releasedClaim, hspan, hfirst => by
    obtain ⟨claimOwner, pendingOwner, releasedOwner, howners⟩ :=
      hkept.stateOwners (hclear offset (by omega) hfirst)
    refine grants_bind (readRegistryOwner_grants howners.claim) <|
      grants_bind (readRegistryOwner_grants howners.released) <|
      grants_bind (readRegistryOwner_grants howners.pending) <|
      grants_bind (grants_ofExcept howners.agree) ?_
    by_cases hid : candidate base owner offset = id
    · subst hid
      rw [howners.stateOf_eq]
      rw [if_pos (howners.found_iff.mpr hheld)]
      rfl
    · have hfirst' := Nat.forall_lt_succ_right.mpr ⟨hfirst, hid⟩
      obtain ⟨hused, hunheld⟩ := hkept.used_before hheld hfirst'
      rw [if_neg (hunheld ∘ howners.found_iff.mp), if_neg]
      · exact findFrom_grants count (offset + 1) _ (by omega) hfirst'
      · intro hnone
        exact not_used (howners.unused_iff.mpr (by simpa [and_assoc] using hnone)) hused

theorem findSync_grants :
    Grants (findSync owner base) registry (some ⟨id, registry.stateOf id⟩) registry := by
  have hopen : Grants openExistingRegistry registry registry.present registry :=
    grants_bind (grants_mapError touch_grants) rfl
  refine grants_bind (grants_ofExcept hheld.valid) (grants_bind hopen ?_)
  rw [hkept.present_of_holds hheld]
  exact grants_bind (grants_mapError touch_grants)
    (findFrom_grants hkept hheld hclear _ 0 none (Nat.zero_add _) nofun)

end Programs

/-! ## The span -/

theorem allocationSpan_pos (base : UInt32) : 0 < allocationSpan base := by
  rw [allocationSpan, projectIdAllocationRangeSize]
  omega

/-- Every id that is probed lies in the span. -/
theorem candidate_range (base : UInt32) (owner : Bytes) (offset : ℕ) :
    base.toNat ≤ (candidate base owner offset).toNat ∧
      (candidate base owner offset).toNat < base.toNat + allocationSpan base := by
  have hbase : base.toNat + allocationSpan base ≤ 2 ^ 32 := by
    have hlt := base.toNat_lt
    rw [allocationSpan]
    omega
  have hrelative := Nat.mod_lt
    ((initialProjectId owner base (allocationSpan base) - base).toNat + offset)
    (allocationSpan_pos base)
  simp only [candidate, probeCandidate, UInt32.toNat_add, UInt32.toNat_ofNat']
  omega

end DatabasesEverywhere.Disk
