import DatabasesEverywhere.Watcher.Touch

/-!
# Watcher/Dirty — what the marks of a target cover

A target `Owes` a path since a generation if a scan that covers the path is asked for by a mark that
is younger.  A mark may be merged into an ancestor, swallow its descendants or turn into the demand
for a full scan, and every one of these still covers what was owed (`Touch.owes`).
-/

open Foundations Relation

namespace DatabasesEverywhere.Watcher

/-! ## Directories -/

variable {paths : Map Directory ℕ} {path : Directory}

theorem nearestRecordedAncestor_eq_some {found : Directory}
    (h : nearestRecordedAncestor paths path = some found) :
    found <+: path ∧ ∃ generation, paths.lookup found = some generation := by
  obtain ⟨deepest, hdeepest, hfound, -⟩ := deepest_of_findSome? h
  obtain ⟨generation, hgeneration, rfl⟩ := Option.map_eq_some_iff.mp hfound
  exact ⟨hdeepest, generation, hgeneration⟩

theorem nearestRecordedAncestor_eq_none
    (h : nearestRecordedAncestor paths path = none) {other : Directory} (hother : other <+: path) :
    paths.lookup other = none :=
  Option.map_eq_none_iff.mp (List.findSome?_eq_none_iff.mp h other (mem_ancestors.mpr hother))

theorem mapM_name?_eq_some : ∀ {parts : List PathPart} {names : List String},
    parts.mapM PathPart.name? = some names → parts = names.map .normal
  | [], names, h => by simp_all
  | part :: parts, names, h => by
    simp only [List.mapM_cons, Option.bind_eq_bind, Option.bind_eq_some_iff] at h
    obtain ⟨name, hname, rest, hrest, hnames⟩ := h
    cases part with
    | parentDir => cases hname
    | normal other =>
      cases hname
      cases hnames
      rw [mapM_name?_eq_some hrest, List.map_cons]

variable {root : Root} {path : EventPath} {directory : Directory}

/-- The directory of the path, seen from the root. -/
theorem safeRelativeParent_eq_some (h : safeRelativeParent root path = some directory) :
    root ++ directory.map .normal = path.parts.dropLast := by
  unfold safeRelativeParent at h
  split at h
  swap
  · cases h
  next hprefix =>
  obtain ⟨relative, hrelative⟩ := List.isPrefixOf_iff_prefix.mp hprefix
  rw [← hrelative] at h ⊢
  simp only [List.drop_left] at h
  split at h
  · cases h
  · next hempty =>
    rw [← mapM_name?_eq_some h, List.dropLast_append_of_ne_nil]
    simpa using hempty

/-! ## Marks that cover a path -/

/-- Something younger than `since` covers the directory of the path. -/
def Owes (t : TargetState) (since : ℕ) (root : Root) (path : EventPath) : Prop :=
  (∃ full, t.fullGeneration = some full ∧ since < full) ∨
    ∃ directory generation, t.dirtyPaths.lookup directory = some generation ∧
      since < generation ∧ root ++ directory.map .normal <+: path.parts.dropLast

variable {since : ℕ} {t : TargetState}

theorem Owes.mono {since' : ℕ} (h : Owes t since root path)
    (hle : since' ≤ since) : Owes t since' root path := by
  rcases h with ⟨full, hfull, hlt⟩ | ⟨directory, generation, hdirty, hlt, hcovers⟩
  · exact .inl ⟨full, hfull, hle.trans_lt hlt⟩
  · exact .inr ⟨directory, generation, hdirty, hle.trans_lt hlt, hcovers⟩

/-- What `mark_dirty` may come to. -/
inductive Marked (maximum : ℕ) (directory : Directory) (t t' : TargetState) : Prop
  | full (h : t'.fullGeneration = some (t.targetGeneration + 1))
      (hdirty : t'.dirtyPaths = ∅ ∨ t'.dirtyPaths = t.dirtyPaths)
  | merged (ancestor : Directory) (hancestor : ancestor <+: directory) (generation : ℕ)
      (hrecorded : t.dirtyPaths.lookup ancestor = some generation)
      (hfull : t'.fullGeneration = t.fullGeneration)
      (hdirty : t'.dirtyPaths = t.dirtyPaths.insert ancestor (t.targetGeneration + 1))
  | added (hnone : ∀ other, other <+: directory → t.dirtyPaths.lookup other = none)
      (hfull : t'.fullGeneration = t.fullGeneration)
      (hdirty : t'.dirtyPaths = (t.dirtyPaths.retain fun path _ =>
        !isStrictDescendant path directory).insert directory (t.targetGeneration + 1))
      (hfew : t'.dirtyPaths.entries.length ≤ maximum)

theorem markDirty_marked (maximum : ℕ) (directory : Directory) (t : TargetState) :
    Marked maximum directory t (t.markDirty .unbounded maximum directory) := by
  unfold TargetState.markDirty
  dsimp only
  split
  · exact .full rfl (.inr rfl)
  cases hnearest : nearestRecordedAncestor t.dirtyPaths directory with
  | some ancestor =>
    obtain ⟨hancestor, generation, hrecorded⟩ := nearestRecordedAncestor_eq_some hnearest
    exact .merged ancestor hancestor generation hrecorded rfl rfl
  | none =>
    dsimp only
    split
    · exact .full rfl (.inl rfl)
    · next hfew =>
      exact .added (fun other => nearestRecordedAncestor_eq_none hnearest) rfl rfl
        (Nat.le_of_not_lt hfew)

variable {maximum : ℕ} {t' : TargetState}

theorem Marked.owes (h : Marked maximum directory t t')
    (hsince : since ≤ t.targetGeneration) (howes : Owes t since root path) :
    Owes t' since root path := by
  have hyoung : since < t.targetGeneration + 1 := Nat.lt_succ_of_le hsince
  cases h with
  | full hfull => exact .inl ⟨_, hfull, hyoung⟩
  | merged ancestor hancestor generation hrecorded hfull hdirty =>
    rcases howes with ⟨full, hold, hlt⟩ | ⟨marked, stamp, hmarked, hlt, hcovers⟩
    · exact .inl ⟨full, hfull.trans hold, hlt⟩
    refine .inr ⟨marked, ?_⟩
    rw [hdirty, Map.lookup_insert_ite]
    split
    · exact ⟨_, rfl, hyoung, hcovers⟩
    · exact ⟨stamp, hmarked, hlt, hcovers⟩
  | added hnone hfull hdirty hfew =>
    rcases howes with ⟨full, hold, hlt⟩ | ⟨marked, stamp, hmarked, hlt, hcovers⟩
    · exact .inl ⟨full, hfull.trans hold, hlt⟩
    rw [Owes, hdirty]
    by_cases hbelow : isStrictDescendant marked directory = true
    · -- the mark is swallowed by the new one, which lies above it
      simp only [isStrictDescendant, Bool.and_eq_true, decide_eq_true_eq,
        List.isPrefixOf_iff_prefix] at hbelow
      have habove := (List.prefix_append_right_inj root).mpr
        (List.IsPrefix.map PathPart.normal hbelow.2)
      exact .inr ⟨directory, _, AList.lookup_insert _, hyoung, habove.trans hcovers⟩
    · have hne : marked ≠ directory := by
        rintro rfl
        cases (hnone marked (List.prefix_refl _)).symm.trans hmarked
      have hkept : (t.dirtyPaths.retain fun path _ =>
          !isStrictDescendant path directory).lookup marked = some stamp :=
        Map.lookup_retain_of_keep hmarked (by simpa using hbelow)
      exact .inr ⟨marked, stamp, (AList.lookup_insert_ne hne).trans hkept, hlt, hcovers⟩

/-- A mark covers the directory it is made for. -/
theorem Marked.owes_new (h : Marked maximum directory t t')
    (hparent : root ++ directory.map .normal = path.parts.dropLast) :
    Owes t' t.targetGeneration root path := by
  cases h with
  | full hfull => exact .inl ⟨_, hfull, Nat.lt_succ_self _⟩
  | merged ancestor hancestor generation hrecorded hfull hdirty =>
    refine .inr ⟨ancestor, _, by rw [hdirty]; exact AList.lookup_insert _, Nat.lt_succ_self _, ?_⟩
    rw [← hparent]
    exact (List.prefix_append_right_inj root).mpr (hancestor.map PathPart.normal)
  | added hnone hfull hdirty hfew =>
    exact .inr ⟨directory, _, by rw [hdirty]; exact AList.lookup_insert _, Nat.lt_succ_self _,
      hparent ▸ List.prefix_refl _⟩

variable {limits : WatcherLimits} {watches : Prop}

/-- **What is owed stays owed**, whatever the watcher is told. -/
theorem Touch.owes (h : Touch limits watches t t')
    (hsince : since ≤ t.targetGeneration) (howes : Owes t since root path) :
    Owes t' since root path := by
  cases h with
  | full => exact .inl ⟨_, rfl, Nat.lt_succ_of_le hsince⟩
  | dirty directory => exact (markDirty_marked _ directory t).owes hsince howes
  | degrade now => exact howes
  | watch hwatches => exact howes

theorem owes_of_touches (h : ReflTransGen (Touch limits watches) t t')
    (hsince : since ≤ t.targetGeneration) (howes : Owes t since root path) :
    Owes t' since root path := by
  induction h with
  | refl => exact howes
  | tail hfirst hlast ih =>
    exact hlast.owes (hsince.trans (follows_of_touches hfirst).generation) ih

/-! ## Tidy targets -/

/-- Few directories, and none above another. -/
structure TargetState.Tidy (maximum : ℕ) (t : TargetState) : Prop where
  few : t.dirtyPaths.entries.length ≤ maximum
  apart : ∀ above below generation generation', t.dirtyPaths.lookup above = some generation →
    t.dirtyPaths.lookup below = some generation' → above <+: below → above = below

namespace TargetState

theorem Tidy.of_empty (h : t.dirtyPaths = ∅) : t.Tidy maximum := by
  refine ⟨by rw [h]; exact Nat.zero_le _, fun above _ generation _ habove => ?_⟩
  rw [h] at habove
  cases habove

theorem Tidy.of_eq (h : t.Tidy maximum) (heq : t'.dirtyPaths = t.dirtyPaths) : t'.Tidy maximum :=
  ⟨heq ▸ h.few, fun above below generation generation' habove hbelow =>
    h.apart above below generation generation' (heq ▸ habove) (heq ▸ hbelow)⟩

end TargetState

theorem Marked.tidy (h : Marked maximum directory t t')
    (htidy : t.Tidy maximum) : t'.Tidy maximum := by
  cases h with
  | full hfull hdirty => exact hdirty.elim .of_empty htidy.of_eq
  | merged ancestor hancestor generation hrecorded hfull hdirty =>
    have hrecordedBefore : ∀ {other stamp}, t'.dirtyPaths.lookup other = some stamp →
        ∃ stamp', t.dirtyPaths.lookup other = some stamp' := by
      intro other stamp hother
      rw [hdirty] at hother
      rcases Map.lookup_insert_eq hother with ⟨rfl, -⟩ | ⟨-, hold⟩
      · exact ⟨generation, hrecorded⟩
      · exact ⟨stamp, hold⟩
    refine ⟨?_, fun above below _ _ habove hbelow => ?_⟩
    · rw [hdirty, Map.length_insert hrecorded]
      exact htidy.few
    · obtain ⟨_, habove⟩ := hrecordedBefore habove
      obtain ⟨_, hbelow⟩ := hrecordedBefore hbelow
      exact htidy.apart above below _ _ habove hbelow
  | added hnone hfull hdirty hfew =>
    refine ⟨hfew, fun above below _ _ habove hbelow hprefix => ?_⟩
    rw [hdirty] at habove hbelow
    rcases Map.lookup_insert_eq habove with ⟨rfl, -⟩ | ⟨-, habove⟩ <;>
      rcases Map.lookup_insert_eq hbelow with ⟨rfl, -⟩ | ⟨hne, hbelow⟩
    · rfl
    · -- a descendant would not have been retained
      have hkept := Map.keep_of_lookup_retain hbelow
      simp [isStrictDescendant, hne, List.isPrefixOf_iff_prefix.mpr hprefix] at hkept
    · cases (hnone above hprefix).symm.trans (Map.lookup_of_retain habove)
    · exact htidy.apart above below _ _ (Map.lookup_of_retain habove)
        (Map.lookup_of_retain hbelow) hprefix

theorem Touch.tidy (h : Touch limits watches t t') (htidy : t.Tidy limits.maximumDirtyPaths) :
    t'.Tidy limits.maximumDirtyPaths := by
  cases h with
  | full => exact .of_empty rfl
  | dirty directory => exact (markDirty_marked _ directory t).tidy htidy
  | degrade now => exact htidy.of_eq rfl
  | watch hwatches => exact htidy.of_eq rfl

theorem tidy_of_touches
    (h : ReflTransGen (Touch limits watches) t t') (htidy : t.Tidy limits.maximumDirtyPaths) :
    t'.Tidy limits.maximumDirtyPaths :=
  chain_invariant (fun _ _ htouch => htouch.tidy) h htidy

/-! ## Acknowledgements -/

variable {batch : DirtyBatch}

theorem acknowledged_tidy (h : t.Tidy maximum) : (Shared.acknowledged batch t).Tidy maximum :=
  ⟨(List.length_filterMap_le _ _).trans h.few, fun above below _ _ habove hbelow =>
    h.apart above below _ _ (Map.lookup_of_retain habove) (Map.lookup_of_retain hbelow)⟩

/-- **An older batch takes nothing away** that is owed. -/
theorem acknowledged_owes (hold : batch.targetGeneration ≤ since)
    (h : Owes t since root path) : Owes (Shared.acknowledged batch t) since root path := by
  rcases h with ⟨full, hfull, hlt⟩ | ⟨directory, generation, hdirty, hlt, hcovers⟩
  · refine .inl ⟨full, ?_, hlt⟩
    simp only [Shared.acknowledged, hfull]
    exact Option.filter_some_pos (decide_eq_true (hold.trans_lt hlt))
  · have hkept := decide_eq_true (hold.trans_lt hlt)
    exact .inr ⟨directory, generation, Map.lookup_retain_of_keep hdirty hkept, hlt, hcovers⟩

/-! ## Batches -/

/-- A scan of what the batch names looks at the directory of the path. -/
def DirtyBatch.Covers (batch : DirtyBatch) (root : Root) (path : EventPath) : Prop :=
  batch.fullReconcile = true ∨
    ∃ directory ∈ batch.relativePaths, root ++ directory.map .normal <+: path.parts.dropLast

/-- **What is owed is captured**, whichever global generation was loaded. -/
theorem capture_covers {shared : Shared} {id : String} (ht : shared.targets.lookup id = some t)
    (howes : Owes t since root path) (globalGeneration : ℕ) :
    ∃ batch, shared.capture globalGeneration id = some batch ∧ batch.Covers root path := by
  have hpending : t.pending globalGeneration = true := by
    rcases howes with ⟨full, hfull, -⟩ | ⟨directory, generation, hdirty, -⟩
    · simp [TargetState.pending, hfull]
    have hne : t.dirtyPaths.entries ≠ [] := by
      intro hnil
      have hmem := AList.mem_lookup_iff.mp (Option.mem_def.mpr hdirty)
      rw [hnil] at hmem
      cases hmem
    simp [TargetState.pending, hne]
  simp only [Shared.capture, ht, hpending, Bool.not_true, Bool.false_eq_true, if_false]
  refine ⟨_, rfl, ?_⟩
  by_cases hfull : t.needsFullReconcile globalGeneration = true
  · exact .inl hfull
  rcases howes with ⟨full, hsome, -⟩ | ⟨directory, generation, hdirty, -, hcovers⟩
  · simp [TargetState.needsFullReconcile, hsome] at hfull
  · refine .inr ⟨directory, ?_, hcovers⟩
    simp only [hfull]
    exact AList.mem_keys.mp (AList.lookup_isSome.mp (by rw [hdirty]; rfl))

end DatabasesEverywhere.Watcher
