import Mathlib

/-!
# Foundations/Paths — a path and its ancestors

A path is the list of its components, an ancestor is a prefix.  `ancestors` climbs from the path to
the root, and a search along it finds the deepest ancestor there is (`findSome?_ancestors_eq_some`).
-/

namespace Foundations

universe u v

variable {α : Type u} {β : Type v}

/-- The path, its parent, and so on up to the root. -/
def ancestors (path : List α) : List (List α) := path.inits.reverse

@[simp] theorem mem_ancestors {path other : List α} : other ∈ ancestors path ↔ other <+: path := by
  rw [ancestors, List.mem_reverse, List.mem_inits]

theorem ancestors_concat (parent : List α) (name : α) :
    ancestors (parent ++ [name]) = (parent ++ [name]) :: ancestors parent := by
  simp [ancestors, List.inits_append]

variable {f : List α → Option β} {found : β}

theorem deepest_of_findSome? {path : List α} (h : (ancestors path).findSome? f = some found) :
    ∃ deepest, deepest <+: path ∧ f deepest = some found ∧
      ∀ other, other <+: path → (f other).isSome → other <+: deepest := by
  induction path using List.reverseRecOn with
  | nil => exact ⟨[], List.nil_prefix, by simpa [ancestors] using h, fun _ hother _ => hother⟩
  | append_singleton parent name ih =>
    rw [ancestors_concat, List.findSome?_cons] at h
    cases hpath : f (parent ++ [name]) with
    | some value =>
      rw [hpath] at h
      exact ⟨_, List.prefix_refl _, hpath.trans h, fun _ hother _ => hother⟩
    | none =>
      rw [hpath] at h
      obtain ⟨deepest, hdeepest, hfound, hothers⟩ := ih h
      refine ⟨deepest, hdeepest.trans (List.prefix_append _ _), hfound, fun other hother hsome => ?_⟩
      rcases List.prefix_concat_iff.mp hother with rfl | hother
      · rw [hpath] at hsome
        cases hsome
      · exact hothers other hother hsome

/-- **A climb finds the deepest ancestor.** -/
theorem findSome?_ancestors_eq_some {path : List α} :
    (ancestors path).findSome? f = some found ↔
      ∃ deepest, deepest <+: path ∧ f deepest = some found ∧
        ∀ other, other <+: path → (f other).isSome → other <+: deepest := by
  refine ⟨deepest_of_findSome?, ?_⟩
  rintro ⟨deepest, hdeepest, hfound, hothers⟩
  cases h : (ancestors path).findSome? f with
  | none =>
    have hnone := List.findSome?_eq_none_iff.mp h deepest (mem_ancestors.mpr hdeepest)
    cases hfound.symm.trans hnone
  | some value =>
    obtain ⟨other, hother, hvalue, hbelow⟩ := deepest_of_findSome? h
    have hle := hothers other hother (by rw [hvalue]; rfl)
    have hge := hbelow deepest hdeepest (by rw [hfound]; rfl)
    rw [hle.eq_of_length_le hge.length_le, hfound] at hvalue
    exact hvalue.symm

end Foundations
