import Mathlib

/-!
# Foundations/Lists — a list that changes at one place

What `set`, `modify` and `eraseIdx` do to the entries, and to accounts kept as
`(l.map weight).sum`.  The equations of sums are balanced with `+` on both sides, so that they hold
in `ℕ` without a side condition.
-/

namespace Foundations

universe u v

variable {α : Type u} {β : Type v}

/-! ## Entries -/

variable {l : List α} {x y : α} {i : ℕ}

/-- What stands in a list with one more entry at its end. -/
theorem getElem?_concat_eq_some :
    (l ++ [x])[i]? = some y ↔ l[i]? = some y ∨ i = l.length ∧ y = x := by
  rcases Nat.lt_or_ge i l.length with hlt | hge
  · rw [List.getElem?_append_left hlt]
    exact ⟨.inl, Or.rec id fun h => absurd h.1 (Nat.ne_of_lt hlt)⟩
  rw [List.getElem?_append_right hge, List.getElem?_singleton, List.getElem?_eq_none hge]
  constructor
  · intro h
    split at h
    · exact .inr ⟨by omega, (Option.some.inj h).symm⟩
    · exact absurd h (by simp)
  · rintro (h | ⟨rfl, rfl⟩)
    · exact absurd h (by simp)
    · simp

variable {r : List α}

/-- Suffixes of a list with one more entry at its end. -/
theorem concat_suffix_concat : l ++ [x] <:+ r ++ [y] ↔ x = y ∧ l <:+ r := by
  constructor
  · rintro ⟨front, h⟩
    rw [← List.append_assoc] at h
    obtain ⟨hfront, hlast⟩ := List.append_inj' h rfl
    exact ⟨List.singleton_inj.mp hlast, front, hfront⟩
  · rintro ⟨rfl, front, rfl⟩
    exact ⟨front, by rw [List.append_assoc]⟩

theorem eraseIdx_length_append (l : List α) (x : α) (r : List α) :
    (l ++ x :: r).eraseIdx l.length = l ++ r := by
  rw [List.eraseIdx_append_of_length_le (Nat.le_refl _), Nat.sub_self, List.eraseIdx_cons_zero]

theorem set_self (h : l[i]? = some x) : l.set i x = l := by
  obtain ⟨hi, rfl⟩ := List.getElem?_eq_some_iff.mp h
  exact List.set_getElem_self hi

theorem modify_eq_set (h : l[i]? = some x) (f : α → α) : l.modify i f = l.set i (f x) := by
  rw [List.modify_eq_set_getElem?, h]
  rfl

theorem modify_eq_self (h : l[i]? = none) (f : α → α) : l.modify i f = l := by
  rw [List.modify_eq_set_getElem?, h]
  rfl

theorem getElem?_set_self_of (h : l[i]? = some x) (y : α) : (l.set i y)[i]? = some y := by
  obtain ⟨hi, -⟩ := List.getElem?_eq_some_iff.mp h
  exact List.getElem?_set_self hi

/-- An entry with a key of its own is the one that `eraseIdx` removes. -/
theorem mem_eraseIdx_of_nodup {key : α → β} (hnodup : (l.map key).Nodup) (h : l[i]? = some x) :
    y ∈ l.eraseIdx i ↔ y ∈ l ∧ key y ≠ key x := by
  induction l generalizing i with
  | nil => simp at h
  | cons a l ih =>
    rw [List.map_cons, List.nodup_cons] at hnodup
    have hfresh : ∀ z ∈ l, key z ≠ key a := fun z hz e =>
      hnodup.1 (e ▸ List.mem_map_of_mem hz)
    cases i with
    | zero =>
      obtain rfl : a = x := by simpa using h
      rw [List.eraseIdx_cons_zero, List.mem_cons]
      constructor
      · exact fun hy => ⟨Or.inr hy, hfresh y hy⟩
      · rintro ⟨rfl | hy, hne⟩
        · exact absurd rfl hne
        · exact hy
    | succ i =>
      have hx : l[i]? = some x := by simpa using h
      rw [List.eraseIdx_cons_succ, List.mem_cons, List.mem_cons, ih hnodup.2 hx]
      constructor
      · rintro (rfl | ⟨hy, hne⟩)
        · exact ⟨Or.inl rfl, fun e => hfresh x (List.mem_of_getElem? hx) e.symm⟩
        · exact ⟨Or.inr hy, hne⟩
      · rintro ⟨rfl | hy, hne⟩
        · exact Or.inl rfl
        · exact Or.inr ⟨hy, hne⟩

variable {before behind : List α}

/-- An entry of `l ++ r` stands in `l` or in `r`. -/
theorem append_eq_append_cons (h : l ++ r = before ++ x :: behind) :
    (∃ rest, l = before ++ x :: rest ∧ behind = rest ++ r) ∨
      ∃ front, before = l ++ front ∧ r = front ++ x :: behind := by
  rcases List.append_eq_append_iff.mp h with ⟨front, hbefore, hr⟩ | ⟨rest, hl, hcons⟩
  · exact Or.inr ⟨front, hbefore, hr⟩
  cases rest with
  | nil => exact Or.inr ⟨[], by simpa using hl.symm, by simpa using hcons.symm⟩
  | cons y rest =>
    obtain ⟨rfl, rfl⟩ := List.cons.inj hcons
    exact Or.inl ⟨rest, hl, rfl⟩

/-- An entry of `l ++ [y]` stands in `l`, or is the last. -/
theorem concat_eq_append_cons (h : l ++ [y] = before ++ x :: behind) :
    (∃ rest, l = before ++ x :: rest ∧ behind = rest ++ [y]) ∨
      before = l ∧ x = y ∧ behind = [] := by
  rcases append_eq_append_cons h with hrest | ⟨front, hbefore, hr⟩
  · exact Or.inl hrest
  cases front with
  | nil =>
    obtain ⟨rfl, rfl⟩ := List.cons.inj hr
    exact Or.inr ⟨by simpa using hbefore, rfl, rfl⟩
  | cons z front => simp at hr

theorem eq_take_cons_drop (h : l[i]? = some x) : l = l.take i ++ x :: l.drop (i + 1) := by
  obtain ⟨hi, rfl⟩ := List.getElem?_eq_some_iff.mp h
  rw [← List.drop_eq_getElem_cons hi, List.take_append_drop]

/-! ## Sums -/

section Sums

variable (weight : α → ℕ)

/-- Replacing the entry at `i`. -/
theorem sum_map_set (h : l[i]? = some x) (y : α) :
    ((l.set i y).map weight).sum + weight x = (l.map weight).sum + weight y := by
  have hi := (List.getElem?_eq_some_iff.mp h).1
  nth_rewrite 2 [eq_take_cons_drop h]
  rw [List.set_eq_take_append_cons_drop, if_pos hi]
  simp only [List.map_append, List.map_cons, List.sum_append, List.sum_cons]
  omega

/-- Removing the entry at `i`. -/
theorem sum_map_eraseIdx (h : l[i]? = some x) :
    ((l.eraseIdx i).map weight).sum + weight x = (l.map weight).sum := by
  nth_rewrite 2 [eq_take_cons_drop h]
  rw [List.eraseIdx_eq_take_drop_succ]
  simp only [List.map_append, List.map_cons, List.sum_append, List.sum_cons]
  omega

end Sums

theorem filterMap_sublist_filterMap {f g : α → Option β}
    (h : ∀ x ∈ l, ∀ y, f x = some y → g x = some y) :
    (l.filterMap f).Sublist (l.filterMap g) := by
  induction l with
  | nil => exact .slnil
  | cons x l ih =>
    obtain ⟨hx, hl⟩ := List.forall_mem_cons.mp h
    rw [List.filterMap_cons, List.filterMap_cons]
    cases hf : f x with
    | some y => rw [hx y hf]; exact (ih hl).cons_cons y
    | none =>
      cases g x with
      | none => exact ih hl
      | some y => exact (ih hl).cons y

/-! ## Stops inside of one part -/

variable {p : α → Bool}

theorem length_takeWhile_lt (hx : x ∈ l) (hp : p x = false) :
    (l.takeWhile p).length < l.length := by
  refine lt_of_le_of_ne (List.takeWhile_sublist p).length_le fun hlength => ?_
  have hall := List.takeWhile_eq_self_iff.mp ((List.takeWhile_prefix p).eq_of_length hlength) x hx
  exact Bool.false_ne_true (hp.symm.trans hall)

theorem takeWhile_append_of_mem (hx : x ∈ l) (hp : p x = false) (r : List α) :
    (l ++ r).takeWhile p = l.takeWhile p := by
  rw [List.takeWhile_append, if_neg (length_takeWhile_lt hx hp).ne]

theorem dropWhile_append_of_mem (hx : x ∈ l) (hp : p x = false) (r : List α) :
    (l ++ r).dropWhile p = l.dropWhile p ++ r := by
  rw [List.dropWhile_append, if_neg]
  intro hempty
  have hall := List.dropWhile_eq_nil_iff.mp (List.isEmpty_iff.mp hempty) x hx
  exact Bool.false_ne_true (hp.symm.trans hall)

theorem rtakeWhile_append_of_mem (hx : x ∈ r) (hp : p x = false) (l : List α) :
    (l ++ r).rtakeWhile p = r.rtakeWhile p := by
  rw [List.rtakeWhile, List.rtakeWhile, List.reverse_append,
    takeWhile_append_of_mem (List.mem_reverse.mpr hx) hp]

theorem rtakeWhile_append_stop (hp : p x = false) (l r : List α) :
    (l ++ [x] ++ r).rtakeWhile p = r.rtakeWhile p := by
  induction r using List.reverseRecOn with
  | nil => simp [hp]
  | append_singleton r y ih =>
    rw [← List.append_assoc, List.rtakeWhile_concat, List.rtakeWhile_concat, ih]

theorem rdropWhile_append_of_mem (hx : x ∈ r) (hp : p x = false) (l : List α) :
    (l ++ r).rdropWhile p = l ++ r.rdropWhile p := by
  rw [List.rdropWhile, List.rdropWhile, List.reverse_append,
    dropWhile_append_of_mem (List.mem_reverse.mpr hx) hp, List.reverse_append, List.reverse_reverse]

/-! ## Permutations -/

/-- Sorting forgets the order if no two items are equal in it. -/
theorem insertionSort_eq_of_perm {κ : Type v} [LinearOrder κ] {key : α → κ}
    (hinj : Function.Injective key) {l₁ l₂ : List α} (h : l₁.Perm l₂) :
    l₁.insertionSort (fun a b => key a ≤ key b) = l₂.insertionSort (fun a b => key a ≤ key b) := by
  apply List.Perm.eq_of_pairwise (fun a b _ _ hab hba => hinj (le_antisymm hab hba))
  · exact List.pairwise_insertionSort _ _
  · exact List.pairwise_insertionSort _ _
  · exact ((List.perm_insertionSort _ l₁).trans h).trans (List.perm_insertionSort _ l₂).symm

/-- Steps that commute can be taken in any order. -/
theorem foldlM_eq_of_perm {m : Type u → Type u} [Monad m] [LawfulMonad m] {σ : Type u}
    {step : σ → β → m σ}
    (hcomm : ∀ s a b, (step s a >>= fun s => step s b) = (step s b >>= fun s => step s a))
    {l₁ l₂ : List β} (h : l₁.Perm l₂) (s : σ) : l₁.foldlM step s = l₂.foldlM step s := by
  induction h generalizing s with
  | nil => rfl
  | cons a _ ih => simp only [List.foldlM_cons, ih]
  | swap a b l =>
    simp only [List.foldlM_cons]
    rw [← bind_assoc, hcomm, bind_assoc]
  | trans _ _ ih₁ ih₂ => rw [ih₁, ih₂]

end Foundations
