import DatabasesEverywhere.Foundations.Ranges

/-!
# Foundations/Pieces — ranges of a text that is put together from pieces

    pieces    ──[s₁ e₁)──  ──[s₂ e₂)──        each with the ranges of its own
    text      ──[s₁ e₁)────[n+s₂ n+e₂)──

First fit goes through the pieces one after the other (`firstFit_append_shift`).  Over some of the
ranges of a text it covers what it covers over all of them exactly if those taken are among the some
(`firstFit_covers_sublist_iff`).
-/

namespace Foundations

variable {range : ℕ × ℕ} {ranges : List (ℕ × ℕ)} {last x : ℕ}

/-- The ranges of a text that stands behind `offset` items. -/
def shift (offset : ℕ) (ranges : List (ℕ × ℕ)) : List (ℕ × ℕ) :=
  ranges.map fun range => (offset + range.1, offset + range.2)

/-- Where the last range taken has ended does not matter if all others start behind it. -/
theorem firstFit_of_le {first second : ℕ}
    (h : ∀ range ∈ ranges, first ≤ range.1 ∧ second ≤ range.1) :
    firstFit first ranges = firstFit second ranges := by
  cases ranges with
  | nil => rfl
  | cons range ranges =>
    obtain ⟨hfirst, hsecond⟩ := h range List.mem_cons_self
    rw [firstFit, firstFit, if_pos hfirst, if_pos hsecond]

theorem firstFit_shift (offset last : ℕ) (ranges : List (ℕ × ℕ)) :
    firstFit (offset + last) (shift offset ranges) = shift offset (firstFit last ranges) := by
  induction ranges generalizing last with
  | nil => rfl
  | cons range ranges ih =>
    change firstFit _ ((offset + range.1, offset + range.2) :: shift offset ranges) = _
    simp only [firstFit, Nat.add_le_add_iff_left]
    split
    · rw [ih]
      rfl
    · exact ih last

/-- **First fit goes through two texts one after the other.** -/
theorem firstFit_append_shift {length : ℕ} {first : List (ℕ × ℕ)} (hlast : last ≤ length)
    (hfirst : ∀ range ∈ first, range.2 ≤ length) (second : List (ℕ × ℕ)) :
    firstFit last (first ++ shift length second) =
      firstFit last first ++ shift length (firstFit 0 second) := by
  induction first generalizing last with
  | nil =>
    rw [← firstFit_shift]
    apply firstFit_of_le
    intro range hrange
    obtain ⟨original, -, rfl⟩ := List.mem_map.mp hrange
    omega
  | cons range first ih =>
    obtain ⟨hrange, hrest⟩ := List.forall_mem_cons.mp hfirst
    rw [List.cons_append, firstFit, firstFit]
    split
    · rw [ih hrange hrest]
      rfl
    · exact ih hlast hrest

theorem le_of_mem_firstFit (h : ∀ range ∈ ranges, range.1 ≤ range.2)
    (hmem : range ∈ firstFit last ranges) : last ≤ range.1 := by
  induction ranges generalizing last with
  | nil => cases hmem
  | cons first ranges ih =>
    obtain ⟨hfirst, hranges⟩ := List.forall_mem_cons.mp h
    rw [firstFit] at hmem
    split at hmem
    · next hfits =>
      rcases List.mem_cons.mp hmem with rfl | hmem
      · exact hfits
      · exact hfits.trans (hfirst.trans (ih hranges hmem))
    · exact ih hranges hmem

section Some

variable {some : List (ℕ × ℕ)} {seen : ℕ → Prop} {first : ℕ × ℕ}

/-- A range that is not among the some is no matter if nothing of it is seen. -/
theorem firstFit_some_skip (h : Ordered (first :: ranges)) (hsome : some.Sublist ranges)
    (hseen : ∀ x, first.1 ≤ x → seen x → seen first.1) (hfits : last ≤ first.1)
    (hskip : first.1 < first.2 → ¬ seen first.1) {x : ℕ} (hx : seen x) :
    (Covers (first :: firstFit first.2 ranges) x ↔ Covers (firstFit first.2 ranges) x) ∧
      (Covers (firstFit last some) x ↔ Covers (firstFit first.2 some) x) := by
  have hbehind : ∀ range ∈ ranges, first.1 < range.1 := fun range => h.head_lt
  rcases (h.proper first List.mem_cons_self).lt_or_eq with hlt | hempty
  · -- nothing is seen from its start on
    have hbefore : x < first.1 := by
      by_contra hge
      exact hskip hlt (hseen x (Nat.le_of_not_lt hge) hx)
    have hout : ∀ taken : List (ℕ × ℕ), taken.Sublist (first :: ranges) → ¬ Covers taken x := by
      rintro taken htaken ⟨range, hrange, hle, -⟩
      rcases List.mem_cons.mp (htaken.subset hrange) with rfl | hrange
      · omega
      · exact absurd (hbehind range hrange) (by omega)
    have hfit := fun last => hout _ (((firstFit_sublist last some).trans hsome).cons first)
    exact ⟨iff_of_false (hout _ ((firstFit_sublist _ _).cons_cons first))
      (hout _ ((firstFit_sublist _ _).cons first)), iff_of_false (hfit _) (hfit _)⟩
  · have hlast : firstFit last some = firstFit first.2 some := firstFit_of_le fun range hrange => by
      have := hbehind range (hsome.subset hrange)
      omega
    rw [hlast, covers_cons, or_iff_right (by omega)]
    exact ⟨Iff.rfl, Iff.rfl⟩

/-- **First fit over some of the ranges** covers, of the positions that are `seen`, those that first
fit over all of them covers, exactly if the ranges taken are among the some: those with something in
them and a start that is seen.  Behind a start that is not seen, nothing is. -/
theorem firstFit_covers_sublist_iff (hsome : some.Sublist ranges) (h : Ordered ranges)
    (hseen : ∀ range ∈ ranges, ∀ x, range.1 ≤ x → seen x → seen range.1) :
    (∀ x, seen x → Covers (firstFit last ranges) x → Covers (firstFit last some) x) ↔
      ∀ range ∈ firstFit last ranges, range.1 < range.2 → seen range.1 → range ∈ some := by
  induction hsome generalizing last with
  | slnil => simp [firstFit]
  | @cons some ranges first hsome ih =>
    obtain ⟨hfirst, hranges⟩ := List.forall_mem_cons.mp hseen
    have hout : first ∉ some := fun hmem => lt_irrefl _ (h.head_lt (hsome.subset hmem))
    rw [firstFit]
    split
    case isFalse => exact ih h.tail hranges
    next hfits =>
    by_cases hskip : first.1 < first.2 → ¬ seen first.1
    · rw [List.forall_mem_cons, and_iff_right fun hlt hstart => absurd hstart (hskip hlt),
        ← ih h.tail hranges]
      refine forall_congr' fun x => forall_congr' fun hx => ?_
      obtain ⟨hall, hpart⟩ := firstFit_some_skip h hsome hfirst hfits hskip hx
      rw [hall, hpart]
    · -- its start is covered by nothing that starts behind it
      obtain ⟨hlt, hstart⟩ := Classical.not_imp.mp hskip
      refine iff_of_false (fun hall => ?_) fun hall =>
        hout (hall first List.mem_cons_self hlt (not_not.mp hstart))
      obtain ⟨other, hother, hle, -⟩ :=
        hall first.1 (not_not.mp hstart) (covers_cons.mpr (.inl ⟨le_rfl, hlt⟩))
      exact absurd (h.head_lt (hsome.subset ((firstFit_sublist _ _).subset hother)))
        (Nat.not_lt.mpr hle)
  | @cons_cons some ranges first hsome ih =>
    obtain ⟨-, hranges⟩ := List.forall_mem_cons.mp hseen
    have hmem : ∀ last, ∀ range ∈ firstFit last ranges, range ∈ first :: some ↔ range ∈ some := by
      intro last range hrange
      rw [List.mem_cons, or_iff_right]
      rintro rfl
      exact lt_irrefl _ (h.head_lt ((firstFit_sublist _ _).subset hrange))
    rw [firstFit, firstFit]
    split
    · rw [List.forall_mem_cons, and_iff_right fun _ _ => List.mem_cons_self]
      refine Iff.trans ?_ ((ih h.tail hranges).trans
        (forall₂_congr fun range hrange => by rw [hmem _ range hrange]))
      refine forall₂_congr fun x _ => ?_
      simp only [covers_cons]
      have hnext : Covers (firstFit first.2 ranges) x → first.2 ≤ x := by
        rintro ⟨range, hrange, hle, -⟩
        exact (le_of_mem_firstFit h.tail.proper hrange).trans hle
      constructor
      · exact fun hall hx => (hall (.inr hx)).resolve_left fun hin => by
          have := hnext hx
          omega
      · exact fun hall => Or.imp_right hall
    · exact (ih h.tail hranges).trans
        (forall₂_congr fun range hrange => by rw [hmem _ range hrange])

end Some

/-! ## Texts of two pieces -/

section Splice

variable {α : Type} {cursor : ℕ}

theorem splice_shift (mark before text : List α) (cursor : ℕ) (ranges : List (ℕ × ℕ)) :
    splice mark (before ++ text) (before.length + cursor) (shift before.length ranges) =
      splice mark text cursor ranges := by
  induction ranges generalizing cursor with
  | nil => exact List.drop_length_add_append cursor
  | cons range ranges ih =>
    change splice mark _ _ ((_, _) :: shift before.length ranges) = _
    rw [splice, splice, ih, List.take_length_add_append, List.drop_length_add_append]

/-- **Two texts with their ranges replaced, one behind the other.** -/
theorem splice_append {mark first second : List α} (h : Separate first.length cursor ranges)
    (others : List (ℕ × ℕ)) :
    splice mark (first ++ second) cursor (ranges ++ shift first.length others) =
      splice mark first cursor ranges ++ splice mark second 0 others := by
  induction ranges generalizing cursor with
  | nil =>
    have hcursor : cursor ≤ first.length := h
    rw [List.nil_append, splice]
    cases others with
    | nil =>
      rw [shift, List.map_nil, splice, splice, List.drop_append_of_le_length hcursor,
        List.drop_zero]
    | cons range others =>
      have hshift := splice_shift mark first second 0 (range :: others)
      change splice mark _ _ ((_, _) :: shift first.length others) = _ at hshift
      change splice mark _ _ ((_, _) :: shift first.length others) = _
      rw [← hshift, splice, splice, List.take_length_add_append, Nat.add_zero,
        List.drop_append_of_le_length hcursor, List.drop_left]
      simp only [List.append_assoc]
  | cons range ranges ih =>
    obtain ⟨hcursor, hrange, hrest⟩ := h
    rw [List.cons_append, splice, splice, ih hrest,
      List.take_append_of_le_length (hrange.trans hrest.le)]
    simp only [List.append_assoc]

/-- Positions that differ stand at places of their own. -/
theorem positionAt_inj {text : List (α × Option ℕ)} (h : (kept text).Nodup) {i j : ℕ}
    (hi : positionAt text i = some x) (hj : positionAt text j = some x) : i = j := by
  have hpairs := List.pairwise_iff_getElem.mp (List.pairwise_filterMap.mp h)
  obtain ⟨first, hfirst, hx⟩ := Option.bind_eq_some_iff.mp hi
  obtain ⟨second, hsecond, hy⟩ := Option.bind_eq_some_iff.mp hj
  obtain ⟨hi, rfl⟩ := List.getElem?_eq_some_iff.mp hfirst
  obtain ⟨hj, rfl⟩ := List.getElem?_eq_some_iff.mp hsecond
  rcases lt_trichotomy i j with hlt | heq | hgt
  · exact absurd rfl (hpairs i j hi hj hlt x hx x hy)
  · exact heq
  · exact absurd rfl (hpairs j i hj hi hgt x hy x hx)

theorem nodup_kept_trace (text : List α) : (kept (trace text)).Nodup := by
  have hkept : kept (trace text) = List.range' 0 text.length := by
    simp [kept, trace, List.filterMap_map]
  rw [hkept]
  exact List.nodup_range'

end Splice

end Foundations
