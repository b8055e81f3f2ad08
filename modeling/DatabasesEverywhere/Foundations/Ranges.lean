import Mathlib

/-!
# Foundations/Ranges — half-open ranges of positions, and texts with ranges replaced

    text      ────────[s₁ e₁)─────[s₂ e₂)────────
    splice    ────────⟨mark⟩──────⟨mark⟩─────────

`firstFit` goes through ranges in the order of their starts and leaves out those that start before
the last one taken has ended.  It covers what all of them cover exactly if every range left out is
continued by those taken after it (`firstFit_covers_iff`).
-/

namespace Foundations

variable (ranges : List (ℕ × ℕ))

/-- The position is in one of the ranges. -/
def Covers (x : ℕ) : Prop := ∃ range ∈ ranges, range.1 ≤ x ∧ x < range.2

instance (x : ℕ) : Decidable (Covers ranges x) :=
  inferInstanceAs (Decidable (∃ range ∈ ranges, _))

variable {range : ℕ × ℕ} {ranges} {x : ℕ}

theorem covers_cons :
    Covers (range :: ranges) x ↔ (range.1 ≤ x ∧ x < range.2) ∨ Covers ranges x := by
  simp [Covers]

/-- Ranges in the order of their starts, which differ. -/
structure Ordered (ranges : List (ℕ × ℕ)) : Prop where
  starts : ranges.Pairwise fun a b => a.1 < b.1
  proper : ∀ range ∈ ranges, range.1 ≤ range.2

theorem Ordered.tail (h : Ordered (range :: ranges)) : Ordered ranges :=
  ⟨(List.pairwise_cons.mp h.starts).2, fun _ hmem => h.proper _ (List.mem_cons_of_mem _ hmem)⟩

theorem Ordered.head_lt {other : ℕ × ℕ} (h : Ordered (range :: ranges)) (hother : other ∈ ranges) :
    range.1 < other.1 :=
  (List.pairwise_cons.mp h.starts).1 other hother

/-! ## First fit -/

/-- The ranges that start no earlier than the last one taken has ended; `last` is that end. -/
def firstFit (last : ℕ) : List (ℕ × ℕ) → List (ℕ × ℕ)
  | [] => []
  | range :: ranges =>
    if last ≤ range.1 then range :: firstFit range.2 ranges else firstFit last ranges

theorem firstFit_sublist (last : ℕ) (ranges : List (ℕ × ℕ)) :
    (firstFit last ranges).Sublist ranges := by
  induction ranges generalizing last with
  | nil => exact .slnil
  | cons range ranges ih =>
    rw [firstFit]
    split
    · exact (ih _).cons_cons _
    · exact (ih _).cons _

variable {last : ℕ}

theorem Covers.of_firstFit (h : Covers (firstFit last ranges) x) : Covers ranges x :=
  h.imp fun _ hrange => ⟨(firstFit_sublist last ranges).subset hrange.1, hrange.2⟩

/-- From `last` on, the ranges taken follow each other without a gap up to `stop`. -/
def Reaches (stop : ℕ) : ℕ → List (ℕ × ℕ) → Prop
  | last, [] => stop ≤ last
  | last, range :: ranges =>
    if range.1 < last then Reaches stop last ranges
    else if range.1 = last then Reaches stop range.2 ranges
    else stop ≤ last

instance Reaches.decidable (stop : ℕ) : ∀ (last : ℕ) (ranges : List (ℕ × ℕ)),
    Decidable (Reaches stop last ranges)
  | last, [] => inferInstanceAs (Decidable (stop ≤ last))
  | last, range :: ranges =>
    have := Reaches.decidable stop last ranges
    have := Reaches.decidable stop range.2 ranges
    inferInstanceAs (Decidable (if range.1 < last then Reaches stop last ranges
      else if range.1 = last then Reaches stop range.2 ranges else stop ≤ last))

/-- Every range left out is continued up to its end by the ranges taken after it. -/
def Continued : ℕ → List (ℕ × ℕ) → Prop
  | _, [] => True
  | last, range :: ranges =>
    if last ≤ range.1 then Continued range.2 ranges
    else Reaches range.2 last ranges ∧ Continued last ranges

instance Continued.decidable : ∀ (last : ℕ) (ranges : List (ℕ × ℕ)),
    Decidable (Continued last ranges)
  | _, [] => .isTrue trivial
  | last, range :: ranges =>
    have := Continued.decidable last ranges
    have := Continued.decidable range.2 ranges
    inferInstanceAs (Decidable (if last ≤ range.1 then Continued range.2 ranges
      else Reaches range.2 last ranges ∧ Continued last ranges))

theorem reaches_iff {stop : ℕ} (h : Ordered ranges) :
    Reaches stop last ranges ↔ ∀ x, last ≤ x → x < stop → Covers (firstFit last ranges) x := by
  induction ranges generalizing last with
  | nil =>
    rw [Reaches]
    constructor
    · exact fun hstop x hlast hx => absurd hx (by omega)
    · intro hall
      by_contra hlt
      obtain ⟨_, hmem, -⟩ := hall last le_rfl (by omega)
      cases hmem
  | cons range ranges ih =>
    have hproper := h.proper range List.mem_cons_self
    rw [Reaches, firstFit]
    by_cases hinside : range.1 < last
    · rw [if_pos hinside, if_neg (by omega)]
      exact ih h.tail
    rw [if_neg hinside, if_pos (show last ≤ range.1 by omega)]
    by_cases hhere : range.1 = last
    · rw [if_pos hhere, ih h.tail]
      constructor
      · intro hrest x hlast hx
        rcases Nat.lt_or_ge x range.2 with hlt | hge
        · exact covers_cons.mpr (.inl ⟨by omega, hlt⟩)
        · exact covers_cons.mpr (.inr (hrest x hge hx))
      · intro hall x hx hstop
        rcases covers_cons.mp (hall x (by omega) hstop) with hhead | htail
        · omega
        · exact htail
    · rw [if_neg hhere]
      constructor
      · exact fun hstop x hlast hx => absurd hx (by omega)
      intro hall
      by_contra hlt
      -- every range taken starts behind `last`
      obtain ⟨other, hother, hstart, -⟩ := hall last le_rfl (by omega)
      rcases List.mem_cons.mp hother with rfl | hother
      · omega
      · have := h.head_lt ((firstFit_sublist _ _).subset hother)
        omega

/-- **What first fit leaves uncovered.**  The statement is about positions from `last` on; what is
before was covered by the range taken last. -/
theorem continued_iff (h : Ordered ranges) :
    Continued last ranges ↔
      ∀ x, last ≤ x → Covers ranges x → Covers (firstFit last ranges) x := by
  induction ranges generalizing last with
  | nil => simp [Continued, Covers]
  | cons range ranges ih =>
    have hproper := h.proper range List.mem_cons_self
    rw [Continued, firstFit]
    split
    · next hfits =>
      rw [ih h.tail]
      constructor
      · intro hrest x hlast hx
        rcases covers_cons.mp hx with hhead | htail
        · exact covers_cons.mpr (.inl hhead)
        · rcases Nat.lt_or_ge x range.2 with hlt | hge
          · obtain ⟨other, hother, hstart, -⟩ := htail
            exact covers_cons.mpr (.inl ⟨(h.head_lt hother).le.trans hstart, hlt⟩)
          · exact covers_cons.mpr (.inr (hrest x hge htail))
      · intro hall x hx htail
        rcases covers_cons.mp (hall x (by omega) (covers_cons.mpr (.inr htail))) with hhead | hrest
        · omega
        · exact hrest
    · next hfits =>
      rw [ih h.tail, reaches_iff h.tail]
      constructor
      · rintro ⟨hreach, hrest⟩ x hlast hx
        rcases covers_cons.mp hx with hhead | htail
        · exact hreach x hlast hhead.2
        · exact hrest x hlast htail
      · intro hall
        refine ⟨fun x hlast hx => hall x hlast (covers_cons.mpr (.inl ⟨by omega, hx⟩)),
          fun x hlast htail => hall x hlast (covers_cons.mpr (.inr htail))⟩

/-- **First fit covers everything exactly if what it leaves out is continued.** -/
theorem firstFit_covers_iff (h : Ordered ranges) :
    (∀ x, Covers (firstFit 0 ranges) x ↔ Covers ranges x) ↔ Continued 0 ranges := by
  rw [continued_iff h]
  constructor
  · exact fun hall x _ => (hall x).mpr
  · exact fun hall x => ⟨Covers.of_firstFit, hall x (Nat.zero_le x)⟩

/-- A range that is left out starts inside a range taken before it. -/
theorem mem_firstFit_or_covers (h : Ordered ranges) (hmem : range ∈ ranges) :
    range ∈ firstFit last ranges ∨ range.1 < last ∨ Covers (firstFit last ranges) range.1 := by
  induction ranges generalizing last with
  | nil => cases hmem
  | cons first ranges ih =>
    rw [firstFit]
    rcases List.mem_cons.mp hmem with rfl | hrest
    · split
      · exact .inl List.mem_cons_self
      · next hfits => exact .inr (.inl (Nat.lt_of_not_le hfits))
    split
    · rcases ih h.tail hrest with htaken | hinside | hcovered
      · exact .inl (List.mem_cons_of_mem _ htaken)
      · exact .inr (.inr (covers_cons.mpr (.inl ⟨(h.head_lt hrest).le, hinside⟩)))
      · exact .inr (.inr (covers_cons.mpr (.inr hcovered)))
    · exact ih h.tail hrest

/-- **First fit is the only way** to cover everything by some of the ranges, none of them empty, of
which no two overlap: apart from its empty ranges. -/
theorem eq_firstFit {taken : List (ℕ × ℕ)} (h : Ordered ranges) (htaken : taken.Sublist ranges)
    (hproper : ∀ range ∈ taken, range.1 < range.2) (hstarts : ∀ range ∈ taken, last ≤ range.1)
    (hapart : taken.Pairwise fun a b => a.2 ≤ b.1)
    (hcovers : ∀ x, last ≤ x → Covers ranges x → Covers taken x) :
    taken = (firstFit last ranges).filter fun range => range.1 < range.2 := by
  induction ranges generalizing last taken with
  | nil => rw [List.sublist_nil.mp htaken]; rfl
  | cons first ranges ih =>
    have hrest : ∀ x, last ≤ x → Covers ranges x → Covers taken x := fun x hx hcovered =>
      hcovers x hx (covers_cons.mpr (.inr hcovered))
    rw [firstFit]
    rcases List.sublist_cons_iff.mp htaken with hlater | ⟨others, rfl, hothers⟩
    · split
      · next hfits =>
        -- nothing that starts later can stand for a range with something in it
        have hempty : ¬ first.1 < first.2 := by
          intro hlt
          obtain ⟨other, hother, hle, -⟩ :=
            hcovers first.1 hfits (covers_cons.mpr (.inl ⟨le_rfl, hlt⟩))
          exact absurd (h.head_lt (hlater.subset hother)) (Nat.not_lt.mpr hle)
        have hend := h.proper first List.mem_cons_self
        rw [List.filter_cons_of_neg (by simpa using hempty)]
        refine ih h.tail hlater hproper (fun other hother => ?_) hapart fun x hx => hrest x (by omega)
        have := h.head_lt (hlater.subset hother)
        omega
      · exact ih h.tail hlater hproper hstarts hapart hrest
    · obtain ⟨hfirst, hproper⟩ := List.forall_mem_cons.mp hproper
      obtain ⟨hbehind, hapart⟩ := List.pairwise_cons.mp hapart
      rw [if_pos (hstarts first List.mem_cons_self), List.filter_cons_of_pos (by simpa using hfirst)]
      refine congrArg (first :: ·) (ih h.tail hothers hproper hbehind hapart fun x hx hcovered => ?_)
      have hle := hstarts first List.mem_cons_self
      rcases covers_cons.mp (hrest x (by omega) hcovered) with hinside | hcovered
      · omega
      · exact hcovered

/-! ## Texts with ranges replaced -/

section Splice

variable {α : Type}

/-- The text from `cursor` on, with each range replaced by the mark. -/
def splice (mark text : List α) (cursor : ℕ) : List (ℕ × ℕ) → List α
  | [] => text.drop cursor
  | range :: ranges =>
    (text.take range.1).drop cursor ++ mark ++ splice mark text range.2 ranges

/-- The ranges are inside of the text, one after the other. -/
def Separate (length : ℕ) : ℕ → List (ℕ × ℕ) → Prop
  | cursor, [] => cursor ≤ length
  | cursor, range :: ranges =>
    cursor ≤ range.1 ∧ range.1 ≤ range.2 ∧ Separate length range.2 ranges

variable {length cursor : ℕ}

theorem Separate.le (h : Separate length cursor ranges) : cursor ≤ length := by
  induction ranges generalizing cursor with
  | nil => exact h
  | cons range ranges ih => exact h.1.trans (h.2.1.trans (ih h.2.2))

theorem Separate.le_of_covers (h : Separate length cursor ranges) (hx : Covers ranges x) :
    cursor ≤ x := by
  induction ranges generalizing cursor with
  | nil =>
    obtain ⟨_, hmem, -⟩ := hx
    cases hmem
  | cons range ranges ih =>
    rcases covers_cons.mp hx with hhead | htail
    · exact h.1.trans hhead.1
    · exact h.1.trans (h.2.1.trans (ih h.2.2 htail))

theorem Separate.starts (h : Separate length cursor ranges) :
    ∀ range ∈ ranges, cursor ≤ range.1 := by
  induction ranges generalizing cursor with
  | nil => exact nofun
  | cons first ranges ih =>
    refine List.forall_mem_cons.mpr ⟨h.1, fun range hrange => ?_⟩
    exact h.1.trans (h.2.1.trans (ih h.2.2 range hrange))

theorem Separate.apart (h : Separate length cursor ranges) :
    ranges.Pairwise fun a b => a.2 ≤ b.1 := by
  induction ranges generalizing cursor with
  | nil => exact .nil
  | cons range ranges ih => exact .cons h.2.2.starts (ih h.2.2)

/-- An empty range does not start inside of another one. -/
theorem Separate.not_covers_empty (h : Separate length cursor ranges) (hordered : Ordered ranges)
    (hmem : range ∈ ranges) (hempty : ¬ range.1 < range.2) : ¬ Covers ranges range.1 := by
  induction ranges generalizing cursor with
  | nil => cases hmem
  | cons first ranges ih =>
    rw [covers_cons]
    rintro (⟨hle, hlt⟩ | hcovered)
    · rcases List.mem_cons.mp hmem with rfl | hmem
      · exact hempty hlt
      · exact absurd (h.2.2.starts range hmem) (Nat.not_le.mpr hlt)
    · rcases List.mem_cons.mp hmem with rfl | hmem
      · obtain ⟨other, hother, hle, -⟩ := hcovered
        exact absurd (hordered.head_lt hother) (Nat.not_lt.mpr hle)
      · exact ih h.2.2 hordered.tail hmem hcovered

theorem Ordered.sublist {some : List (ℕ × ℕ)} (h : Ordered ranges) (hsome : some.Sublist ranges) :
    Ordered some :=
  ⟨h.starts.sublist hsome, fun range hrange => h.proper range (hsome.subset hrange)⟩

theorem separate_firstFit (hlast : last ≤ length)
    (hproper : ∀ range ∈ ranges, range.1 ≤ range.2 ∧ range.2 ≤ length) :
    Separate length last (firstFit last ranges) := by
  induction ranges generalizing last with
  | nil => exact hlast
  | cons range ranges ih =>
    obtain ⟨hrange, hranges⟩ := List.forall_mem_cons.mp hproper
    rw [firstFit]
    split
    · next hfits => exact ⟨hfits, hrange.1, ih hrange.2 hranges⟩
    · exact ih hlast hranges

/-! ## Where the items kept come from -/

/-- The text with each item carrying its position. -/
def trace (text : List α) : List (α × Option ℕ) := text.zipIdx.map fun item => (item.1, some item.2)

/-- The positions of the items that carry one. -/
def kept (text : List (α × Option ℕ)) : List ℕ := text.filterMap Prod.snd

@[simp] theorem length_trace (text : List α) : (trace text).length = text.length := by
  simp [trace]

@[simp] theorem map_fst_trace (text : List α) : (trace text).map Prod.fst = text := by
  simp [trace, Function.comp_def]

@[simp] theorem kept_append (first second : List (α × Option ℕ)) :
    kept (first ++ second) = kept first ++ kept second :=
  List.filterMap_append

variable {mark : List (α × Option ℕ)}

theorem kept_eq_nil (h : ∀ item ∈ mark, item.2 = none) : kept mark = [] :=
  List.filterMap_eq_nil_iff.mpr h

/-- The position that the item at a place carries. -/
def positionAt (text : List (α × Option ℕ)) (i : ℕ) : Option ℕ := (text[i]?).bind Prod.snd

theorem positionAt_trace {text : List α} {i : ℕ} :
    positionAt (trace text) i = some x ↔ x < text.length ∧ i = x := by
  rw [positionAt, trace, List.getElem?_map, List.getElem?_zipIdx, Option.bind_eq_some_iff]
  simp only [Option.map_map, Option.map_eq_some_iff, List.getElem?_eq_some_iff]
  constructor
  · rintro ⟨item, ⟨_, ⟨hi, rfl⟩, rfl⟩, hx⟩
    simp only [Function.comp_apply, Option.some.injEq] at hx
    omega
  · rintro ⟨hx, rfl⟩
    exact ⟨_, ⟨_, ⟨hx, rfl⟩, rfl⟩, by simp⟩

theorem lt_length_of_positionAt {text : List (α × Option ℕ)} {i : ℕ}
    (h : positionAt text i = some x) : i < text.length := by
  obtain ⟨_, hitem, -⟩ := Option.bind_eq_some_iff.mp h
  exact (List.getElem?_eq_some_iff.mp hitem).1

theorem mem_kept_slice {text : List (α × Option ℕ)} {first stop : ℕ} :
    x ∈ kept ((text.take stop).drop first) ↔
      ∃ i, first ≤ i ∧ i < stop ∧ positionAt text i = some x := by
  rw [kept, List.mem_filterMap]
  simp only [List.mem_iff_getElem?, List.getElem?_drop, List.getElem?_take, positionAt,
    Option.bind_eq_some_iff]
  constructor
  · rintro ⟨item, ⟨i, hi⟩, hx⟩
    split at hi
    · next hstop => exact ⟨first + i, by omega, hstop, item, hi, hx⟩
    · cases hi
  · rintro ⟨i, hfirst, hstop, item, hi, hx⟩
    refine ⟨item, ⟨i - first, ?_⟩, hx⟩
    rw [Nat.add_sub_cancel' hfirst, if_pos hstop, hi]

/-- **The items kept are those in no range.** -/
theorem mem_kept_splice (hmark : kept mark = []) {text : List (α × Option ℕ)}
    (h : Separate text.length cursor ranges) :
    x ∈ kept (splice mark text cursor ranges) ↔
      ∃ i, cursor ≤ i ∧ positionAt text i = some x ∧ ¬ Covers ranges i := by
  induction ranges generalizing cursor with
  | nil =>
    have hslice := @mem_kept_slice x _ text cursor text.length
    rw [List.take_length] at hslice
    rw [splice, hslice]
    refine exists_congr fun i => and_congr_right fun _ => ?_
    constructor
    · exact fun ⟨_, hi⟩ => ⟨hi, by simp [Covers]⟩
    · exact fun ⟨hi, _⟩ => ⟨lt_length_of_positionAt hi, hi⟩
  | cons range ranges ih =>
    obtain ⟨hcursor, hrange, hrest⟩ := h
    rw [splice, kept_append, kept_append, hmark, List.append_nil, List.mem_append,
      mem_kept_slice, ih hrest, ← exists_or]
    refine exists_congr fun i => ?_
    have hbehind : Covers ranges i → range.2 ≤ i := hrest.le_of_covers
    rw [covers_cons]
    constructor
    · rintro (⟨hi, hstart, hx⟩ | ⟨hi, hx, hout⟩)
      · refine ⟨hi, hx, ?_⟩
        rintro (hhead | htail)
        · omega
        · have := hbehind htail
          omega
      · refine ⟨by omega, hx, ?_⟩
        rintro (hhead | htail)
        · omega
        · exact hout htail
    · rintro ⟨hi, hx, hout⟩
      rcases Nat.lt_or_ge i range.1 with hbefore | hstart
      · exact .inl ⟨hi, hbefore, hx⟩
      · refine .inr ⟨?_, hx, fun htail => hout (.inr htail)⟩
        by_contra hinside
        exact hout (.inl ⟨hstart, by omega⟩)

theorem length_kept {items : List (α × Option ℕ)} (h : ∀ item ∈ items, item.2.isSome) :
    (kept items).length = items.length := by
  induction items with
  | nil => rfl
  | cons item items ih =>
    obtain ⟨hitem, hitems⟩ := List.forall_mem_cons.mp h
    obtain ⟨x, hx⟩ := Option.isSome_iff_exists.mp hitem
    rw [kept, List.filterMap_cons_some hx, List.length_cons, List.length_cons]
    exact congrArg _ (ih hitems)

/-- Beside the items kept there is one mark for each range. -/
theorem length_splice (hmark : kept mark = []) (text : List α) (cursor : ℕ)
    (ranges : List (ℕ × ℕ)) :
    (splice mark (trace text) cursor ranges).length =
      (kept (splice mark (trace text) cursor ranges)).length + ranges.length * mark.length := by
  have hall : ∀ item ∈ trace text, item.2.isSome := by
    intro item hitem
    obtain ⟨_, -, rfl⟩ := List.mem_map.mp hitem
    rfl
  induction ranges generalizing cursor with
  | nil =>
    rw [splice, length_kept fun item hitem => hall item (List.mem_of_mem_drop hitem)]
    simp
  | cons range ranges ih =>
    have hslice := @length_kept _ (((trace text).take range.1).drop cursor)
      fun item hitem => hall item (List.mem_of_mem_take (List.mem_of_mem_drop hitem))
    simp only [splice, kept_append, hmark, List.append_nil, List.length_append, ih, hslice,
      List.length_cons, Nat.succ_mul]
    omega

/-- What is done to the items is done to the text with its ranges replaced. -/
theorem map_splice {β : Type} (f : α → β) (mark text : List α) (cursor : ℕ)
    (ranges : List (ℕ × ℕ)) :
    (splice mark text cursor ranges).map f =
      splice (mark.map f) (text.map f) cursor ranges := by
  induction ranges generalizing cursor with
  | nil => simp [splice, List.map_drop]
  | cons range ranges ih => simp [splice, ih, List.map_drop, List.map_take]

end Splice

end Foundations
