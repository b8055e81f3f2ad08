import DatabasesEverywhere.Foundations.Lists
import DatabasesEverywhere.Foundations.Pieces
import DatabasesEverywhere.Utils.LogRedactor

/-!
# Utils/LogRecords — what is shown of a log that is redacted record by record

    text      PASSWORD\n │ =secret\n │ …          records, each redacted for itself
    whole     PASSWORD\n=[redacted]\n …

The ends of the records matter: an assignment whose key or value goes over one is a secret of the
whole text and of no record, and `SecretsInRecords` says that there is none of them.
-/

namespace DatabasesEverywhere.Utils

open Foundations

/-- The text ends with a line end. -/
def EndsLine (text : List Char) : Prop := ∃ before c, text = before ++ [c] ∧ isLineEnd c = true

theorem isLineEnd_iff {c : Char} : isLineEnd c = true ↔ c = '\n' ∨ c = '\r' := by
  simp [isLineEnd]

/-- A line end is whitespace and no character that the redaction looks for. -/
theorem lineEnd_facts {c : Char} (h : isLineEnd c = true) :
    isWhitespace c = true ∧ isKeyChar c = false ∧ c ∉ urlSchemeSeparator.toList := by
  rcases isLineEnd_iff.mp h with rfl | rfl <;> decide

variable {text : List Char}

theorem EndsLine.exists_mem (h : EndsLine text) : ∃ c ∈ text, isLineEnd c = true := by
  obtain ⟨before, c, rfl, hc⟩ := h
  exact ⟨c, by simp, hc⟩

variable {n : ℕ}

theorem EndsLine.drop (h : EndsLine text) (hn : n < text.length) : EndsLine (text.drop n) := by
  obtain ⟨before, c, rfl, hc⟩ := h
  rw [List.length_append, List.length_singleton] at hn
  exact ⟨before.drop n, c, List.drop_append_of_le_length (by omega), hc⟩

theorem EndsLine.append (h : EndsLine text) (before : List Char) : EndsLine (before ++ text) := by
  obtain ⟨front, c, rfl, hc⟩ := h
  exact ⟨before ++ front, c, by simp, hc⟩

/-! ## Values and keys in front of more text -/

/-- A value is complete at a line end exactly if it ends before it. -/
theorem assignmentValueRange_append {after : List Char} {separator : Char} {range : ℕ × ℕ}
    (hafter : EndsLine after) (more : List Char) :
    assignmentValueRange after separator = some range ↔
      assignmentValueRange (after ++ more) separator = some range ∧ range.2 < after.length := by
  by_cases hall : (after.takeWhile isBlank).length = after.length
  · -- the value starts behind the line end
    refine iff_of_false (fun h => ?_) fun ⟨h, hlt⟩ => ?_
    · rw [assignmentValueRange, hall, List.drop_length] at h
      cases h
    · obtain ⟨hstart, hle, -⟩ := assignmentValueRange_bounds h
      rw [List.takeWhile_append, if_pos hall, List.length_append] at hstart
      omega
  have hle : (after.takeWhile isBlank).length ≤ after.length :=
    (List.takeWhile_sublist _).length_le
  rw [assignmentValueRange, assignmentValueRange, List.takeWhile_append, if_neg hall,
    List.drop_append_of_le_length hle]
  generalize (after.takeWhile isBlank).length = start at hall hle
  have hlength := congrArg List.length (List.take_append_drop start after)
  have hline := hafter.drop (lt_of_le_of_ne hle hall)
  rw [List.length_append, List.length_take, min_eq_left hle] at hlength
  rw [← hlength]
  generalize after.drop start = value at hline
  cases value with
  | nil => exact absurd hline (by simp [EndsLine])
  | cons first rest =>
    simp only [List.cons_append, List.length_cons]
    split
    · rw [Option.map_eq_some_iff, Option.map_eq_some_iff]
      constructor
      · rintro ⟨n, hn, rfl⟩
        obtain ⟨hn, hlt⟩ := (closingQuote_append more).mp hn
        exact ⟨⟨n, hn, rfl⟩, by omega⟩
      · rintro ⟨⟨n, hn, rfl⟩, hlt⟩
        exact ⟨n, (closingQuote_append more).mpr ⟨hn, by omega⟩, rfl⟩
    · obtain ⟨stop, hstop, hend⟩ := hline.exists_mem
      have hends : (!endsValue separator stop) = false := by
        simp [endsValue, (lineEnd_facts hend).1]
      rw [← List.cons_append, takeWhile_append_of_mem hstop hends]
      refine ⟨fun h => ⟨h, ?_⟩, And.left⟩
      have hshort : ((first :: rest).takeWhile fun c => !endsValue separator c).length < _ :=
        length_takeWhile_lt hstop hends
      split at h
      · cases h
        rw [List.length_cons] at hshort
        omega
      · cases h

variable {before : List Char}

/-- A key found behind a line end is found whatever stands before the line end. -/
theorem assignmentKey_append {line key : List Char} (h : assignmentKey line = some key)
    (hbefore : before = [] ∨ EndsLine before) : assignmentKey (before ++ line) = some key := by
  rcases hbefore with rfl | hbefore
  · exact h
  have hsolid : ∃ c ∈ line, isBlank c = false := by
    by_contra hall
    have hspaces : line.rdropWhile isBlank = [] := by
      rw [List.rdropWhile_eq_nil_iff]
      intro c hc
      by_contra hfalse
      exact hall ⟨c, hc, by simpa using hfalse⟩
    rw [assignmentKey, hspaces] at h
    cases h
  obtain ⟨c, hc, hspace⟩ := hsolid
  rw [assignmentKey] at h ⊢
  rw [rdropWhile_append_of_mem hc hspace]
  generalize line.rdropWhile isBlank = trimmed at h ⊢
  cases trimmed using List.reverseRecOn with
  | nil => cases h
  | append_singleton front last =>
    rw [← List.append_assoc, List.getLast?_concat, List.dropLast_concat]
    rw [List.getLast?_concat, List.dropLast_concat] at h
    simp only at h ⊢
    split at h
    · next hquote =>
      rw [if_pos hquote]
      split at h
      · next hkey =>
        have hstop : decide (last ≠ last) = false := by simp
        rw [rtakeWhile_append_of_mem (p := fun c => decide (c ≠ last)) hkey.1 hstop,
          if_pos ⟨List.mem_append_right _ hkey.1, hkey.2⟩]
        exact h
      · cases h
    · next hquote =>
      rw [if_neg hquote]
      -- the key ends at the line end at the latest
      obtain ⟨init, stop, rfl, hend⟩ := hbefore
      rw [List.append_assoc _ front, rtakeWhile_append_stop (lineEnd_facts hend).2.1]
      exact h

/-! ## Secrets of a text that is cut at line ends -/

section Cut

variable {first second : List Char} {separator : ℕ} {range : ℕ × ℕ}

theorem secretSeparator_append_left (h : separator < first.length) :
    secretSeparator (first ++ second) separator = secretSeparator first separator := by
  rw [secretSeparator, secretSeparator, List.getElem?_append_left h,
    List.take_append_of_le_length h.le]

/-- A secret in front of the cut is found there if its value ends in front of the cut. -/
theorem secretRangeAt_append_left (hfirst : EndsLine first) (h : separator < first.length) :
    secretRangeAt first separator = some range ↔
      secretRangeAt (first ++ second) separator = some range ∧ range.2 < first.length := by
  rw [secretRangeAt_iff, secretRangeAt_iff, secretSeparator_append_left h, and_assoc,
    List.getElem?_append_left h, List.drop_append_of_le_length (Nat.succ_le_of_lt h)]
  refine and_congr_right fun _ => ?_
  rw [← exists_and_right]
  refine exists_congr fun byte => ?_
  rw [← exists_and_right]
  refine exists_congr fun relative => ?_
  rw [and_assoc, and_assoc]
  refine and_congr_right fun _ => ?_
  rcases (Nat.succ_le_of_lt h).lt_or_eq with hlt | hlast
  · rw [assignmentValueRange_append (hfirst.drop hlt) second, List.length_drop, and_assoc]
    refine and_congr_right fun _ => ?_
    rw [and_comm]
    refine and_congr_right ?_
    rintro rfl
    simp only
    omega
  · -- a separator at the very end has no value
    rw [List.drop_of_length_le hlast.ge]
    refine iff_of_false (fun h => by cases h.1) ?_
    rintro ⟨-, rfl, hlt⟩
    simp only at hlt
    omega

/-- A secret behind the cut is found there if its key is. -/
theorem secretRangeAt_append_right (hfirst : EndsLine first) :
    secretRangeAt second separator = some range ↔
      secretRangeAt (first ++ second) (first.length + separator) =
          some (first.length + range.1, first.length + range.2) ∧
        (assignmentKey (second.take separator)).isSome = true := by
  have hkey : secretSeparator second separator = true ↔
      secretSeparator (first ++ second) (first.length + separator) = true ∧
        (assignmentKey (second.take separator)).isSome = true := by
    rw [secretSeparator, secretSeparator, List.getElem?_append_right (Nat.le_add_right _ _),
      Nat.add_sub_cancel_left, List.take_length_add_append]
    cases hfound : assignmentKey (second.take separator) with
    | none => simp
    | some key => simp [assignmentKey_append hfound (.inr hfirst)]
  rw [secretRangeAt_iff, secretRangeAt_iff, hkey, List.getElem?_append_right (Nat.le_add_right _ _),
    Nat.add_sub_cancel_left, Nat.add_assoc, List.drop_length_add_append]
  simp only [Prod.ext_iff, Nat.add_assoc, Nat.add_left_cancel_iff]
  tauto

end Cut

/-- The ends of the pieces in the text they make up. -/
def cuts : List (List Char) → List ℕ
  | [] => []
  | piece :: pieces => piece.length :: (cuts pieces).map (piece.length + ·)

/-- The secrets of the pieces, each piece a text of its own. -/
def pieceRanges : List (List Char) → List (ℕ × ℕ)
  | [] => []
  | piece :: pieces => secretRanges piece ++ shift piece.length (pieceRanges pieces)

/-- The assignment at the separator, whose value ends at `stop`, goes over the cut: the cut is in
front of the separator and the key is not found behind it, or it is not behind the value. -/
def GoesOver (value : List Char) (separator stop cut : ℕ) : Prop :=
  if cut ≤ separator then assignmentKey ((value.take separator).drop cut) = none else cut ≤ stop

instance (value : List Char) (separator stop cut : ℕ) :
    Decidable (GoesOver value separator stop cut) :=
  inferInstanceAs (Decidable (if cut ≤ separator then _ else _))

/-- The range is the value of an assignment that goes over none of the cuts. -/
def BetweenCuts (value : List Char) (cuts : List ℕ) (range : ℕ × ℕ) : Prop :=
  ∃ separator < value.length, secretRangeAt value separator = some range ∧
    ∀ cut ∈ cuts, ¬ GoesOver value separator range.2 cut

instance (value : List Char) (cuts : List ℕ) (range : ℕ × ℕ) :
    Decidable (BetweenCuts value cuts range) :=
  inferInstanceAs (Decidable (∃ separator < value.length, _))

section Pieces

variable {pieces : List (List Char)} {range : ℕ × ℕ}

/-- A separator of the first piece is in front of all cuts. -/
theorem not_goesOver_left {piece second : List Char} {separator stop : ℕ}
    (h : separator < piece.length) :
    (∀ cut ∈ cuts (piece :: pieces), ¬ GoesOver (piece ++ second) separator stop cut) ↔
      stop < piece.length := by
  simp only [cuts, List.forall_mem_cons, List.forall_mem_map, GoesOver,
    if_neg (Nat.not_le.mpr h), Nat.not_le]
  refine and_iff_left_of_imp fun hstop cut _ => ?_
  rw [if_neg (by omega)]
  omega

/-- **The secrets of the pieces** are the secrets of the text that go over none of the cuts. -/
theorem pieceRanges_eq (hpieces : ∀ piece ∈ pieces, EndsLine piece) (rest : List Char) :
    pieceRanges (pieces ++ [rest]) = (List.range (pieces.flatten ++ rest).length).filterMap
      fun separator => (secretRangeAt (pieces.flatten ++ rest) separator).filter fun range =>
        ∀ cut ∈ cuts pieces, ¬ GoesOver (pieces.flatten ++ rest) separator range.2 cut := by
  induction pieces with
  | nil =>
    have hall : ∀ range : Option (ℕ × ℕ), range.filter (fun _ => true) = range := by
      rintro (_ | _) <;> rfl
    simp [pieceRanges, shift, cuts, secretRanges, hall]
  | cons piece pieces ih =>
    obtain ⟨hpiece, hpieces⟩ := List.forall_mem_cons.mp hpieces
    rw [List.cons_append, pieceRanges, ih hpieces, List.flatten_cons, List.append_assoc]
    generalize pieces.flatten ++ rest = second
    rw [List.length_append, List.range_add, List.filterMap_append, List.filterMap_map, secretRanges,
      shift, List.map_filterMap]
    congr 1
    · refine List.filterMap_congr fun separator hseparator => Option.ext fun range => ?_
      have hlt := List.mem_range.mp hseparator
      rw [secretRangeAt_append_left hpiece hlt, Option.filter_eq_some_iff, decide_eq_true_iff,
        not_goesOver_left hlt]
    · refine List.filterMap_congr fun separator _ => Option.ext fun range => ?_
      have hkey : ∀ stop, (∀ cut ∈ cuts (piece :: pieces),
            ¬ GoesOver (piece ++ second) (piece.length + separator) (piece.length + stop) cut) ↔
          (assignmentKey (second.take separator)).isSome = true ∧
            ∀ cut ∈ cuts pieces, ¬ GoesOver second separator stop cut := by
        intro stop
        simp only [cuts, List.forall_mem_cons, List.forall_mem_map, GoesOver, Nat.le_add_right,
          if_true, Nat.add_le_add_iff_left, List.take_length_add_append, List.drop_left,
          List.drop_length_add_append, Option.isSome_iff_ne_none, ne_eq]
      simp only [Option.map_eq_some_iff, Option.filter_eq_some_iff, decide_eq_true_iff,
        Function.comp_apply]
      constructor
      · rintro ⟨original, ⟨hrange, hcuts⟩, rfl⟩
        obtain ⟨hwhole, hfound⟩ := (secretRangeAt_append_right hpiece).mp hrange
        exact ⟨hwhole, (hkey _).mpr ⟨hfound, hcuts⟩⟩
      · rintro ⟨hwhole, hcuts⟩
        obtain ⟨_, relative, -, -, -, rfl⟩ := secretRangeAt_eq_some hwhole
        simp only [Nat.add_assoc] at hwhole hcuts ⊢
        obtain ⟨hfound, hcuts⟩ := (hkey _).mp hcuts
        exact ⟨(separator + (1 + relative.1), separator + (1 + relative.2)),
          ⟨(secretRangeAt_append_right hpiece).mpr ⟨hwhole, hfound⟩, hcuts⟩, rfl⟩

theorem pieceRanges_bounds (h : range ∈ pieceRanges pieces) :
    range.1 ≤ range.2 ∧ range.2 ≤ pieces.flatten.length := by
  induction pieces generalizing range with
  | nil => cases h
  | cons piece pieces ih =>
    rw [List.flatten_cons, List.length_append]
    rcases List.mem_append.mp h with hmem | hmem
    · have := secretRanges_bounds hmem
      omega
    · obtain ⟨original, horiginal, rfl⟩ := List.mem_map.mp hmem
      have := ih horiginal
      simp only
      omega

theorem pieceRanges_append (rest : List Char) :
    pieceRanges (pieces ++ [rest]) =
      pieceRanges pieces ++ shift pieces.flatten.length (secretRanges rest) := by
  induction pieces with
  | nil => simp [pieceRanges, shift]
  | cons piece pieces ih =>
    simp [pieceRanges, ih, shift, Function.comp_def, Nat.add_assoc]

end Pieces

section Redact

variable {α : Type} [Textual α]

theorem flatten_map_chars (pieces : List (List α)) :
    (pieces.map chars).flatten = chars pieces.flatten :=
  List.map_flatten.symm

/-- **Pieces redacted one by one** are the text with first fit over their secrets replaced. -/
theorem flatten_redactSecrets (pieces : List (List α)) :
    (pieces.map redactSecrets).flatten = splice (written redacted) pieces.flatten 0
      (firstFit 0 (pieceRanges (pieces.map chars))) := by
  induction pieces with
  | nil => rfl
  | cons piece pieces ih =>
    have hseparate := separate_replacements (chars piece)
    rw [length_chars, replacements_eq] at hseparate
    rw [List.map_cons, List.flatten_cons, List.flatten_cons, List.map_cons, pieceRanges,
      firstFit_append_shift (Nat.zero_le _) (fun _ hrange => (secretRanges_bounds hrange).2),
      length_chars, splice_append hseparate, ← ih, redactSecrets, replacements_eq]

end Redact

section Shown

variable {pieces : List (List (Char × Option ℕ))} {rest : List (Char × Option ℕ)} {x : ℕ}

/-- Of pieces redacted one by one, what is in none of the ranges taken is shown. -/
theorem mem_kept_pieces :
    x ∈ kept (pieces.map redactSecrets).flatten ↔ ∃ i, positionAt pieces.flatten i = some x ∧
      ¬ Covers (firstFit 0 (pieceRanges (pieces.map chars))) i := by
  have hseparate := separate_firstFit (Nat.zero_le (pieces.map chars).flatten.length) fun _ =>
    pieceRanges_bounds
  rw [flatten_map_chars, length_chars] at hseparate
  simp [flatten_redactSecrets, mem_kept_splice (kept_written _) hseparate]

/-- A piece behind the others does not change what is shown of them. -/
theorem mem_kept_pieces_front :
    x ∈ kept (pieces.map redactSecrets).flatten ↔
      ∃ i < pieces.flatten.length, positionAt (pieces.flatten ++ rest) i = some x ∧
        ¬ Covers (firstFit 0 (pieceRanges (pieces.map chars ++ [chars rest]))) i := by
  rw [mem_kept_pieces, pieceRanges_append, flatten_map_chars, length_chars,
    firstFit_append_shift (Nat.zero_le _) fun range hrange => by
      have := (pieceRanges_bounds hrange).2
      rwa [flatten_map_chars, length_chars] at this]
  refine exists_congr fun i => ?_
  constructor
  · rintro ⟨hi, hout⟩
    have hlt := lt_length_of_positionAt hi
    refine ⟨hlt, by rwa [positionAt, List.getElem?_append_left hlt], ?_⟩
    rintro ⟨range, hrange, hle, hstop⟩
    rcases List.mem_append.mp hrange with hrange | hrange
    · exact hout ⟨range, hrange, hle, hstop⟩
    · obtain ⟨original, -, rfl⟩ := List.mem_map.mp hrange
      simp only at hle
      omega
  · rintro ⟨hlt, hi, hout⟩
    rw [positionAt, List.getElem?_append_left hlt] at hi
    refine ⟨hi, ?_⟩
    rintro ⟨range, hrange, hinside⟩
    exact hout ⟨range, List.mem_append_left _ hrange, hinside⟩

end Shown

/-! ## Credentials of a text that is cut at a line end -/

variable {needle text : List Char} {stop : Char}

theorem prefix_append_iff (hstop : stop ∈ text) (hneedle : stop ∉ needle) (more : List Char) :
    needle <+: text ++ more ↔ needle <+: text := by
  refine ⟨fun h => ?_, fun h => h.trans (List.prefix_append _ _)⟩
  rcases List.prefix_or_prefix_of_prefix h (List.prefix_append text more) with hle | hge
  · exact hle
  · exact absurd (hge.subset hstop) hneedle

theorem prefix_drop_of_find (h : find needle text = some n) : needle <+: text.drop n := by
  induction text generalizing n with
  | nil => cases h
  | cons c rest ih =>
    rw [find] at h
    split at h
    · next hprefix =>
      cases h
      exact List.isPrefixOf_iff_prefix.mp hprefix
    · obtain ⟨m, hm, rfl⟩ := Option.map_eq_some_iff.mp h
      exact ih hm

/-- What is searched for does not reach over a character it does not have. -/
theorem find_append (hstop : stop ∉ needle) (hneedle : needle ≠ []) (more : List Char) :
    find needle (before ++ [stop] ++ more) =
      (find needle (before ++ [stop])).or
        ((find needle more).map ((before ++ [stop]).length + ·)) := by
  have hone : ¬ needle <+: [stop] := by
    intro h
    obtain ⟨c, hc⟩ := List.exists_mem_of_ne_nil needle hneedle
    obtain rfl := List.mem_singleton.mp (h.subset hc)
    exact hstop hc
  induction before with
  | nil =>
    have hmore : ¬ needle.isPrefixOf (stop :: more) := by
      rw [List.isPrefixOf_iff_prefix]
      exact fun h => hone ((prefix_append_iff List.mem_cons_self hstop more).mp h)
    rw [List.nil_append, List.singleton_append, find, find, if_neg hmore,
      if_neg (by rw [List.isPrefixOf_iff_prefix]; exact hone)]
    simp [find, Nat.add_comm]
  | cons c before ih =>
    have hmem : stop ∈ c :: (before ++ [stop]) := by simp
    have hsame : needle.isPrefixOf (c :: (before ++ [stop] ++ more)) =
        needle.isPrefixOf (c :: (before ++ [stop])) := by
      rw [Bool.eq_iff_iff, List.isPrefixOf_iff_prefix, List.isPrefixOf_iff_prefix]
      exact prefix_append_iff hmem hstop more
    rw [List.cons_append, List.cons_append, find, find, hsame, ih]
    split
    · rfl
    rw [Option.map_or, Option.map_map]
    congr 2
    funext n
    simp only [Function.comp_apply, List.length_cons]
    omega

variable {rest : List α}

section Urls

variable [Textual α]

variable {value : List α}

theorem redactUrlCredentials_none (h : find urlSchemeSeparator.toList (chars value) = none) :
    redactUrlCredentials value = value := by
  rw [redactUrlCredentials]
  split
  · rfl
  · next hfind => cases h.symm.trans hfind

/-- The authority behind a scheme. -/
def authorityOf (rest : List α) : List Char := (chars rest).takeWhile fun c => !endsAuthority c

theorem redactUrlCredentials_some {index : ℕ}
    (h : find urlSchemeSeparator.toList (chars value) = some index) :
    redactUrlCredentials value = value.take (index + 3) ++
      match credentialsEnd (authorityOf (value.drop (index + 3))) with
      | none => redactUrlCredentials (value.drop (index + 3))
      | some place =>
        written redacted ++ redactUrlCredentials ((value.drop (index + 3)).drop place) := by
  conv_lhs => rw [redactUrlCredentials]
  split
  · next hfind => cases h.symm.trans hfind
  · next hfind =>
    obtain rfl := Option.some.inj (h.symm.trans hfind)
    simp only [List.drop_drop]
    rfl

/-- What holds of a text that stays as it is, and goes on from what is behind a scheme to the text,
holds of every text and what it is redacted to. -/
theorem redactUrlCredentials_induction {motive : List α → List α → Prop}
    (plain : ∀ value, motive value value)
    (scheme : ∀ value index rest mark, urlSchemeSeparator.toList <+: (chars value).drop index →
      rest <:+ value.drop (index + 3) → mark = [] ∨ mark = written redacted →
      motive rest (redactUrlCredentials rest) →
      motive value (value.take (index + 3) ++ (mark ++ redactUrlCredentials rest)))
    (value : List α) : motive value (redactUrlCredentials value) := by
  induction hn : value.length using Nat.strong_induction_on generalizing value with
  | _ n ih =>
    cases hfind : find urlSchemeSeparator.toList (chars value) with
    | none =>
      rw [redactUrlCredentials_none hfind]
      exact plain value
    | some index =>
      have hpos := length_pos_of_find hfind
      rw [length_chars] at hpos
      have hprefix := prefix_drop_of_find hfind
      rw [redactUrlCredentials_some hfind]
      split
      · exact scheme value index _ [] hprefix List.suffix_rfl (.inl rfl)
          (ih _ (by rw [List.length_drop]; omega) _ rfl)
      · exact scheme value index _ _ hprefix (List.drop_suffix _ _) (.inr rfl)
          (ih _ (by rw [List.length_drop, List.length_drop]; omega) _ rfl)

theorem credentialsEnd_le {authority : List Char} {place : ℕ}
    (h : credentialsEnd authority = some place) : place ≤ authority.length := by
  rw [credentialsEnd] at h
  split at h
  · cases h
    rw [List.length_dropLast]
    exact (Nat.sub_le _ _).trans (List.rdropWhile_prefix _ _).length_le
  · cases h

theorem authorityOf_append (h : EndsLine (chars rest)) (more : List α) :
    authorityOf (rest ++ more) = authorityOf rest := by
  obtain ⟨c, hc, hend⟩ := h.exists_mem
  rw [authorityOf, chars_append]
  exact takeWhile_append_of_mem hc (by simp [endsAuthority, (lineEnd_facts hend).1]) _

theorem length_authorityOf_lt (h : EndsLine (chars rest)) :
    (authorityOf rest).length < rest.length := by
  obtain ⟨c, hc, hend⟩ := h.exists_mem
  rw [← length_chars rest]
  exact length_takeWhile_lt hc (by simp [endsAuthority, (lineEnd_facts hend).1])

/-- A scheme's separator ends before the line does. -/
theorem find_lt {index : ℕ} (h : EndsLine text)
    (hfind : find urlSchemeSeparator.toList text = some index) : index + 3 < text.length := by
  have hprefix := prefix_drop_of_find hfind
  have hlength : 3 ≤ text.length - index := by
    rw [← List.length_drop]
    exact hprefix.length_le
  by_contra hge
  have heq : urlSchemeSeparator.toList = text.drop index := by
    apply hprefix.eq_of_length
    rw [List.length_drop]
    change 3 = _
    omega
  obtain ⟨c, hc, hend⟩ := (h.drop (show index < text.length by omega)).exists_mem
  rw [← heq] at hc
  exact (lineEnd_facts hend).2.2 hc

/-- **The credentials of a text cut at a line end** are those of the two parts. -/
theorem redactUrlCredentials_append (first second : List α) (h : EndsLine (chars first)) :
    redactUrlCredentials (first ++ second) =
        redactUrlCredentials first ++ redactUrlCredentials second ∧
      EndsLine (chars (redactUrlCredentials first)) := by
  induction hn : first.length using Nat.strong_induction_on generalizing first with
  | _ n ih =>
    obtain ⟨before, stop, hchars, hend⟩ := id h
    have hfind := @find_append before _ _ (lineEnd_facts hend).2.2 (by decide) (chars second)
    rw [← hchars, ← chars_append, length_chars] at hfind
    cases hfirst : find urlSchemeSeparator.toList (chars first) with
    | none =>
      rw [hfirst, Option.none_or] at hfind
      rw [redactUrlCredentials_none hfirst]
      refine ⟨?_, h⟩
      cases hsecond : find urlSchemeSeparator.toList (chars second) with
      | none =>
        rw [hsecond, Option.map_none] at hfind
        rw [redactUrlCredentials_none hfind, redactUrlCredentials_none hsecond]
      | some index =>
        rw [hsecond, Option.map_some] at hfind
        rw [redactUrlCredentials_some hfind, redactUrlCredentials_some hsecond, Nat.add_assoc,
          List.take_length_add_append, List.drop_length_add_append, List.append_assoc]
    | some index =>
      rw [hfirst, Option.some_or] at hfind
      have hlt : index + 3 < first.length := by
        rw [← length_chars first]
        exact find_lt h hfirst
      have hrest : EndsLine (chars (first.drop (index + 3))) := by
        rw [chars_drop]
        exact h.drop (by rw [length_chars]; exact hlt)
      have hcursor : ∀ place ≤ (authorityOf (first.drop (index + 3))).length,
          redactUrlCredentials ((first.drop (index + 3)).drop place ++ second) =
              redactUrlCredentials ((first.drop (index + 3)).drop place) ++
                redactUrlCredentials second ∧
            EndsLine (chars (redactUrlCredentials ((first.drop (index + 3)).drop place))) := by
        intro place hplace
        have hinside := hplace.trans_lt (length_authorityOf_lt hrest)
        have hstep : ((first.drop (index + 3)).drop place).length < n := by
          rw [List.length_drop, List.length_drop]
          omega
        refine ih _ hstep _ ?_ rfl
        rw [chars_drop]
        exact hrest.drop (by rw [length_chars]; exact hinside)
      rw [redactUrlCredentials_some hfind, redactUrlCredentials_some hfirst,
        List.take_append_of_le_length hlt.le, List.drop_append_of_le_length hlt.le,
        authorityOf_append hrest]
      cases hplace : credentialsEnd (authorityOf (first.drop (index + 3))) with
      | none =>
        obtain ⟨heq, hline⟩ := hcursor 0 (Nat.zero_le _)
        simp only [List.drop_zero] at heq hline
        rw [chars_append]
        refine ⟨?_, hline.append _⟩
        simp only [heq, List.append_assoc]
      | some place =>
        have hle := credentialsEnd_le hplace
        obtain ⟨heq, hline⟩ := hcursor place hle
        have hinside := hle.trans_lt (length_authorityOf_lt hrest)
        simp only [List.drop_append_of_le_length hinside.le, heq, List.append_assoc, chars_append,
          true_and]
        exact (hline.append _).append _

/-- The credentials of a text cut at line ends are those of its pieces. -/
theorem redactUrlCredentials_pieces {pieces : List (List α)}
    (h : ∀ piece ∈ pieces, EndsLine (chars piece)) (rest : List α) :
    redactUrlCredentials (pieces.flatten ++ rest) =
      (pieces.map redactUrlCredentials).flatten ++ redactUrlCredentials rest := by
  induction pieces with
  | nil => rfl
  | cons piece pieces ih =>
    obtain ⟨hpiece, hpieces⟩ := List.forall_mem_cons.mp h
    rw [List.flatten_cons, List.append_assoc, (redactUrlCredentials_append piece _ hpiece).1,
      ih hpieces, List.map_cons, List.flatten_cons, List.append_assoc]

end Urls

theorem byteLength_append (first second : List Char) :
    byteLength (first ++ second) = byteLength first + byteLength second := by
  simp [byteLength]

namespace LogRedactor

variable [Textual α]

/-! ## Records -/

/-- The records of the lines behind `pending`, and what is left: a record is closed behind a line
end if all its secrets have their values. -/
def records (pending : List α) : List (List α) → List (List α) × List α
  | [] => ([], pending)
  | line :: lines =>
    if recordComplete line && valuesComplete (chars (pending ++ line)) then
      ((pending ++ line) :: (records [] lines).1, (records [] lines).2)
    else records (pending ++ line) lines

variable {pending : List α}

theorem flatten_records (lines : List (List α)) :
    (records pending lines).1.flatten ++ (records pending lines).2 = pending ++ lines.flatten := by
  induction lines generalizing pending with
  | nil => simp [records]
  | cons line lines ih =>
    rw [records]
    split
    · simp only [List.flatten_cons, List.append_assoc, ih, List.nil_append]
    · rw [ih, List.flatten_cons, List.append_assoc]

theorem endsLine_of_recordComplete {part : List α} (h : recordComplete part = true) :
    EndsLine (chars part) := by
  obtain ⟨item, hitem, hend⟩ := (Option.any_eq_true _ _).mp h
  obtain ⟨before, rfl⟩ := List.getLast?_eq_some_iff.mp hitem
  exact ⟨chars before, Textual.char item, by rw [chars_append]; rfl, hend⟩

theorem endsLine_of_mem_records {lines : List (List α)} {record : List α}
    (h : record ∈ (records pending lines).1) : EndsLine (chars record) := by
  induction lines generalizing pending with
  | nil => cases h
  | cons line lines ih =>
    rw [records] at h
    split at h
    · next hclosed =>
      rcases List.mem_cons.mp h with rfl | h
      · rw [chars_append]
        exact (endsLine_of_recordComplete (Bool.and_eq_true_iff.mp hclosed).1).append _
      · exact ih h
    · exact ih h

/-- **Below the record limit**, each record is given out redacted for itself. -/
theorem outputParts_eq_records (lines : List (List α))
    (hsize : byteLength (chars (pending ++ lines.flatten)) ≤ logRecordLimit) :
    outputParts { pending } lines =
      ((records pending lines).1.map redactConnectionUrl).flatten ++
        finish { pending := (records pending lines).2 } := by
  induction lines generalizing pending with
  | nil => rfl
  | cons line lines ih =>
    rw [List.flatten_cons, ← List.append_assoc] at hsize
    have hbytes : byteLength (chars (pending ++ line)) + byteLength (chars lines.flatten) ≤
        logRecordLimit := by
      rw [chars_append (pending ++ line), byteLength_append] at hsize
      exact hsize
    have hfits : ¬ logRecordLimit < byteLength (chars pending) + byteLength (chars line) := by
      rw [chars_append, byteLength_append] at hbytes
      omega
    rw [outputParts, pushParts, records]
    simp only [Bool.false_eq_true, if_false, if_neg hfits]
    cases hclosed : recordComplete line && valuesComplete (chars (pending ++ line)) with
    | false =>
      have hsafe : safeRecord (pending ++ line) line = none := by
        rw [safeRecord, redactLogRecord]
        split <;> simp_all
      rw [hsafe]
      exact ih hsize
    | true =>
      obtain ⟨hcomplete, hvalues⟩ := Bool.and_eq_true_iff.mp hclosed
      have hsafe : safeRecord (pending ++ line) line = some (redactConnectionUrl (pending ++ line)) := by
        rw [safeRecord, if_pos hcomplete, redactLogRecord, if_pos hvalues]
      have hrest := @ih [] (by rw [List.nil_append]; omega)
      rw [outputParts] at hrest
      simp only [hsafe, if_true, List.map_cons, List.flatten_cons, List.append_assoc, hrest]

end LogRedactor

section Chars

variable [Textual α]

theorem chars_redactUrlCredentials (text : List α) :
    chars (redactUrlCredentials text) = redactUrlCredentials (chars text) := by
  induction hn : text.length using Nat.strong_induction_on generalizing text with
  | _ n ih =>
    cases hfind : find urlSchemeSeparator.toList (chars text) with
    | none =>
      rw [redactUrlCredentials_none hfind, redactUrlCredentials_none (by rw [chars_char, hfind])]
    | some index =>
      have hpos := length_pos_of_find hfind
      rw [length_chars] at hpos
      have hfind' : find urlSchemeSeparator.toList (chars (chars text)) = some index := by
        rw [chars_char, hfind]
      rw [redactUrlCredentials_some hfind, redactUrlCredentials_some hfind', chars_append,
        ← chars_drop, authorityOf, authorityOf, chars_char]
      refine congrArg₂ _ List.map_take ?_
      split
      · exact ih _ (by rw [List.length_drop]; omega) _ rfl
      · rw [chars_append, chars_written, ← chars_drop,
          ih _ (by rw [List.length_drop, List.length_drop]; omega) _ rfl]

theorem chars_redactConnectionUrl (text : List α) :
    chars (redactConnectionUrl text) = redactConnectionUrl (chars text) := by
  rw [redactConnectionUrl, redactConnectionUrl, chars_redactSecrets, chars_redactUrlCredentials]

end Chars

namespace LogRedactor

section Chars

variable [Textual α]

theorem splitInclusive_chars (text : List α) :
    splitInclusive (chars text) = (splitInclusive text).map chars := by
  induction text with
  | nil => rfl
  | cons item rest ih =>
    change splitInclusive (Textual.char item :: chars rest) = _
    rw [splitInclusive, splitInclusive, ih]
    change (if isLineEnd (Textual.char item) then _ else _) = _
    split
    · rfl
    · cases splitInclusive rest <;> rfl

theorem records_chars (pending : List α) (lines : List (List α)) :
    records (chars pending) (lines.map chars) =
      ((records pending lines).1.map chars, chars (records pending lines).2) := by
  induction lines generalizing pending with
  | nil => rfl
  | cons line lines ih =>
    have hcomplete : recordComplete (chars line) = recordComplete line := by
      rw [recordComplete, recordComplete, chars, List.getLast?_map, Option.any_map]
      rfl
    rw [List.map_cons, records, records, hcomplete, ← chars_append, chars_char]
    split
    · rw [show records [] (lines.map chars) = _ from ih []]
      rfl
    · exact ih _

/-- Below the record limit, what the characters carry along does not matter for the output. -/
theorem output_chars (chunks : List (List α))
    (hsize : byteLength (chars chunks.flatten) ≤ logRecordLimit) :
    output {} (chunks.map chars) = chars (output {} chunks) := by
  have hfinish : ∀ pending : List α,
      finish { pending := chars pending } = chars (finish { pending }) := by
    intro pending
    rw [finish, finish, redactLogRecord, redactLogRecord, chars_char]
    split
    · exact (chars_redactConnectionUrl pending).symm
    · exact (chars_written _).symm
  have hparts := records_chars [] (splitInclusive chunks.flatten)
  rw [output_eq_lines, output_eq_lines, flatten_map_chars, splitInclusive_chars,
    outputParts_eq_records, outputParts_eq_records, show records [] _ = _ from hparts, hfinish,
    chars_append, ← flatten_map_chars, List.map_map, List.map_map]
  · simp only [Function.comp_def, chars_redactConnectionUrl]
  · rwa [flatten_splitInclusive, List.nil_append]
  · rwa [← splitInclusive_chars, flatten_splitInclusive, List.nil_append, chars_char]

end Chars

end LogRedactor

/-! ## Where characters are from -/

theorem kept_redactUrlCredentials (text : List (Char × Option ℕ)) :
    (kept (redactUrlCredentials text)).Sublist (kept text) := by
  induction text using redactUrlCredentials_induction with
  | plain text => exact .refl _
  | scheme text index rest mark _ hrest hmark ih =>
    have hmark : kept mark = [] := by
      rcases hmark with rfl | rfl
      · rfl
      · exact kept_written _
    have htext : kept text = kept (text.take (index + 3)) ++ kept (text.drop (index + 3)) := by
      rw [← kept_append, List.take_append_drop]
    rw [kept_append, kept_append, hmark, List.nil_append, htext]
    exact (List.Sublist.refl _).append (ih.trans (hrest.sublist.filterMap _))

/-- What a marker follows on, and its own characters. -/
def beforeMarker : List Char := '/' :: redacted.toList

/-- An item that carries no position is one of a marker. -/
theorem isChain_redactUrlCredentials (text : List (Char × Option ℕ)) :
    (∀ item ∈ text, item.2.isSome) →
      (redactUrlCredentials text).IsChain fun a b => b.2.isSome ∨ a.1 ∈ beforeMarker := by
  have hchain : ∀ {items : List (Char × Option ℕ)}, (∀ item ∈ items, item.2.isSome) →
      items.IsChain fun a b => b.2.isSome ∨ a.1 ∈ beforeMarker := by
    intro items hitems
    rw [List.isChain_iff_getElem]
    exact fun i hi => .inl (hitems _ (List.getElem_mem _))
  induction text using redactUrlCredentials_induction with
  | plain text => exact hchain
  | scheme text index rest mark hscheme hrest hmark ih =>
    intro h
    have hlast : ∀ item ∈ (text.take (index + 3)).getLast?, item.1 ∈ beforeMarker := by
      intro item hitem
      obtain ⟨behind, hbehind⟩ := hscheme
      have hchars : (chars text).take (index + 3) = (chars text).take index ++ [':', '/', '/'] := by
        rw [List.take_add, ← hbehind]
        rfl
      have hslash : ((text.take (index + 3)).getLast?).map Prod.fst = some '/' := by
        rw [← List.getLast?_map, List.map_take]
        exact (congrArg List.getLast? hchars).trans (by simp)
      rw [Option.mem_def.mp hitem, Option.map_some, Option.some.injEq] at hslash
      rw [hslash]
      exact List.mem_cons_self
    have hmarkChain : mark.IsChain fun a b => b.2.isSome ∨ a.1 ∈ beforeMarker := by
      rcases hmark with rfl | rfl <;> decide
    rw [List.isChain_append, List.isChain_append]
    refine ⟨hchain fun item hitem => h item (List.mem_of_mem_take hitem), ⟨?_, ?_, ?_⟩,
      fun item hitem _ _ => .inr (hlast item hitem)⟩
    · exact hmarkChain
    · exact ih fun item hitem => h item (List.mem_of_mem_drop (hrest.subset hitem))
    · intro item hitem _ _
      right
      rcases hmark with rfl | rfl
      · cases hitem
      · cases hitem
        decide

/-- A secret of the text without its credentials does not start inside of a marker. -/
theorem isSome_positionAt_start {text : List Char} {range : ℕ × ℕ}
    (h : range ∈ secretRanges (chars (redactUrlCredentials (trace text))))
    (hlt : range.1 < (redactUrlCredentials (trace text)).length) :
    (positionAt (redactUrlCredentials (trace text)) range.1).isSome = true := by
  have hall : ∀ item ∈ trace text, item.2.isSome := by
    intro item hitem
    obtain ⟨_, -, rfl⟩ := List.mem_map.mp hitem
    rfl
  have hchain := isChain_redactUrlCredentials (trace text) hall
  generalize redactUrlCredentials (trace text) = value at *
  obtain ⟨before, c, hstart, hc, hclass⟩ := secretRanges_start h
  have hstep := List.isChain_iff_getElem.mp hchain before (by omega)
  have hbefore : value[before].1 = c := by
    rw [chars, List.getElem?_map, List.getElem?_eq_getElem (show before < _ by omega)] at hc
    exact Option.some.inj hc
  have hmarker :
      (beforeMarker.all fun c => !(isSeparator c || isBlank c || isQuote c)) = true := by
    decide
  rw [hstart, positionAt, List.getElem?_eq_getElem (by omega)]
  refine hstep.resolve_right fun hmem => ?_
  rw [hbefore] at hmem
  have hother := List.all_eq_true.mp hmarker c hmem
  rw [hclass] at hother
  cases hother

namespace LogRedactor

/-! ## What is shown -/

/-- The ends of the records in the text without its credentials. -/
def recordEnds (text : List Char) : List ℕ :=
  cuts ((records [] (splitInclusive text)).1.map redactUrlCredentials)

/-- Where the text without its credentials ends if what is left behind the records is withheld. -/
def shownEnd (text : List Char) : ℕ :=
  if valuesComplete (records [] (splitInclusive text)).2 then (redactUrlCredentials text).length
  else ((records [] (splitInclusive text)).1.map redactUrlCredentials).flatten.length

/-- No secret that redaction of the whole text replaces, and that starts where something is shown,
goes over the end of a record. -/
def SecretsInRecords (text : List Char) : Prop :=
  ∀ range ∈ replacements (redactUrlCredentials text), range.1 < range.2 → range.1 < shownEnd text →
    BetweenCuts (redactUrlCredentials text) (recordEnds text) range

instance (text : List Char) : Decidable (SecretsInRecords text) :=
  inferInstanceAs (Decidable (∀ range ∈ replacements (redactUrlCredentials text), _))

/-- Every character that the redactor shows, fed with the chunks of the text, redaction of the whole
text shows too.  The characters carry their positions. -/
def HidesAsWhole (text : List Char) (chunks : List (List (Char × Option ℕ))) : Prop :=
  kept (output {} chunks) ⊆ kept (redactConnectionUrl (trace text))

/-- Without the positions, the outputs are those of the program. -/
theorem chars_output {text : List Char} (hsize : byteLength text < logRecordLimit)
    (chunks : List (List (Char × Option ℕ))) (hcut : chunks.flatten = trace text) :
    chars (output {} chunks) = output {} (chunks.map chars) ∧
      chars (redactConnectionUrl (trace text)) = redactConnectionUrl text := by
  refine ⟨(output_chars chunks ?_).symm, ?_⟩
  · rw [hcut, chars_trace]
    exact hsize.le
  · rw [chars_redactConnectionUrl, chars_trace]

section Exact

variable {text : List Char}

/-- The records of the text whose characters carry their positions, without their credentials. -/
def tracedRecords (text : List Char) : List (List (Char × Option ℕ)) :=
  (records [] (splitInclusive (trace text))).1.map redactUrlCredentials

/-- What is left behind them. -/
def tracedRest (text : List Char) : List (Char × Option ℕ) :=
  redactUrlCredentials (records [] (splitInclusive (trace text))).2

theorem records_trace (text : List Char) :
    records [] (splitInclusive text) =
      ((records [] (splitInclusive (trace text))).1.map chars,
        chars (records [] (splitInclusive (trace text))).2) := by
  have hrecords := records_chars [] (splitInclusive (trace text))
  rw [← splitInclusive_chars, chars_trace] at hrecords
  exact hrecords

theorem map_chars_tracedRecords (text : List Char) :
    (tracedRecords text).map chars =
      (records [] (splitInclusive text)).1.map redactUrlCredentials := by
  rw [records_trace, tracedRecords, List.map_map, List.map_map]
  exact List.map_congr_left fun record _ => chars_redactUrlCredentials record

theorem flatten_tracedRecords (text : List Char) :
    (tracedRecords text).flatten ++ tracedRest text = redactUrlCredentials (trace text) := by
  have hflatten := @flatten_records _ _ [] (splitInclusive (trace text))
  rw [flatten_splitInclusive, List.nil_append] at hflatten
  rw [← hflatten, redactUrlCredentials_pieces fun _ => endsLine_of_mem_records]
  rfl

theorem endsLine_of_mem_tracedRecords {record : List Char}
    (h : record ∈ (tracedRecords text).map chars) : EndsLine record := by
  obtain ⟨_, htraced, rfl⟩ := List.mem_map.mp h
  obtain ⟨record, hrecord, rfl⟩ := List.mem_map.mp htraced
  exact (redactUrlCredentials_append record [] (endsLine_of_mem_records hrecord)).2

/-- What is shown of a text in chunks. -/
theorem mem_kept_output (hsize : byteLength text < logRecordLimit)
    {chunks : List (List (Char × Option ℕ))} (hcut : chunks.flatten = trace text) {x : ℕ} :
    x ∈ kept (output {} chunks) ↔
      ∃ i < shownEnd text, positionAt (redactUrlCredentials (trace text)) i = some x ∧
        ¬ Covers (firstFit 0
          (pieceRanges ((tracedRecords text).map chars ++ [chars (tracedRest text)]))) i := by
  have hrest : (records [] (splitInclusive text)).2 =
      chars (records [] (splitInclusive (trace text))).2 := by rw [records_trace]
  have houtput : output {} chunks = ((tracedRecords text).map redactSecrets).flatten ++
      finish { pending := (records [] (splitInclusive (trace text))).2 } := by
    rw [output_eq_lines, hcut, outputParts_eq_records _ ?_, tracedRecords, List.map_map]
    · rfl
    · rw [flatten_splitInclusive, List.nil_append, chars_trace]
      exact hsize.le
  rw [houtput, finish, redactLogRecord, kept_append, shownEnd, hrest, ← map_chars_tracedRecords,
    flatten_map_chars, length_chars]
  split
  · -- the rest is shown as one more record
    have hall := @mem_kept_pieces (tracedRecords text ++ [tracedRest text]) x
    simp only [List.map_append, List.map_singleton, List.flatten_append, List.flatten_singleton,
      kept_append, flatten_tracedRecords] at hall
    rw [Option.getD_some]
    refine hall.trans (exists_congr fun i => ?_)
    refine (and_iff_right_of_imp ?_).symm
    rintro ⟨hi, -⟩
    have hlt := lt_length_of_positionAt hi
    rwa [← length_chars, chars_redactUrlCredentials, chars_trace] at hlt
  · rw [Option.getD_none, kept_written, List.append_nil, ← flatten_tracedRecords]
    exact mem_kept_pieces_front

end Exact

/-- **A log in chunks is redacted as the whole text is** exactly if no secret goes over the end of a
record. -/
theorem hidesAsWhole_iff {text : List Char} (hsize : byteLength text < logRecordLimit)
    (chunks : List (List (Char × Option ℕ))) (hcut : chunks.flatten = trace text) :
    HidesAsWhole text chunks ↔ SecretsInRecords text := by
  have hline : ∀ record ∈ (tracedRecords text).map chars, EndsLine record := fun _ =>
    endsLine_of_mem_tracedRecords
  have hranges := pieceRanges_eq hline (chars (tracedRest text))
  have hchars : chars (redactUrlCredentials (trace text)) = redactUrlCredentials text := by
    rw [chars_redactUrlCredentials, chars_trace]
  rw [flatten_map_chars, ← chars_append, flatten_tracedRecords,
    show cuts ((tracedRecords text).map chars) = recordEnds text by
      rw [map_chars_tracedRecords, recordEnds]] at hranges
  have hsublist : (pieceRanges ((tracedRecords text).map chars ++ [chars (tracedRest text)])).Sublist
      (secretRanges (chars (redactUrlCredentials (trace text)))) := by
    rw [hranges]
    exact filterMap_sublist_filterMap fun _ _ _ h => (Option.filter_eq_some_iff.mp h).1
  have hnodup : (kept (redactUrlCredentials (trace text))).Nodup :=
    (nodup_kept_trace text).sublist (kept_redactUrlCredentials _)
  -- the places of what is shown in front of the end
  let seen := fun i => i < shownEnd text ∧
    (positionAt (redactUrlCredentials (trace text)) i).isSome = true
  have hseen : ∀ range ∈ secretRanges (chars (redactUrlCredentials (trace text))), ∀ i,
      range.1 ≤ i → seen i → seen range.1 := by
    rintro range hrange i hle ⟨hi, hshown⟩
    obtain ⟨x, hx⟩ := Option.isSome_iff_exists.mp hshown
    exact ⟨hle.trans_lt hi,
      isSome_positionAt_start hrange (hle.trans_lt (lt_length_of_positionAt hx))⟩
  calc HidesAsWhole text chunks
    _ ↔ ∀ i, seen i →
        Covers (firstFit 0 (secretRanges (chars (redactUrlCredentials (trace text))))) i →
        Covers (firstFit 0
          (pieceRanges ((tracedRecords text).map chars ++ [chars (tracedRest text)]))) i := by
      rw [HidesAsWhole, redactConnectionUrl]
      constructor
      · rintro hsubset i ⟨hi, hshown⟩ hcovered
        by_contra hout
        obtain ⟨x, hx⟩ := Option.isSome_iff_exists.mp hshown
        obtain ⟨j, hj, hfree⟩ := mem_kept_redactSecrets.mp
          (hsubset ((mem_kept_output hsize hcut).mpr ⟨i, hi, hx, hout⟩))
        obtain rfl := positionAt_inj hnodup hx hj
        rw [replacements_eq] at hfree
        exact hfree hcovered
      · intro hcovers x hx
        obtain ⟨i, hi, hposition, hout⟩ := (mem_kept_output hsize hcut).mp hx
        refine mem_kept_redactSecrets.mpr ⟨i, hposition, fun hcovered => hout ?_⟩
        rw [replacements_eq] at hcovered
        exact hcovers i ⟨hi, Option.isSome_iff_exists.mpr ⟨x, hposition⟩⟩ hcovered
    _ ↔ SecretsInRecords text := by
      rw [firstFit_covers_sublist_iff hsublist (ordered_secretRanges _) hseen, SecretsInRecords,
        replacements_eq, ← hchars]
      refine forall₂_congr fun range hrange => forall_congr' fun hlt => ?_
      have hsecret := (firstFit_sublist _ _).subset hrange
      have hlength := (secretRanges_bounds hsecret).2
      rw [length_chars] at hlength
      rw [hranges, List.mem_filterMap]
      simp only [List.mem_range, Option.filter_eq_some_iff, decide_eq_true_iff]
      exact imp_congr_left
        (and_iff_left (isSome_positionAt_start hsecret (hlt.trans_le hlength)))

/-- Three lines are one record: the value of the first key ends on the last of them. -/
theorem hidesAsWhole_one_record :
    HidesAsWhole "KEY=\"a\nPASSWORD\n=secret\"\nTOKEN\n:\n".toList
      [(trace "KEY=\"a\nPASSWORD\n=secret\"\nTOKEN\n:\n".toList).take 14,
        (trace "KEY=\"a\nPASSWORD\n=secret\"\nTOKEN\n:\n".toList).drop 14] :=
  (hidesAsWhole_iff (by decide +kernel) _ (by decide +kernel)).mpr (by decide +kernel)

/-- The key is given out with its line, the value with the next; and a quote inside of credentials
makes a record look complete. -/
theorem not_hidesAsWhole_key_on_line_before :
    output {} ["PASSWORD\n=secret\n".toList] = "PASSWORD\n=secret\n".toList ∧
      redactConnectionUrl "PASSWORD\n=secret\n".toList = "PASSWORD\n=[redacted]\n".toList ∧
      ¬ HidesAsWhole "PASSWORD\n=secret\n".toList [trace "PASSWORD\n=secret\n".toList] ∧
      ¬ HidesAsWhole "PASSWORD=\"x://a:b\"@h\nfoo \"bar\"\n".toList
        [trace "PASSWORD=\"x://a:b\"@h\nfoo \"bar\"\n".toList] := by
  refine ⟨by decide +kernel, by decide +kernel, fun h => ?_, fun h => ?_⟩
  · exact absurd (h (show 10 ∈ _ by decide +kernel)) (by decide +kernel)
  · exact absurd (h (show 22 ∈ _ by decide +kernel)) (by decide +kernel)

end LogRedactor

end DatabasesEverywhere.Utils
