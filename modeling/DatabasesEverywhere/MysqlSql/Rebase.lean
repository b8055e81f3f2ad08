import DatabasesEverywhere.MysqlSql.Copies

/-!
# MysqlSql/Rebase — only source qualifiers change

A rewritten dump is the dump cut into lexical units, with the target in the place of some of them.
`Segmented` says which: a replaced unit spells the source, and behind it come separators, a dot,
more separators and the name that the source qualifies.

    dump     FROM  ⎵  source  /* c */  .  t  ⎵  'source.t'
    output   FROM  ⎵  target  /* c */  .  t  ⎵  'source.t'
-/

open Foundations

namespace DatabasesEverywhere.MysqlSql

open Ascii

/-! ## Segments -/

/-- The unit that a token of this kind is if it spells the name. -/
def SourceTokenKind.unit (name : Bytes) : SourceTokenKind → LexicalUnit
  | .unquoted => .word name
  | .quoted => .name (quoteIdentifier name backtick)
  | .doubleQuoted => .string (quoteIdentifier name dquote)

/-- What a token of this kind is replaced by: a bare name is quoted. -/
def SourceTokenKind.replacement (target : Bytes) : SourceTokenKind → Bytes
  | .unquoted | .quoted => quoteIdentifier target backtick
  | .doubleQuoted => quoteIdentifier target dquote

inductive Segment
  | kept (unit : LexicalUnit)
  | replaced (kind : SourceTokenKind)
  deriving DecidableEq

namespace Segment

/-- The bytes of a segment in the dump. -/
def raw (source : Bytes) : Segment → Bytes
  | .kept unit => unit.raw
  | .replaced kind => (kind.unit source).raw

/-- The bytes of a segment in the output. -/
def rendered (target : Bytes) : Segment → Bytes
  | .kept unit => unit.raw
  | .replaced kind => kind.replacement target

def isReplaced : Segment → Bool
  | .kept _ => false
  | .replaced _ => true

end Segment

/-- Whitespace and comments. -/
def LexicalUnit.isSeparator : LexicalUnit → Bool
  | .code [byte] => isAsciiWhitespace byte
  | .comment _ => true
  | _ => false

/-- The separators at the front of a text. -/
inductive Gap (mode : Mode) : Bytes → List LexicalUnit → Bytes → Prop
  | done (input : Bytes) : Gap mode input [] input
  | unit {input behind rest : Bytes} {unit : LexicalUnit} {units : List LexicalUnit}
      (hunit : nextUnit mode input = some (unit, mode, behind)) (hgap : unit.isSeparator = true)
      (h : Gap mode behind units rest) : Gap mode input (unit :: units) rest

/-- The name behind the dot of a qualifier; here `"…"` quotes a name. -/
inductive QualifiedName : Bytes → LexicalUnit → Bytes → Prop
  | delimited {quote : UInt8} {input raw rest : Bytes}
      (hquote : quote = backtick ∨ quote = dquote)
      (h : delimitedText quote input = some (raw, rest)) :
      QualifiedName (quote :: input) (.name (quote :: raw)) rest
  | star (rest : Bytes) : QualifiedName (star :: rest) (.code [star]) rest
  | word {byte : UInt8} {input : Bytes} (h : isUnquotedIdentifierByte byte = true) :
      QualifiedName (byte :: input) (.word (wordText (byte :: input)).1) (wordText (byte :: input)).2

/-- Cutting a text into segments: unit by unit, with a qualifier cut in one go. -/
inductive Segmented (source : Bytes) : Mode → Bytes → List Segment → Mode → Bytes → Prop
  | done (mode : Mode) (input : Bytes) : Segmented source mode input [] mode input
  | kept {mode mode' mode'' : Mode} {input behind rest : Bytes} {unit : LexicalUnit}
      {segments : List Segment} (hunit : nextUnit mode input = some (unit, mode', behind))
      (h : Segmented source mode' behind segments mode'' rest) :
      Segmented source mode input (.kept unit :: segments) mode'' rest
  | replaced {mode mode' mode'' : Mode} {input behind₁ behind₂ behind₃ behind₄ rest : Bytes}
      {kind : SourceTokenKind} {before after : List LexicalUnit} {name : LexicalUnit}
      {segments : List Segment}
      (hsource : nextUnit mode input = some (kind.unit source, mode', behind₁))
      (hbefore : Gap mode' behind₁ before (dot :: behind₂))
      (hafter : Gap mode' behind₂ after behind₃) (hname : QualifiedName behind₃ name behind₄)
      (h : Segmented source mode' behind₄ segments mode'' rest) :
      Segmented source mode input
        (.replaced kind :: (before ++ .code [dot] :: (after ++ [name])).map .kept ++ segments)
        mode'' rest

section Segments

variable {source : Bytes} {mode mode' mode'' : Mode} {input middle rest : Bytes}

variable {segments : List Segment}

theorem Segmented.trans {segments' : List Segment}
    (h : Segmented source mode input segments mode' middle)
    (h' : Segmented source mode' middle segments' mode'' rest) :
    Segmented source mode input (segments ++ segments') mode'' rest := by
  induction h with
  | done => exact h'
  | kept hunit _ ih => exact .kept hunit (ih h')
  | replaced hsource hbefore hafter hname _ ih =>
    rw [List.cons_append, List.cons_append, List.append_assoc, ← List.cons_append]
    exact .replaced hsource hbefore hafter hname (ih h')

variable {units : List LexicalUnit}

theorem Gap.append (h : Gap mode input units rest) :
    input = units.flatMap LexicalUnit.raw ++ rest := by
  induction h with
  | done => rfl
  | unit hunit _ _ ih => rw [nextUnit_append hunit, List.flatMap_cons, List.append_assoc, ← ih]

theorem Gap.segmented (h : Gap mode input units rest) :
    Segmented source mode input (units.map .kept) mode rest := by
  induction h with
  | done => exact .done _ _
  | unit hunit _ _ ih => exact .kept hunit ih

theorem QualifiedName.append {name : LexicalUnit} (h : QualifiedName input name rest) :
    input = name.raw ++ rest := by
  cases h with
  | delimited _ h => exact congrArg (_ :: ·) (delimitedText_append h)
  | star => rfl
  | word => exact wordText_append _

variable (units)

theorem flatMap_raw_kept :
    (units.map Segment.kept).flatMap (Segment.raw source) = units.flatMap LexicalUnit.raw := by
  rw [List.flatMap_map]
  rfl

theorem flatMap_rendered_kept {target : Bytes} :
    (units.map Segment.kept).flatMap (Segment.rendered target) =
      units.flatMap LexicalUnit.raw := by
  rw [List.flatMap_map]
  rfl

theorem countP_kept : (units.map Segment.kept).countP Segment.isReplaced = 0 := by
  rw [List.countP_map, List.countP_eq_zero]
  simp [Segment.isReplaced]

variable (h : Segmented source mode input segments mode' rest)
include h

/-- **The segments are what the text consists of.** -/
theorem Segmented.append : input = segments.flatMap (Segment.raw source) ++ rest := by
  induction h with
  | done => rfl
  | kept hunit _ ih =>
    rw [nextUnit_append hunit, List.flatMap_cons, List.append_assoc, ← ih]
    rfl
  | replaced hsource hbefore hafter hname _ ih =>
    rw [List.flatMap_append, List.flatMap_cons, flatMap_raw_kept, nextUnit_append hsource,
      hbefore.append, hafter.append, hname.append, ih]
    simp [Segment.raw, LexicalUnit.raw]

/-- Segments are not empty. -/
theorem Segmented.raw_ne_nil (hne : segments ≠ []) :
    segments.flatMap (Segment.raw source) ≠ [] := by
  cases h with
  | done => exact absurd rfl hne
  | kept hunit =>
    exact List.append_ne_nil_of_left_ne_nil (nextUnit_raw_ne_nil hunit) _
  | replaced hsource =>
    exact List.append_ne_nil_of_left_ne_nil (nextUnit_raw_ne_nil hsource) _

end Segments

/-! ## A rewrite in progress -/

/-- From one scan to a later one, some of the text has been cut into segments and rendered. -/
def Rebased (source target : Bytes) (mode : Mode) (scan : Scan) (mode' : Mode) (scan' : Scan)
    (replaced : ℕ) : Prop :=
  ∃ segments, segments ≠ [] ∧ Segmented source mode scan.input segments mode' scan'.input ∧
    scan'.output.bytes = scan.output.bytes ++ segments.flatMap (Segment.rendered target) ∧
    replaced = segments.countP Segment.isReplaced

section Rebased

variable {source target : Bytes} {mode mode' mode'' : Mode} {scan scan' scan'' : Scan}

variable {replaced : ℕ}

theorem Rebased.trans {replaced' : ℕ} (h : Rebased source target mode scan mode' scan' replaced)
    (h' : Rebased source target mode' scan' mode'' scan'' replaced') :
    Rebased source target mode scan mode'' scan'' (replaced + replaced') := by
  obtain ⟨segments, hne, hsegments, houtput, rfl⟩ := h
  obtain ⟨segments', -, hsegments', houtput', rfl⟩ := h'
  refine ⟨segments ++ segments', by simp [hne], hsegments.trans hsegments', ?_,
    (List.countP_append ..).symm⟩
  rw [houtput', houtput, List.flatMap_append, List.append_assoc]

/-- One unit has been copied. -/
theorem Rebased.unit (unit : LexicalUnit)
    (hunit : nextUnit mode scan.input = some (unit, mode', scan'.input))
    (houtput : scan'.output.bytes = scan.output.bytes ++ unit.raw) :
    Rebased source target mode scan mode' scan' 0 :=
  ⟨[.kept unit], List.cons_ne_nil _ _, .kept hunit (.done _ _),
    by simpa [Segment.rendered] using houtput, rfl⟩

/-- A rewrite that moves on takes something off its input. -/
theorem Rebased.length_lt (h : Rebased source target mode scan mode' scan' replaced) :
    scan'.input.length < scan.input.length := by
  obtain ⟨segments, hne, hsegments, -, -⟩ := h
  have hpos := List.length_pos_iff.mpr (hsegments.raw_ne_nil hne)
  rw [hsegments.append, List.length_append]
  omega

end Rebased

/-! ## Qualifiers -/

/-- The mode behind a token. -/
def settledMode (executable : Bool) : Mode := if executable then .executable false else .text

@[simp] theorem settledMode_settled (executable : Bool) :
    (settledMode executable).settled = settledMode executable := by
  cases executable <;> rfl

variable {rest : Bytes} {byte : UInt8}

/-- The bytes that `nextUnit` takes one by one. -/
theorem nextUnit_code {mode : Mode} (hquote : byte ≠ quote)
    (hdquote : byte ≠ dquote) (hbacktick : byte ≠ backtick)
    (hword : ¬ isUnquotedIdentifierByte byte = true) (hhash : byte ≠ hash)
    (hdash : ¬ (byte = dash ∧ rest.head? = some dash))
    (hslash : ¬ (byte = slash ∧ rest.head? = some star))
    (hstar : ¬ (byte = star ∧ rest.head? = some slash)) :
    nextUnit mode (byte :: rest) = some (.code [byte],
      if !isAsciiWhitespace byte && byte != star then mode.settled else mode, rest) := by
  rw [nextUnit, if_neg (by simp [hquote, hdquote]), if_neg hbacktick, if_neg hword, if_neg hhash,
    if_neg hdash, if_neg hslash, if_neg hstar]

/-- Whitespace is not special. -/
theorem not_special_of_whitespace (h : isAsciiWhitespace byte = true) :
    byte ≠ quote ∧ byte ≠ dquote ∧ byte ≠ backtick ∧
      ¬ isUnquotedIdentifierByte byte = true ∧ byte ≠ hash ∧ byte ≠ dash ∧
      byte ≠ slash ∧ byte ≠ star := by
  revert h
  exact @forall_byte (fun byte => isAsciiWhitespace byte = true → byte ≠ quote ∧
    byte ≠ dquote ∧ byte ≠ backtick ∧ ¬ isUnquotedIdentifierByte byte = true ∧
    byte ≠ hash ∧ byte ≠ dash ∧ byte ≠ slash ∧ byte ≠ star)
    (by decide +kernel) byte

theorem nextUnit_whitespace {mode : Mode} (h : isAsciiWhitespace byte = true) :
    nextUnit mode (byte :: rest) = some (.code [byte], mode, rest) := by
  obtain ⟨hquote, hdquote, hbacktick, hword, hhash, hdash, hslash, hstar⟩ :=
    not_special_of_whitespace h
  rw [nextUnit_code hquote hdquote hbacktick hword hhash (fun h => hdash h.1)
    (fun h => hslash h.1) (fun h => hstar h.1), h]
  rfl

theorem nextUnit_dot {mode : Mode} :
    nextUnit mode (dot :: rest) = some (.code [dot], mode.settled, rest) := by
  rw [nextUnit_code (by decide) (by decide) (by decide) (by decide) (by decide)
    (fun h => absurd h.1 (by decide)) (fun h => absurd h.1 (by decide))
    (fun h => absurd h.1 (by decide))]
  rfl

theorem nextUnit_hash {mode : Mode} :
    nextUnit mode (hash :: rest) =
      some (.comment (hash :: (lineText rest).1), mode.settled, (lineText rest).2) := by
  rw [nextUnit, if_neg (by decide), if_neg (by decide), if_neg (by decide), if_pos rfl]

theorem nextUnit_dashes {mode : Mode} (h : opensLineComment rest = true) :
    nextUnit mode (dash :: dash :: rest) =
      some (.comment (dash :: dash :: (lineText rest).1), mode.settled,
        (lineText rest).2) := by
  rw [nextUnit, if_neg (by decide), if_neg (by decide), if_neg (by decide), if_neg (by decide),
    if_pos ⟨rfl, rfl⟩, List.tail_cons, if_pos h]

theorem nextUnit_block {raw behind : Bytes} (hmark : executableMark rest = none)
    (h : blockText rest = some (raw, behind)) :
    nextUnit .text (slash :: star :: rest) =
      some (.comment (slash :: star :: raw), .text, behind) := by
  rw [nextUnit, if_neg (by decide), if_neg (by decide), if_neg (by decide), if_neg (by decide),
    if_neg (fun h => absurd h.1 (by decide)), if_pos ⟨rfl, rfl⟩, List.tail_cons, hmark, h]
  rfl

variable {executable : Bool}

/-- What one turn of the loop over separators has done: put one behind the gap, or ended. -/
def GapOutcome (executable : Bool) (state : Bytes × Bytes) :
    (Bytes × Bytes) ⊕ (Bytes × Bytes) → Prop
  | .inl (gap, rest) => ∃ unit, nextUnit (settledMode executable) state.2 =
      some (unit, settledMode executable, rest) ∧ unit.isSeparator = true ∧
      gap = state.1 ++ unit.raw
  | .inr result => result = state

/-- **One separator** is a unit, and is put behind the gap. -/
theorem gapStep_ok {state : Bytes × Bytes} {result : (Bytes × Bytes) ⊕ (Bytes × Bytes)}
    (h : gapStep executable state = .ok result) : GapOutcome executable state result := by
  obtain ⟨gap, input⟩ := state
  cases input with
  | nil =>
    cases h
    rfl
  | cons byte input =>
    rw [gapStep] at h
    split at h
    next hspace =>
      obtain ⟨pushed, hpushed, h⟩ := bind_eq_ok.mp h
      cases h
      exact ⟨.code [byte], nextUnit_whitespace hspace, hspace, pushGapByte_ok hpushed⟩
    split at h
    next hhash =>
      obtain rfl := hhash
      obtain ⟨pushed, hpushed, h⟩ := bind_eq_ok.mp h
      obtain ⟨⟨read, behind⟩, hread, h⟩ := bind_eq_ok.mp h
      cases h
      obtain rfl := pushGapByte_ok hpushed
      obtain ⟨rfl, rfl⟩ := readGapLineComment_ok hread
      refine ⟨_, nextUnit_hash.trans (by rw [settledMode_settled]), rfl, ?_⟩
      rw [List.append_assoc]
      rfl
    split at h
    next hdashes =>
      obtain ⟨rfl, hdash, hopens⟩ := hdashes
      obtain ⟨pushed, hpushed, h⟩ := bind_eq_ok.mp h
      obtain ⟨pushed', hpushed', h⟩ := bind_eq_ok.mp h
      obtain ⟨⟨read, behind⟩, hread, h⟩ := bind_eq_ok.mp h
      cases h
      obtain rfl := pushGapByte_ok hpushed
      obtain rfl := pushGapByte_ok hpushed'
      obtain ⟨rfl, rfl⟩ := readGapLineComment_ok hread
      rw [cons_of_head? hdash]
      refine ⟨_, (nextUnit_dashes hopens).trans (by rw [settledMode_settled]; rfl), rfl, ?_⟩
      simp [LexicalUnit.raw]
    split at h
    swap
    · cases h
      rfl
    rename_i hblock
    obtain ⟨rfl, hstar⟩ := hblock
    split at h
    · cases h
    rename_i hexecutable
    obtain rfl := Bool.eq_false_iff.mpr hexecutable
    split at h
    · cases h
    rename_i hmark
    obtain ⟨pushed, hpushed, h⟩ := bind_eq_ok.mp h
    obtain ⟨pushed', hpushed', h⟩ := bind_eq_ok.mp h
    obtain ⟨⟨read, behind⟩, hread, h⟩ := bind_eq_ok.mp h
    cases h
    obtain rfl := pushGapByte_ok hpushed
    obtain rfl := pushGapByte_ok hpushed'
    obtain ⟨raw, hraw, rfl⟩ := readGapBlockComment_ok hread
    rw [cons_of_head? hstar]
    refine ⟨_, nextUnit_block (Option.not_isSome_iff_eq_none.mp hmark) hraw, rfl, ?_⟩
    simp [LexicalUnit.raw]

variable {input : Bytes}

/-- **The gap is the separators that have been read.** -/
theorem readQualifierGap_ok {gap : Bytes}
    (h : readQualifierGap executable input = .ok (gap, rest)) :
    ∃ units, Gap (settledMode executable) input units rest ∧
      gap = units.flatMap LexicalUnit.raw := by
  suffices ∃ units, Gap (settledMode executable) input units rest ∧
      gap = [] ++ units.flatMap LexicalUnit.raw by simpa using this
  refine iterate_rec (motive := fun state result => ∃ units,
    Gap (settledMode executable) state.2 units result.2 ∧
      result.1 = state.1 ++ units.flatMap LexicalUnit.raw) ?_ ?_ h
  · intro state result hlast
    obtain rfl := gapStep_ok hlast
    exact ⟨[], .done _, (List.append_nil _).symm⟩
  · rintro ⟨gap, input⟩ ⟨gap', input'⟩ result hstep ⟨units, hunits, hresult⟩
    obtain ⟨unit, hunit, hseparator, rfl⟩ := gapStep_ok hstep
    refine ⟨unit :: units, .unit hunit hseparator hunits, ?_⟩
    rw [hresult, List.flatMap_cons, List.append_assoc]

variable {second : QualifiedIdentifier}

theorem readQualifiedIdentifier_ok
    (h : readQualifiedIdentifier executable input = .ok (some second, rest)) :
    ∃ name, QualifiedName input name rest ∧ second.raw = name.raw := by
  cases input with
  | nil => cases h
  | cons byte input =>
    rw [readQualifiedIdentifier] at h
    split at h
    next hquote =>
      obtain ⟨raw, hraw, h⟩ := bind_eq_ok.mp h
      obtain ⟨⟨name, behind⟩, hname, h⟩ := bind_eq_ok.mp h
      cases h
      obtain rfl := pushTokenByte_ok hraw
      obtain ⟨decoded, htext, hbytes, -⟩ := readDelimitedIdentifier_ok hname
      exact ⟨_, .delimited hquote htext, hbytes⟩
    split at h
    next hstar =>
      obtain rfl := hstar
      cases h
      exact ⟨_, .star _, rfl⟩
    split at h
    next hword =>
      obtain ⟨⟨raw, behind⟩, hraw, h⟩ := bind_eq_ok.mp h
      cases h
      obtain ⟨rfl, rfl⟩ := readUnquotedIdentifier_ok hraw
      exact ⟨_, .word hword, rfl⟩
    · cases h

variable {source : Bytes} {third : Option Bytes}

/-- What follows the name of a qualifier is copied: separators, and a second dot with more. -/
theorem readThirdSeparator_ok (h : readThirdSeparator executable second input = .ok (third, rest)) :
    ∃ units : List LexicalUnit, Segmented source (settledMode executable) input
        (units.map .kept) (settledMode executable) rest ∧
      (third.elim [] fun gap => dot :: gap) = units.flatMap LexicalUnit.raw := by
  rw [readThirdSeparator] at h
  split at h
  swap
  · cases h
    exact ⟨[], .done _ _, rfl⟩
  rename_i hdot
  split at h
  · cases h
  obtain ⟨⟨gap, behind⟩, hgap, h⟩ := bind_eq_ok.mp h
  dsimp only at h
  split at h
  · cases h
    obtain ⟨units, hunits, rfl⟩ := readQualifierGap_ok hgap
    refine ⟨.code [dot] :: units, ?_, rfl⟩
    rw [cons_of_head? hdot]
    refine .kept nextUnit_dot ?_
    rw [settledMode_settled]
    exact hunits.segmented
  · cases h

theorem writeThirdSeparator_ok {output output' : BoundedOutput}
    (h : writeThirdSeparator output third = .ok output') :
    output'.bytes = output.bytes ++ third.elim [] fun gap => dot :: gap := by
  cases third with
  | none =>
    cases h
    exact (List.append_nil _).symm
  | some gap =>
    obtain ⟨dotted, hdotted, h⟩ := bind_eq_ok.mp h
    rw [writeBytes_ok h, writeByte_ok hdotted, List.append_assoc]
    rfl

/-- **A token that spells the source** is copied with the separators behind it, or replaced. -/
theorem handleSourceQualifier_ok {source target : Bytes} {kind : SourceTokenKind}
    {executable : Bool} {mode : Mode} {input : Bytes} {scan scan' : Scan} {replaced : ℕ}
    (hsource : nextUnit mode input = some (kind.unit source, settledMode executable, scan.input))
    (h : handleSourceQualifier (kind.unit source).raw (kind.replacement target) kind executable
      scan = .ok (replaced, scan')) :
    Rebased source target mode { scan with input } (settledMode executable) scan' replaced := by
  obtain ⟨⟨beforeDot, rest⟩, hread, h⟩ := bind_eq_ok.mp h
  obtain ⟨before, hbefore, rfl⟩ := readQualifierGap_ok hread
  dsimp only at h
  split at h
  · obtain ⟨written, hwritten, h⟩ := bind_eq_ok.mp h
    obtain ⟨written', hwritten', h⟩ := bind_eq_ok.mp h
    cases h
    refine ⟨.kept (kind.unit source) :: before.map .kept, List.cons_ne_nil _ _,
      .kept hsource hbefore.segmented, ?_, ?_⟩
    · rw [List.flatMap_cons, flatMap_rendered_kept, writeBytes_ok hwritten',
        writeBytes_ok hwritten, List.append_assoc]
      rfl
    · rw [List.countP_cons, countP_kept]
      rfl
  rename_i hdot
  rw [cons_of_head? (not_not.mp hdot)] at hbefore
  obtain ⟨⟨afterDot, rest₂⟩, hread', h⟩ := bind_eq_ok.mp h
  obtain ⟨after, hafter, rfl⟩ := readQualifierGap_ok hread'
  obtain ⟨⟨second, rest₃⟩, hsecond, h⟩ := bind_eq_ok.mp h
  cases second with
  | none => cases h
  | some second =>
    obtain ⟨name, hname, hraw⟩ := readQualifiedIdentifier_ok hsecond
    obtain ⟨⟨afterSecond, rest₄⟩, hread'', h⟩ := bind_eq_ok.mp h
    obtain ⟨gap, hgap, rfl⟩ := readQualifierGap_ok hread''
    obtain ⟨⟨third, rest₅⟩, hthird, h⟩ := bind_eq_ok.mp h
    obtain ⟨tail, htail, hthird⟩ := @readThirdSeparator_ok _ _ _ _ source _ hthird
    split at h
    · cases h
    obtain ⟨written₁, hwritten₁, h⟩ := bind_eq_ok.mp h
    obtain ⟨written₂, hwritten₂, h⟩ := bind_eq_ok.mp h
    obtain ⟨written₃, hwritten₃, h⟩ := bind_eq_ok.mp h
    obtain ⟨written₄, hwritten₄, h⟩ := bind_eq_ok.mp h
    obtain ⟨written₅, hwritten₅, h⟩ := bind_eq_ok.mp h
    obtain ⟨written₆, hwritten₆, h⟩ := bind_eq_ok.mp h
    obtain ⟨written₇, hwritten₇, h⟩ := bind_eq_ok.mp h
    cases h
    refine ⟨_, List.append_ne_nil_of_left_ne_nil (List.cons_ne_nil _ _) _,
      .replaced hsource hbefore hafter hname (hgap.segmented.trans htail), ?_, ?_⟩
    · rw [writeThirdSeparator_ok hwritten₇, hthird, writeBytes_ok hwritten₆, writeBytes_ok hwritten₅, writeBytes_ok hwritten₄,
        writeByte_ok hwritten₃, writeBytes_ok hwritten₂, writeBytes_ok hwritten₁, hraw]
      simp [flatMap_rendered_kept, Segment.rendered, LexicalUnit.raw]
    · rw [List.countP_append, List.countP_append, countP_kept, countP_kept, List.countP_cons,
        countP_kept]
      rfl

/-! ## Tokens -/

section Tokens

variable {source target : Bytes} {executable : Bool} {mode : Mode} {scan scan' : Scan}
  {replaced : ℕ}

variable {byte : UInt8}

theorem nextUnit_word (h : isUnquotedIdentifierByte byte = true) :
    nextUnit mode (byte :: rest) =
      some (wordUnit mode (byte :: (wordText rest).1), mode.settled, (wordText rest).2) := by
  have hspecial : byte ≠ quote ∧ byte ≠ dquote ∧ byte ≠ backtick := by
    revert h
    exact @forall_byte (fun byte => isUnquotedIdentifierByte byte = true →
      byte ≠ quote ∧ byte ≠ dquote ∧ byte ≠ backtick) (by decide +kernel) byte
  rw [nextUnit, if_neg (by simp [hspecial.1, hspecial.2.1]), if_neg hspecial.2.2, if_pos h]

theorem handleUnquotedToken_ok (hbyte : isUnquotedIdentifierByte byte = true)
    (hmode : mode.settled = settledMode executable) {pending : Bool}
    (hpending : mode.versionPending = true → pending = true)
    (h : handleUnquotedToken (rewriteIdentifiers source target) executable pending byte scan =
      .ok (replaced, scan')) :
    Rebased source target mode { scan with input := byte :: scan.input } (settledMode executable)
      scan' replaced := by
  obtain ⟨run, htoken, hword, hstop⟩ := readUnquotedToken_spec [byte] scan.input
  have hunit := @nextUnit_word scan.input mode byte hbyte
  rw [hmode] at hunit
  simp only [handleUnquotedToken] at h
  rw [htoken] at h
  split at h
  · obtain ⟨written, hwritten, h⟩ := bind_eq_ok.mp h
    obtain ⟨⟨written', rest⟩, hcopy, h⟩ := bind_eq_ok.mp h
    cases h
    obtain ⟨rfl, hbytes⟩ := copyUnquotedTokenRemainder_ok hcopy
    refine .unit _ (hunit.trans (by rw [hword])) ?_
    rw [wordUnit_raw, hbytes, writeBytes_ok hwritten]
    simp
  rename_i hoverlong
  rw [hword, hstop (Bool.eq_false_iff.mpr hoverlong), List.append_nil] at hunit
  split at h
  · obtain ⟨written, hwritten, h⟩ := bind_eq_ok.mp h
    cases h
    exact .unit _ hunit (by rw [wordUnit_raw, writeBytes_ok hwritten]; rfl)
  rename_i hversion
  split at h
  swap
  · obtain ⟨written, hwritten, h⟩ := bind_eq_ok.mp h
    cases h
    exact .unit _ hunit (by rw [wordUnit_raw, writeBytes_ok hwritten]; rfl)
  rename_i hsource
  have hplain : wordUnit mode (byte :: run) = SourceTokenKind.unquoted.unit source := by
    rw [wordUnit, if_neg]
    · exact congrArg LexicalUnit.word hsource
    · intro hdigits
      rw [Bool.and_eq_true] at hdigits
      exact hversion (by rw [hpending hdigits.1]; exact hdigits.2)
  rw [hplain] at hunit
  rw [hsource] at h
  exact @handleSourceQualifier_ok source target .unquoted _ _ _
    { scan with input := (readUnquotedToken [byte] scan.input).2.2 } _ _ hunit h

theorem handleBacktickToken_ok (hmode : mode.settled = settledMode executable)
    (h : handleBacktickToken (rewriteIdentifiers source target) executable scan =
      .ok (replaced, scan')) :
    Rebased source target mode { scan with input := backtick :: scan.input }
      (settledMode executable) scan' replaced := by
  obtain ⟨raw, hraw, h⟩ := bind_eq_ok.mp h
  obtain rfl := pushTokenByte_ok hraw
  obtain ⟨⟨name, rest⟩, hname, h⟩ := bind_eq_ok.mp h
  obtain ⟨decoded, htext, hbytes, hdecoded⟩ := readDelimitedIdentifier_ok hname
  have hunit : nextUnit mode (backtick :: scan.input) =
      some (.name name.raw, settledMode executable, rest) := by
    rw [nextUnit, if_neg (by decide), if_pos rfl, htext, hbytes, hmode]
    rfl
  dsimp only at h
  split at h
  next hsource =>
    obtain rfl : decoded = source := hdecoded.symm.trans hsource
    have hquoted : LexicalUnit.name name.raw = SourceTokenKind.quoted.unit decoded := by
      rw [hbytes]
      rfl
    rw [hquoted] at hunit
    refine @handleSourceQualifier_ok decoded target .quoted _ _ _ { scan with input := rest } _ _
      hunit ?_
    rw [← hquoted]
    exact h
  · obtain ⟨written, hwritten, h⟩ := bind_eq_ok.mp h
    cases h
    exact .unit _ hunit (writeBytes_ok hwritten)

/-- What the rest of a double-quoted token becomes: a string, or the name of the source. -/
def DoubleQuoted (source target : Bytes) (executable : Bool) (output : BoundedOutput)
    (context : SqlContext) (raw decoded input : Bytes) (replaced : ℕ) (scan' : Scan) : Prop :=
  (replaced = 0 ∧ ∃ text, quotedText dquote input = some (text, scan'.input) ∧
    scan'.output.bytes = output.bytes ++ (raw ++ text)) ∨
  ∃ text rest, quotedText dquote input =
      some (doubled dquote text ++ [dquote], rest) ∧
    decoded ++ text = source ∧
    handleSourceQualifier (raw ++ (doubled dquote text ++ [dquote]))
      (quoteIdentifier target dquote) .doubleQuoted executable
      { input := rest, output, context } = .ok (replaced, scan')

variable {output : BoundedOutput} {context : SqlContext} {raw decoded : Bytes}

variable {input : Bytes}

/-- A byte of the name has been read. -/
theorem DoubleQuoted.cons (hsplit : quotedText dquote input =
      after (doubled dquote [byte]) (quotedText dquote rest))
    (h : DoubleQuoted source target executable output context
      (raw ++ doubled dquote [byte]) (decoded ++ [byte]) rest replaced scan') :
    DoubleQuoted source target executable output context raw decoded input replaced scan' := by
  rcases h with ⟨hzero, text, htext, hbytes⟩ | ⟨text, behind, htext, hsource, h⟩
  · refine .inl ⟨hzero, doubled dquote [byte] ++ text, ?_, ?_⟩
    · rw [hsplit, htext]
      rfl
    · rw [hbytes, List.append_assoc]
  · refine .inr ⟨byte :: text, behind, ?_, ?_, ?_⟩
    · rw [hsplit, htext, doubled_cons]
      simp [after, doubled]
    · rw [← hsource, List.append_assoc]
      rfl
    · rw [doubled_cons]
      simpa [doubled] using h

/-- The token goes on as a string. -/
theorem leaveDoubleQuoted_ok {read : Bytes}
    (hsplit : quotedText dquote input = after read (quotedText dquote rest))
    (h : leaveDoubleQuoted executable (raw ++ read) { input := rest, output, context } =
      .ok (replaced, scan')) :
    DoubleQuoted source target executable output context raw decoded input replaced scan' := by
  obtain ⟨written, hwritten, h⟩ := bind_eq_ok.mp h
  obtain ⟨⟨written', behind⟩, hcopy, h⟩ := bind_eq_ok.mp h
  cases h
  obtain ⟨text, htext, hbytes⟩ := copyQuotedString_ok hcopy
  refine .inl ⟨rfl, read ++ text, ?_, ?_⟩
  · rw [hsplit]
    exact after_eq_some.mpr ⟨text, htext, rfl⟩
  · rw [hbytes, writeBytes_ok hwritten]
    simp

theorem closeDoubleQuoted_ok (hclosed : quotedText dquote input = some ([dquote], rest))
    (h : handleDoubleQuotedToken.closeDoubleQuoted (rewriteIdentifiers source target) executable
      output context (raw ++ [dquote]) decoded rest = .ok (replaced, scan')) :
    DoubleQuoted source target executable output context raw decoded input replaced scan' := by
  rw [handleDoubleQuotedToken.closeDoubleQuoted] at h
  split at h
  next hsource =>
    exact .inr ⟨[], rest, hclosed, (List.append_nil _).trans hsource, h⟩
  · obtain ⟨written, hwritten, h⟩ := bind_eq_ok.mp h
    cases h
    exact .inl ⟨rfl, _, hclosed, writeBytes_ok hwritten⟩

theorem handleDoubleQuotedToken_text : ∀ {input raw decoded : Bytes},
    handleDoubleQuotedToken (rewriteIdentifiers source target) executable output context raw
      decoded input = .ok (replaced, scan') →
    DoubleQuoted source target executable output context raw decoded input replaced scan'
  | [], _, _, hok => by cases hok
  | byte :: input, raw, decoded, hok => by
    rw [handleDoubleQuotedToken.eq_def] at hok
    dsimp only at hok
    split at hok
    · cases hok
    obtain ⟨raw', hraw, h⟩ := bind_eq_ok.mp hok
    obtain rfl := pushTokenByte_ok hraw
    split at h
    next hescape =>
      obtain rfl := hescape
      split at h
      · cases h
      cases input with
      | nil => cases h
      | cons escaped rest =>
        obtain ⟨raw', hraw', h⟩ := bind_eq_ok.mp h
        obtain rfl := pushTokenByte_ok hraw'
        rw [List.append_assoc] at h
        exact leaveDoubleQuoted_ok (by rw [quotedText, if_pos rfl]; rfl) h
    rename_i hescape
    split at h
    next hquote =>
      obtain rfl := hquote
      cases input with
      | nil => exact closeDoubleQuoted_ok (by decide) h
      | cons next rest =>
        dsimp only at h
        split at h
        next hnext =>
          obtain rfl := hnext
          have hsplit : quotedText dquote (dquote :: dquote :: rest) =
              after (doubled dquote [dquote]) (quotedText dquote rest) := by
            rw [quotedText, if_neg (by decide), if_pos rfl, if_pos rfl]
            rfl
          obtain ⟨raw', hraw', h⟩ := bind_eq_ok.mp h
          obtain ⟨decoded', hdecoded, h⟩ := bind_eq_ok.mp h
          rw [pushTokenByte_ok hraw', pushTokenByte_ok hdecoded, List.append_assoc] at h
          split at h
          · exact .cons hsplit (handleDoubleQuotedToken_text h)
          · exact leaveDoubleQuoted_ok hsplit h
        next hnext =>
          refine closeDoubleQuoted_ok ?_ h
          rw [quotedText, if_neg (by decide), if_pos rfl, if_neg hnext]
    rename_i hquote
    have hdoubled : doubled dquote [byte] = [byte] := by simp [doubled, hquote]
    have hsplit : quotedText dquote (byte :: input) =
        after (doubled dquote [byte]) (quotedText dquote input) := by
      rw [hdoubled]
      cases input with
      | nil => simp [quotedText, after, hquote]
      | cons next rest => rw [quotedText, if_neg hescape, if_neg hquote]
    obtain ⟨decoded', hdecoded, h⟩ := bind_eq_ok.mp h
    rw [pushTokenByte_ok hdecoded] at h
    split at h
    · exact .cons hsplit (by rw [hdoubled]; exact handleDoubleQuotedToken_text h)
    · exact leaveDoubleQuoted_ok hsplit (by rw [hdoubled]; exact h)

end Tokens

section Handlers

variable {source target : Bytes} {executable : Bool} {mode : Mode} {scan scan' : Scan}
  {replaced : ℕ} (hmode : mode.settled = settledMode executable)

include hmode

theorem handleDoubleQuotedToken_ok
    (h : handleDoubleQuotedToken (rewriteIdentifiers source target) executable scan.output
      scan.context [dquote] [] scan.input = .ok (replaced, scan')) :
    Rebased source target mode { scan with input := dquote :: scan.input }
      (settledMode executable) scan' replaced := by
  have hunit : ∀ {text rest : Bytes}, quotedText dquote scan.input = some (text, rest) →
      nextUnit mode (dquote :: scan.input) =
        some (.string (dquote :: text), settledMode executable, rest) := by
    intro text rest htext
    rw [nextUnit, if_pos (.inr rfl), htext, hmode]
    rfl
  rcases handleDoubleQuotedToken_text h with
    ⟨rfl, text, htext, hbytes⟩ | ⟨text, rest, htext, rfl, hqualifier⟩
  · exact .unit _ (hunit htext) hbytes
  · exact @handleSourceQualifier_ok text target .doubleQuoted _ _ _ { scan with input := rest } _ _
      (hunit htext) hqualifier

/-! ## Text that is copied -/

theorem handleString_ok
    (h : handleString executable scan = .ok (replaced, scan')) :
    Rebased source target mode { scan with input := quote :: scan.input }
      (settledMode executable) scan' replaced := by
  obtain ⟨written, hwritten, h⟩ := bind_eq_ok.mp h
  obtain ⟨⟨written', rest⟩, hcopy, h⟩ := bind_eq_ok.mp h
  cases h
  obtain ⟨raw, hraw, hbytes⟩ := copyQuotedString_ok hcopy
  refine .unit (.string (quote :: raw)) ?_ ?_
  · rw [nextUnit, if_pos (.inl rfl), hraw, hmode]
    rfl
  · rw [hbytes, writeByte_ok hwritten, List.append_assoc]
    rfl

theorem handleHash_ok
    (h : handleHash executable scan = .ok (replaced, scan')) :
    Rebased source target mode { scan with input := hash :: scan.input }
      (settledMode executable) scan' replaced := by
  obtain ⟨written, hwritten, h⟩ := bind_eq_ok.mp h
  obtain ⟨⟨written', rest⟩, hcopy, h⟩ := bind_eq_ok.mp h
  cases h
  obtain ⟨rfl, hbytes⟩ := copyLineComment_ok hcopy
  refine .unit _ (nextUnit_hash.trans (by rw [hmode])) ?_
  rw [hbytes, writeByte_ok hwritten, List.append_assoc]
  rfl

theorem handleDash_ok
    (h : handleDash executable scan = .ok (replaced, scan')) :
    Rebased source target mode { scan with input := dash :: scan.input }
      (settledMode executable) scan' replaced := by
  obtain ⟨written, hwritten, h⟩ := bind_eq_ok.mp h
  split at h
  swap
  next hdash =>
    cases h
    refine .unit (.code [dash]) ?_ (writeByte_ok hwritten)
    rw [nextUnit_code (by decide) (by decide) (by decide) (by decide) (by decide)
      (fun h => hdash h.2) (fun h => absurd h.1 (by decide)) (fun h => absurd h.1 (by decide)),
      if_pos (by decide), hmode]
  rename_i hdash
  rw [cons_of_head? hdash]
  obtain ⟨written', hwritten', h⟩ := bind_eq_ok.mp h
  split at h
  next hopens =>
    obtain ⟨⟨written'', rest⟩, hcopy, h⟩ := bind_eq_ok.mp h
    cases h
    obtain ⟨rfl, hbytes⟩ := copyLineComment_ok hcopy
    refine .unit _ ((nextUnit_dashes hopens).trans (by rw [hmode])) ?_
    rw [hbytes, writeByte_ok hwritten', writeByte_ok hwritten]
    simp [LexicalUnit.raw]
  next hopens =>
    cases h
    refine .unit (.code [dash, dash]) ?_ ?_
    · rw [nextUnit, if_neg (by decide), if_neg (by decide), if_neg (by decide),
        if_neg (by decide), if_pos ⟨rfl, rfl⟩, List.tail_cons, if_neg hopens, hmode]
    · rw [writeByte_ok hwritten', writeByte_ok hwritten]
      simp [LexicalUnit.raw]

/-- A rewrite of the text behind the marker of an executable comment. -/
def RebasesNested (source target : Bytes)
    (nested : Scan → Rewriting (ℕ × Scan)) : Prop :=
  ∀ ⦃scan scan' : Scan⦄ ⦃replaced : ℕ⦄, nested scan = .ok (replaced, scan') →
    Rebased source target (.executable true) scan .text scan' replaced

theorem handleSlash_ok {nested : Scan → Rewriting (ℕ × Scan)}
    (htext : executable = false → mode = .text)
    (hnested : executable = false → RebasesNested source target nested)
    (hok : handleSlash executable nested scan = .ok (replaced, scan')) :
    Rebased source target mode { scan with input := slash :: scan.input }
      (settledMode executable) scan' replaced := by
  obtain ⟨input, output, context⟩ := scan
  obtain ⟨written, hwritten, hbranch⟩ := bind_eq_ok.mp hok
  split at hbranch
  swap
  next hstar =>
    cases hbranch
    refine .unit (.code [slash]) ?_ (writeByte_ok hwritten)
    rw [nextUnit_code (by decide) (by decide) (by decide) (by decide) (by decide)
      (fun h => absurd h.1 (by decide)) (fun h => hstar h.2) (fun h => absurd h.1 (by decide)),
      if_pos (by decide), hmode]
  rename_i hstar
  rw [cons_of_head? hstar]
  obtain ⟨written', hwritten', h⟩ := bind_eq_ok.mp hbranch
  split at h
  · cases h
  rename_i hexecutable
  obtain rfl := Bool.eq_false_iff.mpr hexecutable
  obtain rfl := htext rfl
  rcases hmark : executableMark input.tail with _ | ⟨mark, rest⟩
  · rw [hmark] at h
    obtain ⟨⟨written'', rest⟩, hcopy, h⟩ := bind_eq_ok.mp h
    cases h
    obtain ⟨raw, hraw, hbytes⟩ := copyBlockComment_ok hcopy
    refine .unit _ (nextUnit_block hmark hraw) ?_
    rw [hbytes, writeByte_ok hwritten', writeByte_ok hwritten]
    simp [LexicalUnit.raw]
  · rw [hmark] at h
    obtain ⟨written'', hwritten'', h⟩ := bind_eq_ok.mp h
    -- the marker opens an executable comment, and the nested rewrite ends behind it
    have hopen : Rebased source target .text
        ⟨slash :: star :: input.tail, output, context⟩ (.executable true)
        ⟨rest, written'', context⟩ 0 := by
      refine .unit (.marker (slash :: star :: mark)) ?_ ?_
      · rw [nextUnit, if_neg (by decide), if_neg (by decide), if_neg (by decide),
          if_neg (by decide), if_neg (fun h => absurd h.1 (by decide)), if_pos ⟨rfl, rfl⟩,
          List.tail_cons, hmark]
        rfl
      · rw [writeBytes_ok hwritten'', writeByte_ok hwritten', writeByte_ok hwritten]
        simp [LexicalUnit.raw]
    have hclosed := hopen.trans (hnested rfl h)
    rwa [Nat.zero_add] at hclosed

end Handlers

/-! ## The loop -/

section Loop

variable {source target : Bytes} {executable : Bool}
  {nested : Scan → Rewriting (ℕ × Scan)} {loop : Loop}

def Loop.mode (executable : Bool) (loop : Loop) : Mode :=
  if executable then .executable loop.executableVersionPending else .text

theorem Loop.mode_settled (executable : Bool) (loop : Loop) :
    (loop.mode executable).settled = settledMode executable := by
  cases executable <;> rfl

/-- What one turn of the loop has done: copied a unit, handled a token, or ended, at the end of the
input or of the executable comment. -/
def TurnOutcome (source target : Bytes) (executable : Bool) (loop : Loop) :
    Loop ⊕ ℕ × Scan → Prop
  | .inl loop' => ∃ replaced, loop'.replacements = loop.replacements + replaced ∧
    Rebased source target (loop.mode executable) loop.scan (loop'.mode executable) loop'.scan
      replaced
  | .inr (replacements, scan') => replacements = loop.replacements ∧
    if executable then Rebased source target (loop.mode executable) loop.scan .text scan' 0
    else scan' = loop.scan ∧ scan'.input = []

variable {result : Loop ⊕ ℕ × Scan}

/-- The turn has handled what starts at a byte. -/
theorem turnOutcome_next {handled : Rewriting (ℕ × Scan)}
    (hhandled : ∀ {replaced : ℕ} {scan' : Scan}, handled = .ok (replaced, scan') →
      Rebased source target (loop.mode executable) loop.scan (settledMode executable) scan' replaced)
    (h : (do return loop.next (← handled)) = Except.ok result) :
    TurnOutcome source target executable loop result := by
  obtain ⟨⟨replaced, scan'⟩, hok, h⟩ := bind_eq_ok.mp h
  cases h
  exact ⟨replaced, rfl, hhandled hok⟩

/-- **One turn of the loop** takes one unit or one qualifier. -/
theorem rewriteStep_ok (hnested : executable = false → RebasesNested source target nested)
    (h : rewriteStep (rewriteIdentifiers source target) executable nested loop = .ok result) :
    TurnOutcome source target executable loop result := by
  have hmode := loop.mode_settled executable
  obtain ⟨⟨input, output, context⟩, replacements, pending⟩ := loop
  cases input with
  | nil =>
    simp only [rewriteStep] at h
    split at h
    · cases h
    next hexecutable =>
      cases h
      obtain rfl := Bool.eq_false_iff.mpr hexecutable
      exact ⟨rfl, rfl, rfl⟩
  | cons byte rest =>
    simp only [rewriteStep, rewriteAt] at h
    split at h
    next hquote =>
      obtain rfl := hquote
      exact turnOutcome_next (handleString_ok hmode) h
    rename_i hquote
    split at h
    next hdquote =>
      obtain rfl := hdquote
      exact turnOutcome_next (fun hok =>
        @handleDoubleQuotedToken_ok _ _ _ _ ⟨rest, output, context⟩ _ _ hmode hok) h
    rename_i hdquote
    split at h
    next hbacktick =>
      obtain rfl := hbacktick
      exact turnOutcome_next (handleBacktickToken_ok hmode) h
    rename_i hbacktick
    split at h
    next hword =>
      refine turnOutcome_next (handleUnquotedToken_ok hword hmode ?_) h
      cases executable with
      | false => exact fun h => absurd h (by simp [Loop.mode, Mode.versionPending])
      | true => exact id
    rename_i hword
    split at h
    next hhash =>
      obtain rfl := hhash
      exact turnOutcome_next (handleHash_ok hmode) h
    rename_i hhash
    split at h
    next hdash =>
      obtain rfl := hdash
      exact turnOutcome_next (handleDash_ok hmode) h
    rename_i hdash
    split at h
    next hslash =>
      obtain rfl := hslash
      refine turnOutcome_next (handleSlash_ok hmode ?_ hnested) h
      rintro rfl
      rfl
    rename_i hslash
    split at h
    next hstar =>
      obtain rfl := hstar
      split at h
      next hend =>
        split at h
        next hexecutable =>
          obtain rfl := hexecutable
          obtain ⟨written, hwritten, h⟩ := bind_eq_ok.mp h
          cases h
          refine ⟨rfl, .unit (.marker (ascii "*/")) ?_ (writeBytes_ok hwritten)⟩
          rw [nextUnit, if_neg (by decide), if_neg (by decide), if_neg (by decide),
            if_neg (by decide), if_neg (fun h => absurd h.1 (by decide)),
            if_neg (fun h => absurd h.1 (by decide)), if_pos ⟨rfl, hend⟩]
          rfl
        · cases h
      next hend =>
        obtain ⟨scan', hcopy, h⟩ := bind_eq_ok.mp h
        obtain ⟨written, hwritten, hcopy⟩ := bind_eq_ok.mp hcopy
        cases hcopy
        cases h
        refine ⟨0, rfl, .unit (.code [star]) ?_ (writeByte_ok hwritten)⟩
        rw [nextUnit_code hquote hdquote hbacktick hword hhash (fun h => hdash h.1)
          (fun h => hslash h.1) (fun h => hend h.2), if_neg (by decide)]
        rfl
    next hstar =>
      obtain ⟨scan', hcopy, h⟩ := bind_eq_ok.mp h
      obtain ⟨written, hwritten, hcopy⟩ := bind_eq_ok.mp hcopy
      cases hcopy
      cases h
      refine ⟨0, rfl, .unit (.code [byte]) ?_ (writeByte_ok hwritten)⟩
      rw [nextUnit_code hquote hdquote hbacktick hword hhash (fun h => hdash h.1)
        (fun h => hslash h.1) (fun h => hstar h.1)]
      cases executable <;> cases pending <;> cases hspace : isAsciiWhitespace byte <;>
        simp [Loop.mode, Mode.settled, hstar]

variable {scan scan' : Scan} {replacements : ℕ}

/-- **An executable comment** is rewritten through its terminator. -/
theorem rewriteLoop_executable
    (h : rewriteLoop (rewriteIdentifiers source target) true nested scan =
      .ok (replacements, scan')) :
    Rebased source target (.executable true) scan .text scan' replacements := by
  have hnested : true = false → RebasesNested source target nested := fun h => nomatch h
  have hloop := iterate_rec (motive := fun loop result =>
    ∃ replaced, result.1 = loop.replacements + replaced ∧
      Rebased source target (loop.mode true) loop.scan .text result.2 replaced)
    (fun {loop result} hlast => by
      obtain ⟨hresult, hrebased⟩ := rewriteStep_ok hnested hlast
      exact ⟨0, hresult, hrebased⟩)
    (fun {loop loop' result} hstep ih => by
      obtain ⟨replaced, hreplaced, hrebased⟩ := rewriteStep_ok hnested hstep
      obtain ⟨replaced', hresult, hrest⟩ := ih
      exact ⟨replaced + replaced', by omega, hrebased.trans hrest⟩) h
  obtain ⟨replaced, hreplaced, hrebased⟩ := hloop
  obtain rfl : replacements = replaced := by simpa using hreplaced
  exact hrebased

/-- **A text** is rewritten to its end. -/
theorem rewriteLoop_text (hnested : false = false → RebasesNested source target nested)
    (h : rewriteLoop (rewriteIdentifiers source target) false nested scan =
      .ok (replacements, scan')) :
    ∃ segments, Segmented source .text scan.input segments .text [] ∧
      scan'.output.bytes = scan.output.bytes ++ segments.flatMap (Segment.rendered target) ∧
      replacements = segments.countP Segment.isReplaced := by
  have hloop := iterate_rec (motive := fun loop result => ∃ segments,
    Segmented source .text loop.scan.input segments .text [] ∧
      result.2.output.bytes =
        loop.scan.output.bytes ++ segments.flatMap (Segment.rendered target) ∧
      result.1 = loop.replacements + segments.countP Segment.isReplaced)
    (fun {loop result} hlast => by
      obtain ⟨hresult, hscan, hinput⟩ := rewriteStep_ok hnested hlast
      rw [hscan] at hinput ⊢
      rw [hinput]
      exact ⟨[], .done _ _, (List.append_nil _).symm, hresult⟩)
    (fun {loop loop' result} hstep ih => by
      obtain ⟨replaced, hreplaced, segments, -, hsegments, houtput, rfl⟩ :=
        rewriteStep_ok hnested hstep
      obtain ⟨segments', hsegments', houtput', hresult⟩ := ih
      refine ⟨segments ++ segments', hsegments.trans hsegments', ?_, ?_⟩
      · rw [houtput', houtput, List.flatMap_append, List.append_assoc]
      · rw [hresult, hreplaced, List.countP_append, Nat.add_assoc]) h
  obtain ⟨segments, hsegments, houtput, hcount⟩ := hloop
  exact ⟨segments, hsegments, houtput, by simpa using hcount⟩

/-! ## The fuel is enough -/

theorem gapStep_length_lt {state state' : Bytes × Bytes}
    (h : gapStep executable state = .ok (.inl state')) : state'.2.length < state.2.length := by
  obtain ⟨unit, hunit, -, -⟩ := gapStep_ok h
  have hpos := List.length_pos_iff.mpr (nextUnit_raw_ne_nil hunit)
  rw [nextUnit_append hunit, List.length_append]
  omega

/-- **The loop over separators ends**: more fuel does not change it. -/
theorem readQualifierGap_eq {fuel : ℕ} (h : input.length < fuel) :
    readQualifierGap executable input =
      iterate (gapStep executable) .timeout fuel ([], input) :=
  iterate_congr (fun state => state.2.length) gapStep_length_lt (Nat.lt_succ_self _) h

/-- Inside an executable comment the call of `rewrite_sql` does not matter. -/
theorem rewriteStep_executable (identifiers : RewriteIdentifiers)
    (nested nested' : Scan → Rewriting (ℕ × Scan)) :
    rewriteStep identifiers true nested = rewriteStep identifiers true nested' := by
  have hslash : ∀ scan, handleSlash true nested scan = handleSlash true nested' scan := fun _ => rfl
  funext loop
  simp only [rewriteStep, rewriteAt, hslash]

/-- **`rewriteSql` calls itself**, and its loop ends: more fuel does not change it. -/
theorem rewriteSql_eq {fuel : ℕ} (h : scan.input.length < fuel) :
    rewriteSql (rewriteIdentifiers source target) executable scan =
      iterate (rewriteStep (rewriteIdentifiers source target) executable
        (rewriteSql (rewriteIdentifiers source target) true)) .timeout fuel
        { scan, executableVersionPending := executable } := by
  have hself : rewriteLoop (rewriteIdentifiers source target) true (fun _ => .error .timeout) =
      rewriteSql (rewriteIdentifiers source target) true := by
    funext scan
    rw [rewriteSql, rewriteLoop, rewriteLoop, rewriteStep_executable]
  rw [rewriteSql, hself, rewriteLoop]
  refine iterate_congr (fun loop => loop.scan.input.length) ?_ (Nat.lt_succ_self _) h
  intro loop loop' hstep
  obtain ⟨replaced, -, hrebased⟩ := rewriteStep_ok (fun _ _ _ _ => rewriteLoop_executable) hstep
  exact hrebased.length_lt

end Loop

/-- **Only source qualifiers change**: a rewritten dump is the dump cut into segments, with the
quoted target in the place of the replaced ones, and `replacements` counts these. -/
theorem rewriteDump_changes_only_qualifiers {source target dump output : Bytes}
    {maxBytes replacements : ℕ}
    (h : rewriteDump source target maxBytes dump = .ok (replacements, output)) :
    ∃ segments, Segmented source .text dump segments .text [] ∧
      dump = segments.flatMap (Segment.raw source) ∧
      output = segments.flatMap (Segment.rendered target) ∧
      replacements = segments.countP Segment.isReplaced := by
  obtain ⟨⟨replaced, scan'⟩, hrewrite, h⟩ := bind_eq_ok.mp h
  cases h
  obtain ⟨segments, hsegments, houtput, hcount⟩ :=
    rewriteLoop_text (fun _ _ _ _ => rewriteLoop_executable) hrewrite
  exact ⟨segments, hsegments, by simpa using hsegments.append, houtput, hcount⟩

theorem rewriteDump_replaces_table_qualifier :
    ∃ segments, Segmented (ascii "source") .text (ascii "SELECT 'source.t' FROM source . t")
        segments .text [] ∧
      ascii "SELECT 'source.t' FROM source . t" = segments.flatMap (Segment.raw (ascii "source")) ∧
      ascii "SELECT 'source.t' FROM `target` . t" =
        segments.flatMap (Segment.rendered (ascii "target")) ∧
      1 = segments.countP Segment.isReplaced :=
  @rewriteDump_changes_only_qualifiers (ascii "source") (ascii "target") _ _ 1000 1
    (by decide +kernel)

end DatabasesEverywhere.MysqlSql
