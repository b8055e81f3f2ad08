import DatabasesEverywhere.Foundations.Lists
import DatabasesEverywhere.Sql.MysqlPolicy

/-!
# Sql/Objection — what the MySQL policy objects to

`Reads` says which statements the policy reads in a text, its own and those in its executable
comments, and `Forbidden` which of them it refuses, without windows, flags and fuel.

    text ──own tokens──▸ statements            refused: a sequence of words
      └──executable comment──▸ statements      refused: a sequence, or a word that counts alone

A text passes exactly if it can be read and none of these statements is forbidden
(`validateSharedMysqlCommand_ok_iff`).
-/

open Foundations

namespace DatabasesEverywhere.Sql

/-! ## Refused sequences -/

/-- The sequences of words that no statement may spell; a fragment may not even hint. -/
def refusedSequences (fragment : Bool) : List (List Bytes) :=
  [[ascii "PREPARE"], [ascii "EXECUTE", ascii "IMMEDIATE"]] ++
    storageWords.map (fun word => [word]) ++
    (if fragment then fragmentWords.map (fun word => [word]) else []) ++
    storagePairs.flatMap (fun pair =>
      pair.1.flatMap fun previous => pair.2.map fun current => [previous, current]) ++
    databaseObjects.map (fun object => [ascii "CREATE", ascii "OR", ascii "REPLACE", object])

/-- The statement creates a database, whatever modifiers and punctuation stand between. -/
def createsDatabase (tokens : List SqlToken) : Bool :=
  (statementWords tokens).head?.any (fun command => eqIgnoreAsciiCase command (ascii "CREATE")) &&
    databaseObjects.any fun object => createObject (statementWords tokens) == some object

/-- A statement the policy refuses. -/
def Forbidden (fragment : Bool) (tokens : List SqlToken) : Prop :=
  (∃ words ∈ refusedSequences fragment, hasKeywordSequence tokens words = true) ∨
    createsDatabase (tokens.take maxSqlTokensPerStatement) = true

instance (fragment : Bool) (tokens : List SqlToken) : Decidable (Forbidden fragment tokens) :=
  inferInstanceAs (Decidable (_ ∨ _))

/-- The statements of a chain of events, the first one begun already. -/
def splitStatements (current : List SqlToken) : List LexEvent → List (List SqlToken)
  | [] => [current]
  | .comment _ :: events => splitStatements current events
  | .token token :: events =>
    if token = .semicolon then current :: splitStatements [] events
    else splitStatements (current ++ [token]) events

section Reading

variable (backslashStrings : Bool)

/-- The policy follows an executable comment of the text into its body.  The comment is kept without
the delimiters of the comments nested in it, and the sandbox directive is passed over. -/
def Executes (text body : Bytes) : Prop :=
  ∃ events comment, Lexes backslashStrings text events [] ∧ LexEvent.comment comment ∈ events ∧
    executableMysqlComment comment = .ok (some body) ∧ isMysqldumpSandboxDirective body = false

/-- Something in the text cannot be read, or a comment is too large. -/
inductive Illegible : Bytes → Prop
  | unreadable {text : Bytes} (h : Unreadable backslashStrings text) : Illegible text
  | oversized {text : Bytes} {events : List LexEvent} {comment : SqlComment}
      (hlexes : Lexes backslashStrings text events [])
      (hcomment : LexEvent.comment comment ∈ events)
      (h : executableMysqlComment comment = .error ()) : Illegible text
  | comment {text body : Bytes} (hbody : Executes backslashStrings text body)
      (h : Illegible body) : Illegible text

/-- The statements read in a text or fragment; `inside` says whether one stands in a comment. -/
inductive Reads : (fragment : Bool) → Bytes → (inside : Bool) → List SqlToken → Prop
  | statement {fragment : Bool} {text : Bytes} {events : List LexEvent} {tokens : List SqlToken}
      (hlexes : Lexes backslashStrings text events [])
      (hstatement : tokens ∈ splitStatements [] events) : Reads fragment text fragment tokens
  | comment {fragment inside : Bool} {text body : Bytes} {tokens : List SqlToken}
      (hbody : Executes backslashStrings text body) (h : Reads true body inside tokens) :
      Reads fragment text inside tokens

/-- The text can be read, and nothing read in it is forbidden. -/
structure Acceptable (fragment : Bool) (text : Bytes) : Prop where
  legible : ¬ Illegible backslashStrings text
  allowed : ∀ inside tokens, Reads backslashStrings fragment text inside tokens →
    ¬ Forbidden inside tokens

/-- A comment that is not too large, and acceptable as a fragment if it is followed. -/
def AcceptableComment (comment : SqlComment) : Prop :=
  executableMysqlComment comment ≠ .error () ∧
    ∀ body, executableMysqlComment comment = .ok (some body) →
      isMysqldumpSandboxDirective body = true ∨ Acceptable backslashStrings true body

end Reading

/-- **What makes a text acceptable**: its comments and its statements. -/
theorem acceptable_iff {backslashStrings fragment : Bool} {text : Bytes}
    {events : List LexEvent} (hlexes : Lexes backslashStrings text events []) :
    Acceptable backslashStrings fragment text ↔
      (∀ comment, LexEvent.comment comment ∈ events →
        AcceptableComment backslashStrings comment) ∧
        ∀ tokens ∈ splitStatements [] events, ¬ Forbidden fragment tokens := by
  constructor
  · rintro ⟨hlegible, hallowed⟩
    refine ⟨fun comment hcomment => ⟨fun h => hlegible (.oversized hlexes hcomment h), ?_⟩,
      fun tokens htokens => hallowed _ _ (.statement hlexes htokens)⟩
    intro body hbody
    refine (Bool.eq_false_or_eq_true (isMysqldumpSandboxDirective body)).imp id fun hsandbox => ?_
    have hexecutes : Executes backslashStrings text body :=
      ⟨events, comment, hlexes, hcomment, hbody, hsandbox⟩
    exact ⟨fun h => hlegible (.comment hexecutes h),
      fun inside tokens h => hallowed inside tokens (.comment hexecutes h)⟩
  · rintro ⟨hcomments, hstatements⟩
    have hbody : ∀ body, Executes backslashStrings text body →
        Acceptable backslashStrings true body := by
      rintro body ⟨_, comment, hlexes', hcomment, hbody, hsandbox⟩
      obtain rfl := hlexes.unique hlexes'
      exact ((hcomments comment hcomment).2 body hbody).resolve_left (by simp [hsandbox])
    constructor
    · rintro (h | ⟨hlexes', hcomment, h⟩ | ⟨hexecutes, h⟩)
      · exact hlexes.readable h
      · obtain rfl := hlexes.unique hlexes'
        exact (hcomments _ hcomment).1 h
      · exact (hbody _ hexecutes).legible h
    · rintro inside tokens (⟨hlexes', htokens⟩ | ⟨hexecutes, h⟩)
      · obtain rfl := hlexes.unique hlexes'
        exact hstatements tokens htokens
      · exact (hbody _ hexecutes).allowed inside tokens h

/-! ## Spelling a sequence -/

/-- The tokens are identifiers that spell the words. -/
def Spells (tokens : List SqlToken) (words : List Bytes) : Prop :=
  List.Forall₂ (fun token word => isKeyword word token = true) tokens words

theorem startsWithKeywords_iff : ∀ {tokens : List SqlToken} {words : List Bytes},
    startsWithKeywords tokens words = true ↔
      ∃ window behind, tokens = window ++ behind ∧ Spells window words
  | tokens, [] => by
    simp only [startsWithKeywords, true_iff]
    exact ⟨[], tokens, rfl, .nil⟩
  | [], word :: words => by
    simp only [startsWithKeywords, Bool.false_eq_true, false_iff]
    rintro ⟨window, behind, htokens, hspells⟩
    cases hspells
    cases htokens
  | token :: tokens, word :: words => by
    rw [startsWithKeywords, Bool.and_eq_true, startsWithKeywords_iff]
    constructor
    · rintro ⟨hkeyword, window, behind, rfl, hspells⟩
      exact ⟨token :: window, behind, rfl, .cons hkeyword hspells⟩
    rintro ⟨window, behind, htokens, hspells⟩
    cases hspells with
    | cons hkeyword hspells =>
      cases htokens
      exact ⟨hkeyword, _, behind, rfl, hspells⟩

variable {words : List Bytes} {word : Bytes}

theorem spells_concat {window : List SqlToken} :
    Spells window (words ++ [word]) ↔
      ∃ front last, window = front ++ [last] ∧ Spells front words ∧
        isKeyword word last = true := by
  constructor
  · intro h
    induction words generalizing window with
    | nil =>
      cases h with
      | cons hkeyword hnil =>
        cases hnil
        exact ⟨[], _, rfl, .nil, hkeyword⟩
    | cons first words ih =>
      cases h with
      | cons hfirst hrest =>
        obtain ⟨front, last, rfl, hfront, hkeyword⟩ := ih hrest
        exact ⟨_ :: front, last, rfl, .cons hfirst hfront, hkeyword⟩
  · rintro ⟨front, last, rfl, hfront, hkeyword⟩
    exact List.rel_append hfront (.cons hkeyword .nil)

variable {tokens : List SqlToken}

/-- A window spells the words. -/
theorem hasKeywordSequence_iff :
    hasKeywordSequence tokens words = true ↔
      ∃ before window behind, tokens = before ++ window ++ behind ∧ Spells window words := by
  rw [hasKeywordSequence, List.any_eq_true]
  constructor
  · rintro ⟨suffix, hsuffix, h⟩
    obtain ⟨before, rfl⟩ := (List.mem_tails _ _).mp hsuffix
    obtain ⟨window, behind, rfl, hspells⟩ := startsWithKeywords_iff.mp h
    exact ⟨before, window, behind, (List.append_assoc ..).symm, hspells⟩
  · rintro ⟨before, window, behind, rfl, hspells⟩
    refine ⟨window ++ behind, (List.mem_tails _ _).mpr ⟨before, (List.append_assoc ..).symm⟩, ?_⟩
    exact startsWithKeywords_iff.mpr ⟨window, behind, rfl, hspells⟩

theorem hasKeyword_iff :
    hasKeyword tokens word = true ↔ hasKeywordSequence tokens [word] = true := by
  rw [hasKeyword, List.any_eq_true, hasKeywordSequence_iff]
  constructor
  · rintro ⟨token, htoken, hkeyword⟩
    obtain ⟨before, behind, rfl⟩ := List.append_of_mem htoken
    exact ⟨before, [token], behind, by simp, .cons hkeyword .nil⟩
  · rintro ⟨before, window, behind, rfl, hspells⟩
    cases hspells with
    | cons hkeyword hnil =>
      exact ⟨_, by simp, hkeyword⟩

/-- What a prefix of the tokens spells, the tokens spell. -/
theorem hasKeywordSequence_of_take {count : ℕ}
    (h : hasKeywordSequence (tokens.take count) words = true) :
    hasKeywordSequence tokens words = true := by
  obtain ⟨before, window, behind, htake, hspells⟩ := hasKeywordSequence_iff.mp h
  refine hasKeywordSequence_iff.mpr ⟨before, window, behind ++ tokens.drop count, ?_, hspells⟩
  rw [← List.append_assoc, ← htake, List.take_append_drop]

/-- One more token: the words were spelled before, or they end with it. -/
theorem hasKeywordSequence_concat {token : SqlToken} :
    hasKeywordSequence (tokens ++ [token]) words = true ↔
      hasKeywordSequence tokens words = true ∨
        ∃ before window, tokens ++ [token] = before ++ window ∧ Spells window words := by
  rw [hasKeywordSequence_iff, hasKeywordSequence_iff]
  constructor
  · rintro ⟨before, window, behind, htokens, hspells⟩
    rcases List.eq_nil_or_concat behind with rfl | ⟨behind, last, rfl⟩
    · exact .inr ⟨before, window, by simpa using htokens, hspells⟩
    · rw [List.concat_eq_append, ← List.append_assoc] at htokens
      obtain ⟨rfl, -⟩ := List.append_inj' htokens rfl
      exact .inl ⟨before, window, behind, rfl, hspells⟩
  · rintro (⟨before, window, behind, rfl, hspells⟩ | ⟨before, window, htokens, hspells⟩)
    · exact ⟨before, window, behind ++ [token], by simp, hspells⟩
    · exact ⟨before, window, [], by simpa using htokens, hspells⟩

/-! ## The window of the observer -/

/-- The run of words a list of tokens ends with, in upper case. -/
def trailingWords (tokens : List SqlToken) : List Bytes :=
  tokens.foldl (fun words token =>
    match token with
    | .identifier word => words ++ [toUppercase word.bytes]
    | _ => []) []

theorem trailingWords_identifier (tokens : List SqlToken) (text : Text) :
    trailingWords (tokens ++ [.identifier text]) =
      trailingWords tokens ++ [toUppercase text.bytes] := by
  simp [trailingWords]

/-- An upper-case word. -/
def IsUpper (word : Bytes) : Prop := toUppercase word = word

theorem isKeyword_iff (hupper : IsUpper word) {token : SqlToken} :
    isKeyword word token = true ↔ ∃ text, token = .identifier text ∧ toUppercase text.bytes = word := by
  cases token with
  | identifier text =>
    rw [isKeyword, eqIgnoreAsciiCase_iff]
    change toUppercase text.bytes = toUppercase word ↔ _
    rw [hupper]
    simp
  | _ => simp [isKeyword]

/-- Words end a list of tokens exactly if they end its trailing run. -/
theorem spells_suffix_iff (hupper : ∀ word ∈ words, IsUpper word) (tokens : List SqlToken) :
    (∃ before window, tokens = before ++ window ∧ Spells window words) ↔
      words <:+ trailingWords tokens := by
  induction tokens using List.reverseRecOn generalizing words with
  | nil =>
    constructor
    · rintro ⟨before, window, htokens, hspells⟩
      obtain ⟨-, rfl⟩ := List.append_eq_nil_iff.mp htokens.symm
      cases hspells
      exact List.suffix_rfl
    · intro h
      obtain rfl := List.suffix_nil.mp h
      exact ⟨[], [], rfl, .nil⟩
  | append_singleton tokens token ih =>
    rcases List.eq_nil_or_concat words with rfl | ⟨words, word, rfl⟩
    · exact ⟨fun _ => List.nil_suffix, fun _ => ⟨tokens ++ [token], [], by simp, .nil⟩⟩
    rw [List.concat_eq_append] at hupper ⊢
    have hlast : IsUpper word := hupper word (by simp)
    have hrest : ∀ word ∈ words, IsUpper word := fun w hw => hupper w (by simp [hw])
    -- the words end with this token exactly if it is their last word and the rest ended before
    have hsplit : (∃ before window, tokens ++ [token] = before ++ window ∧
        Spells window (words ++ [word])) ↔
        isKeyword word token = true ∧
          ∃ before window, tokens = before ++ window ∧ Spells window words := by
      constructor
      · rintro ⟨before, window, htokens, hspells⟩
        obtain ⟨front, last, rfl, hfront, hkeyword⟩ := spells_concat.mp hspells
        rw [← List.append_assoc] at htokens
        obtain ⟨rfl, hlast⟩ := List.append_inj' htokens rfl
        obtain rfl := List.singleton_inj.mp hlast
        exact ⟨hkeyword, before, front, rfl, hfront⟩
      · rintro ⟨hkeyword, before, window, rfl, hspells⟩
        exact ⟨before, window ++ [token], by simp,
          spells_concat.mpr ⟨window, token, rfl, hspells, hkeyword⟩⟩
    rw [hsplit, ih hrest, isKeyword_iff hlast]
    cases token with
    | identifier text =>
      rw [trailingWords_identifier, concat_suffix_concat]
      simp [eq_comm]
    | _ => simp [trailingWords]

variable {keywords : List Bytes} {a : Bytes}

theorem suffix_one : [a] <:+ keywords ↔ keywords.reverse[0]? = some a := by
  rw [← List.reverse_prefix]
  cases keywords.reverse <;> simp [@eq_comm _ a]

theorem suffix_two {b : Bytes} :
    [a, b] <:+ keywords ↔ keywords.reverse[0]? = some b ∧ keywords.reverse[1]? = some a := by
  rw [← List.reverse_prefix]
  match keywords.reverse with
  | [] | [_] | _ :: _ :: _ => simp [@eq_comm _ a, @eq_comm _ b]

theorem suffix_four {b c d : Bytes} :
    [a, b, c, d] <:+ keywords ↔ keywords.reverse[0]? = some d ∧ keywords.reverse[1]? = some c ∧
      keywords.reverse[2]? = some b ∧ keywords.reverse[3]? = some a := by
  rw [← List.reverse_prefix]
  match keywords.reverse with
  | [] | [_] | [_, _] | [_, _, _] | _ :: _ :: _ :: _ :: _ =>
    simp [@eq_comm _ a, @eq_comm _ b, @eq_comm _ c, @eq_comm _ d]

theorem ite_violation_ne_none {p q : Prop} [Decidable p] [Decidable q]
    {a b : MysqlStorageViolation} :
    (if p then some a else if q then some b else none) ≠ none ↔ p ∨ q := by
  split
  · simp [*]
  · split <;> simp [*]

variable {fragment : Bool}

/-- Some refused sequence ends here, group by group. -/
theorem refused_suffix_iff :
    (∃ words ∈ refusedSequences fragment, words <:+ keywords) ↔
      ([ascii "PREPARE"] <:+ keywords ∨ [ascii "EXECUTE", ascii "IMMEDIATE"] <:+ keywords) ∨
      (∃ word ∈ storageWords, [word] <:+ keywords) ∨
      (fragment = true ∧ ∃ word ∈ fragmentWords, [word] <:+ keywords) ∨
      (∃ pair ∈ storagePairs, ∃ previous ∈ pair.1, ∃ current ∈ pair.2,
        [previous, current] <:+ keywords) ∨
      ∃ object ∈ databaseObjects,
        [ascii "CREATE", ascii "OR", ascii "REPLACE", object] <:+ keywords := by
  have hfragment : (∃ words ∈ if fragment then fragmentWords.map (fun word => [word]) else [],
      words <:+ keywords) ↔ fragment = true ∧ ∃ word ∈ fragmentWords, [word] <:+ keywords := by
    cases fragment <;> simp
  have hpairs : (∃ words ∈ storagePairs.flatMap fun pair =>
        pair.1.flatMap fun previous => pair.2.map fun current => [previous, current],
        words <:+ keywords) ↔
      ∃ pair ∈ storagePairs, ∃ previous ∈ pair.1, ∃ current ∈ pair.2,
        [previous, current] <:+ keywords := by
    simp only [List.mem_flatMap, List.mem_map]
    constructor
    · rintro ⟨_, ⟨pair, hpair, previous, hprevious, current, hcurrent, rfl⟩, h⟩
      exact ⟨pair, hpair, previous, hprevious, current, hcurrent, h⟩
    · rintro ⟨pair, hpair, previous, hprevious, current, hcurrent, h⟩
      exact ⟨_, ⟨pair, hpair, previous, hprevious, current, hcurrent, rfl⟩, h⟩
  simp only [refusedSequences, List.mem_append, or_and_right, exists_or, hfragment, hpairs,
    List.mem_map, exists_exists_and_eq_and, List.mem_cons, List.not_mem_nil, or_false,
    exists_eq_left, or_assoc]

/-- **The observer's window sees exactly the refused sequences that end with it.** -/
theorem mysqlKeywordViolation_ne_none_iff (keywords : List Bytes) (fragment : Bool) :
    mysqlKeywordViolation keywords fragment ≠ none ↔
      ∃ words ∈ refusedSequences fragment, words <:+ keywords := by
  rw [refused_suffix_iff]
  simp only [suffix_one, suffix_two, suffix_four, mysqlKeywordViolation]
  cases keywords.reverse[0]? with
  | none => simp
  | some current =>
    simp only [Option.some.injEq]
    rw [ite_violation_ne_none]
    refine or_congr (or_congr Iff.rfl and_comm) (or_congr ?_ (or_congr ?_ (or_congr ?_ ?_)))
    · simp
    · simp
    · refine exists_congr fun pair => and_congr_right fun _ => ?_
      grind
    · grind

theorem isUpper_of_mem (h : words ∈ refusedSequences fragment) : ∀ word ∈ words, IsUpper word := by
  revert words
  cases fragment <;> simp only [IsUpper] <;> decide +kernel

theorem length_le_of_mem (h : words ∈ refusedSequences fragment) : words.length ≤ 4 := by
  revert words
  cases fragment <;> decide +kernel

theorem not_forbidden_nil (fragment : Bool) : ¬ Forbidden fragment [] := by
  cases fragment <;> decide +kernel

/-! ## The check of a finished statement

It looks for sequences in the tokens that were kept, all of which the window has seen before; only
the creation of a database is found here and nowhere else. -/

theorem Forbidden.of_kept (hwords : words ∈ refusedSequences fragment)
    (h : hasKeywordSequence (tokens.take maxSqlTokensPerStatement) words = true) :
    Forbidden fragment tokens :=
  .inl ⟨words, hwords, hasKeywordSequence_of_take h⟩

theorem Forbidden.of_keyword (hword : [word] ∈ refusedSequences fragment)
    (h : hasKeyword (tokens.take maxSqlTokensPerStatement) word = true) :
    Forbidden fragment tokens :=
  .of_kept hword (hasKeyword_iff.mp h)

theorem mem_refused_of_storageWord (h : word ∈ storageWords) :
    [word] ∈ refusedSequences fragment := by
  simp only [refusedSequences, List.mem_append, List.mem_map]
  exact .inl (.inl (.inl (.inr ⟨word, h, rfl⟩)))

theorem mem_refused_of_pair {pair : List Bytes × List Bytes} {previous current : Bytes}
    (hpair : pair ∈ storagePairs) (hprevious : previous ∈ pair.1)
    (hcurrent : current ∈ pair.2) : [previous, current] ∈ refusedSequences fragment := by
  simp only [refusedSequences, List.mem_append, List.mem_flatMap, List.mem_map]
  exact .inl (.inr ⟨pair, hpair, previous, hprevious, current, hcurrent, rfl⟩)

theorem forbidden_of_databaseDdl (h : mysqlDatabaseDdl (tokens.take maxSqlTokensPerStatement)
      (statementWords (tokens.take maxSqlTokensPerStatement)) = true) :
    Forbidden fragment tokens := by
  unfold mysqlDatabaseDdl at h
  split at h
  · cases h
  rename_i command hcommand
  obtain ⟨object, hobject, h⟩ := List.any_eq_true.mp h
  rcases Bool.or_eq_true_iff.mp h with hverb | hcreate
  · obtain ⟨verb, hverb, h⟩ := List.any_eq_true.mp hverb
    exact .of_kept (mem_refused_of_pair (List.mem_cons_self ..) hverb hobject) h
  · rw [Bool.and_eq_true] at hcreate
    refine .inr ?_
    rw [createsDatabase, hcommand, Option.any_some, hcreate.1, Bool.true_and]
    exact List.any_eq_true.mpr ⟨object, hobject, hcreate.2⟩

theorem forbidden_of_policyViolation {statement : Statement}
    (htokens : statement.tokens = tokens.take maxSqlTokensPerStatement)
    (h : mysqlStoragePolicyViolation statement fragment ≠ none) : Forbidden fragment tokens := by
  simp only [mysqlStoragePolicyViolation, htokens] at h
  split at h
  next hdynamic =>
    rcases Bool.or_eq_true_iff.mp hdynamic with hkeyword | hsequence
    · exact .of_keyword (by simp [refusedSequences]) hkeyword
    · exact .of_kept (by simp [refusedSequences]) hsequence
  split at h
  next hfragment =>
    rw [Bool.and_eq_true] at hfragment
    obtain ⟨rfl, hfragment⟩ := hfragment
    obtain ⟨word, hword, hkeyword⟩ := List.any_eq_true.mp hfragment
    have hrefused : ∀ word ∈ [ascii "DATABASE", ascii "SCHEMA", ascii "TABLESPACE",
        ascii "DIRECTORY"], [word] ∈ refusedSequences true := by decide +kernel
    exact .of_keyword (hrefused word hword) hkeyword
  split at h
  next hddl =>
    exact forbidden_of_databaseDdl hddl
  split at h
  swap
  · exact absurd rfl h
  rename_i hstorage
  simp only [Bool.or_eq_true] at hstorage
  rcases hstorage with ((((((hkeyword | h) | h) | h) | h) | h) | h) | hplacement
  · exact .of_keyword (mem_refused_of_storageWord (by simp [storageWords])) hkeyword
  · exact .of_kept (by cases fragment <;> decide +kernel) h
  · exact .of_kept (by cases fragment <;> decide +kernel) h
  · exact .of_kept (by cases fragment <;> decide +kernel) h
  · exact .of_kept (by cases fragment <;> decide +kernel) h
  · exact .of_kept (by cases fragment <;> decide +kernel) h
  · exact .of_kept (by cases fragment <;> decide +kernel) h
  · obtain ⟨word, hword, hkeyword⟩ := List.any_eq_true.mp hplacement
    exact .of_keyword (mem_refused_of_storageWord (List.mem_cons_of_mem _ hword)) hkeyword

variable {statement : Statement}

theorem policyViolation_of_createsDatabase (h : createsDatabase statement.tokens = true) :
    mysqlStoragePolicyViolation statement fragment ≠ none := by
  have hddl : mysqlDatabaseDdl statement.tokens (statementWords statement.tokens) = true := by
    rw [createsDatabase, Bool.and_eq_true] at h
    unfold mysqlDatabaseDdl
    cases hcommand : (statementWords statement.tokens).head? with
    | none => simp [hcommand] at h
    | some command =>
      rw [hcommand, Option.any_some] at h
      obtain ⟨object, hobject, hcreate⟩ := List.any_eq_true.mp h.2
      exact List.any_eq_true.mpr ⟨object, hobject, by simp [h.1, hcreate]⟩
  simp only [mysqlStoragePolicyViolation, hddl, if_true]
  split
  · simp
  split <;> simp

/-! ## What the observer carries -/

/-- The observer and the statement gathered so far stand for the tokens since the last `;`. -/
structure Represents (fragment : Bool) (current : List SqlToken) (statement : Statement)
    (state : MysqlCommandState) : Prop where
  tokens : statement.tokens = current.take maxSqlTokensPerStatement
  window : state.keywords <:+ trailingWords current
  windowLength : state.keywords.length = min 4 (trailingWords current).length
  violation : state.violation ≠ none ↔
    ∃ words ∈ refusedSequences fragment, hasKeywordSequence current words = true

theorem represents_nil (fragment : Bool) : Represents fragment [] {} {} where
  tokens := rfl
  window := List.suffix_rfl
  windowLength := rfl
  violation := by
    cases fragment <;> decide +kernel

variable {current : List SqlToken}

theorem push_tokens (token : SqlToken)
    (h : statement.tokens = current.take maxSqlTokensPerStatement) :
    (statement.push token).tokens = (current ++ [token]).take maxSqlTokensPerStatement := by
  have hnoted : (statement.push token).tokens =
      if statement.tokens.length < maxSqlTokensPerStatement then statement.tokens ++ [token]
      else statement.tokens := by
    unfold Statement.push
    cases token <;> dsimp only <;> split <;> rfl
  rw [hnoted, h, List.length_take]
  split
  · rw [List.take_of_length_le (l := current) (by omega), List.take_of_length_le (by simp; omega)]
  · rw [List.take_append_of_le_length (by omega)]

/-- What refused sequences one more token brings: those that end with it. -/
theorem refused_concat_iff {token : SqlToken} :
    (∃ words ∈ refusedSequences fragment,
        hasKeywordSequence (current ++ [token]) words = true) ↔
      (∃ words ∈ refusedSequences fragment, hasKeywordSequence current words = true) ∨
        ∃ words ∈ refusedSequences fragment, words <:+ trailingWords (current ++ [token]) := by
  rw [← exists_or]
  refine exists_congr fun words => ?_
  rw [← and_or_left]
  refine and_congr_right fun hwords => ?_
  rw [hasKeywordSequence_concat, spells_suffix_iff (isUpper_of_mem hwords)]

section Observer

variable {check : Bytes → Except MysqlCommandPolicyError Unit} {fragment : Bool}
  {current : List SqlToken} {statement : Statement} {state : MysqlCommandState}

section Represented

variable (h : Represents fragment current statement state)
include h

/-- A token that is no word ends the run. -/
theorem Represents.push_other {token : SqlToken}
    (htoken : trailingWords (current ++ [token]) = []) :
    Represents fragment (current ++ [token]) (statement.push token)
      { state with keywords := [] } where
  tokens := push_tokens token h.tokens
  window := List.nil_suffix
  windowLength := by simp [htoken]
  violation := by
    rw [refused_concat_iff, h.violation, htoken]
    refine ⟨.inl, Or.rec id ?_⟩
    rintro ⟨words, hwords, hnil⟩
    obtain rfl := List.suffix_nil.mp hnil
    exact absurd hwords (by cases fragment <;> decide +kernel)

theorem Represents.push_word (word : Text)
    (hkeywords : keywords = (if state.keywords.length = 4 then state.keywords.tail
      else state.keywords) ++ [toUppercase word.bytes]) :
    Represents fragment (current ++ [.identifier word]) (statement.push (.identifier word))
      { keywords, violation := state.violation.or (mysqlKeywordViolation keywords fragment) } := by
  have hwindow : keywords <:+ trailingWords (current ++ [.identifier word]) := by
    rw [hkeywords, trailingWords_identifier, concat_suffix_concat]
    refine ⟨rfl, ?_⟩
    split
    · exact (List.tail_suffix _).trans h.window
    · exact h.window
  have hlength : keywords.length =
      min 4 (trailingWords (current ++ [.identifier word])).length := by
    have := h.windowLength
    rw [hkeywords, trailingWords_identifier]
    split
    · simp only [List.length_append, List.length_tail, List.length_singleton]
      omega
    · simp only [List.length_append, List.length_singleton]
      omega
  refine ⟨push_tokens _ h.tokens, hwindow, hlength, ?_⟩
  rw [refused_concat_iff, ← h.violation]
  have hends : (∃ words ∈ refusedSequences fragment,
      words <:+ trailingWords (current ++ [.identifier word])) ↔
      mysqlKeywordViolation keywords fragment ≠ none := by
    rw [mysqlKeywordViolation_ne_none_iff]
    refine exists_congr fun words => and_congr_right fun hwords => ?_
    refine ⟨fun hsuffix => ?_, fun hsuffix => hsuffix.trans hwindow⟩
    refine List.suffix_of_suffix_length_le hsuffix hwindow ?_
    have := hsuffix.length_le
    have := length_le_of_mem hwords
    omega
  rw [hends]
  cases state.violation <;> simp

/-- The observer takes every token. -/
theorem Represents.token {token : SqlToken} :
    ∃ state', (mysqlCommandObserver check fragment).token state token = .ok state' ∧
      Represents fragment (current ++ [token]) (statement.push token) state' := by
  cases token with
  | identifier word => exact ⟨_, rfl, h.push_word word rfl⟩
  | _ => exact ⟨_, rfl, h.push_other (by simp [trailingWords])⟩

/-- **A finished statement passes exactly if it is not forbidden.** -/
theorem Represents.statement_ok_iff (protocol : Protocol) {state' : MysqlCommandState} :
    (mysqlCommandObserver check fragment).statement state protocol statement = .ok state' ↔
      ¬ Forbidden fragment current ∧ state' = {} := by
  have hforbidden : Forbidden fragment current ↔
      state.violation.or (mysqlStoragePolicyViolation statement fragment) ≠ none := by
    constructor
    · rintro (hrefused | hcreates)
      · have := h.violation.mpr hrefused
        cases hviolation : state.violation <;> simp_all
      · have := @policyViolation_of_createsDatabase fragment statement (h.tokens ▸ hcreates)
        cases state.violation <;> simp_all
    · intro hviolation
      cases hstate : state.violation with
      | some violation => exact .inl (h.violation.mp (by simp [hstate]))
      | none =>
        rw [hstate, Option.none_or] at hviolation
        exact forbidden_of_policyViolation h.tokens hviolation
  rw [hforbidden]
  simp only [mysqlCommandObserver]
  cases state.violation.or (mysqlStoragePolicyViolation statement fragment) with
  | none => simp [eq_comm]
  | some violation => cases violation <;> simp

/-- The end of a statement: it passes exactly if it is not forbidden, and the next one is empty. -/
theorem Represents.finish (protocol : Protocol) :
    (Forbidden fragment current → ∃ error,
      statement.finish protocol (mysqlCommandObserver check fragment) state = .error error) ∧
    (¬ Forbidden fragment current → ∃ copyData state',
      statement.finish protocol (mysqlCommandObserver check fragment) state =
        .ok (copyData, state') ∧
      Represents fragment [] (if statement.tokens.isEmpty then statement else {}) state') := by
  unfold Statement.finish
  by_cases hempty : statement.tokens.isEmpty = true
  · obtain rfl : current = [] := by
      have htake := h.tokens
      rw [List.isEmpty_iff.mp hempty] at htake
      exact (List.take_eq_nil_iff.mp htake.symm).resolve_left (by decide)
    rw [if_pos hempty, if_pos hempty]
    exact ⟨fun hforbidden => absurd hforbidden (not_forbidden_nil fragment),
      fun _ => ⟨_, _, rfl, h⟩⟩
  · rw [if_neg hempty, if_neg hempty]
    cases hstatement : (mysqlCommandObserver check fragment).statement state protocol statement with
    | error error =>
      refine ⟨fun _ => ⟨error, rfl⟩, fun hallowed => ?_⟩
      have := (@Represents.statement_ok_iff check _ _ _ _ h protocol {}).mpr ⟨hallowed, rfl⟩
      cases hstatement.symm.trans this
    | ok state' =>
      obtain ⟨hallowed, rfl⟩ := (h.statement_ok_iff protocol).mp hstatement
      exact ⟨fun hforbidden => absurd hforbidden hallowed,
        fun _ => ⟨_, _, rfl, represents_nil fragment⟩⟩

end Represented

/-- The observer lets a comment pass. -/
def Passes (check : Bytes → Except MysqlCommandPolicyError Unit) (comment : SqlComment) : Prop :=
  match executableMysqlComment comment with
  | .error _ => False
  | .ok none => True
  | .ok (some body) => isMysqldumpSandboxDirective body = true ∨ check body = .ok ()

theorem comment_ok_iff {comment : SqlComment} {state' : MysqlCommandState} :
    (mysqlCommandObserver check fragment).comment state comment = .ok state' ↔
      Passes check comment ∧ state' = state := by
  simp only [mysqlCommandObserver, Passes]
  cases executableMysqlComment comment with
  | error error => simp
  | ok body =>
    cases body with
    | none => simp [@eq_comm _ state]
    | some body =>
      cases hsandbox : isMysqldumpSandboxDirective body with
      | true => simp [hsandbox, @eq_comm _ state]
      | false =>
        cases hcheck : check body <;>
          simp [hsandbox, hcheck, bind, Except.bind, pure, Except.pure, @eq_comm _ state]

/-- **A chain of events passes exactly if its comments and statements do.** -/
theorem fold_ok_iff (protocol : Protocol) : ∀ (events : List LexEvent) {current : List SqlToken}
    {statement : Statement} {state : MysqlCommandState},
    Represents fragment current statement state →
    ((∃ result, (events.foldlM (observe protocol (mysqlCommandObserver check fragment))
        (statement, state) >>= fun final =>
          scanFrom protocol (mysqlCommandObserver check fragment) [] final.1 final.2) =
        .ok result) ↔
      (∀ comment, LexEvent.comment comment ∈ events → Passes check comment) ∧
        ∀ tokens ∈ splitStatements current events, ¬ Forbidden fragment tokens)
  | [], current, statement, state, h => by
    obtain ⟨hforbidden, hallowed⟩ := @Represents.finish check _ _ _ _ h protocol
    simp only [List.foldlM_nil, pure_bind, scanFrom_nil, List.not_mem_nil, IsEmpty.forall_iff,
      implies_true, true_and, splitStatements, List.mem_singleton, forall_eq]
    by_cases hcurrent : Forbidden fragment current
    · obtain ⟨error, herror⟩ := hforbidden hcurrent
      simp [herror, hcurrent, Except.map]
    · obtain ⟨copyData, state', hok, -⟩ := hallowed hcurrent
      simp [hok, hcurrent, Except.map]
  | .comment comment :: events, current, statement, state, h => by
    simp only [List.foldlM_cons, observe, splitStatements]
    cases hcomment : (mysqlCommandObserver check fragment).comment state comment with
    | error error =>
      have hpasses : ¬ Passes check comment := fun hpasses => by
        have := (@comment_ok_iff check fragment state comment state).mpr ⟨hpasses, rfl⟩
        cases hcomment.symm.trans this
      simp only [error_bind, reduceCtorEq, exists_false, false_iff, not_and]
      exact fun hall => absurd (hall comment (List.mem_cons_self ..)) hpasses
    | ok state' =>
      obtain ⟨hpasses, rfl⟩ := comment_ok_iff.mp hcomment
      have ih := fold_ok_iff protocol events h
      simp only [ok_bind, pure_bind] at ih ⊢
      rw [ih]
      simp [hpasses]
  | .token token :: events, current, statement, state, h => by
    simp only [List.foldlM_cons, observe, splitStatements, List.mem_cons, reduceCtorEq, false_or]
    split
    · obtain ⟨hforbidden, hallowed⟩ := @Represents.finish check _ _ _ _ h protocol
      by_cases hcurrent : Forbidden fragment current
      · obtain ⟨error, herror⟩ := hforbidden hcurrent
        simp [herror, hcurrent]
      obtain ⟨copyData, state', hok, hnil⟩ := hallowed hcurrent
      have ih := fold_ok_iff protocol events hnil
      simp only [hok, ok_bind, pure_bind] at ih ⊢
      rw [ih]
      simp [hcurrent]
    · obtain ⟨state', htoken, hnext⟩ := @Represents.token check _ _ _ _ h token
      have ih := fold_ok_iff protocol events hnext
      simp only [htoken, ok_bind, pure_bind] at ih ⊢
      exact ih

end Observer

/-! ## The check accepts what is acceptable -/

theorem executable_length_lt {comment : SqlComment} {body : Bytes}
    (h : executableMysqlComment comment = .ok (some body)) :
    body.length < comment.bytes.length := by
  have hmark : ∀ {bytes rest : Bytes}, stripExecutableMark bytes = some rest →
      rest.length < bytes.length := by
    intro bytes rest h
    unfold stripExecutableMark at h
    split at h
    · cases h
      exact Nat.lt_succ_self _
    · cases h
      exact Nat.lt_succ_of_lt (Nat.lt_succ_self _)
    · cases h
      exact Nat.lt_succ_of_lt (Nat.lt_succ_self _)
    · cases h
  have htrim : ∀ (skip : UInt8 → Bool) (bytes : Bytes),
      (trimLeading skip bytes).length ≤ bytes.length :=
    fun skip bytes => (List.dropWhile_suffix skip).length_le
  unfold executableMysqlComment at h
  split at h
  · cases h
  rename_i stripped hstripped
  split at h
  · cases h
  cases h
  calc _ ≤ stripped.length :=
        ((htrim _ _).trans (htrim _ _)).trans (htrim _ _)
    _ < (trimLeading isAsciiWhitespace comment.bytes).length := hmark hstripped
    _ ≤ comment.bytes.length := htrim _ _

variable {protocol : Protocol}

variable (hprotocol : protocol.family.isMysql = true)
include hprotocol

/-- **The check accepts exactly the acceptable texts**, with fuel enough for their length. -/
theorem checkNested_ok_iff :
    ∀ (nesting : ℕ) (fragment : Bool) (text : Bytes), text.length < nesting →
      (checkNested protocol nesting fragment text = .ok () ↔
        Acceptable protocol.sqlBackslashStrings fragment text)
  | nesting + 1, fragment, text, hnesting => by
    have hpostgres := Protocol.not_isPostgres_of_isMysql hprotocol
    have hcheck : checkNested protocol (nesting + 1) fragment text = .ok () ↔
        ∃ result, scanFrom protocol
          (mysqlCommandObserver (checkNested protocol nesting true) fragment) text {} {} =
          .ok result := by
      rw [checkNested, if_pos hprotocol, scanSql]
      cases scanFrom protocol
        (mysqlCommandObserver (checkNested protocol nesting true) fragment) text {} {} <;>
        simp [bind, Except.bind, pure, Except.pure]
    rw [hcheck]
    rcases @lexes_or_unreadable protocol.sqlBackslashStrings text with
      ⟨events, hlexes⟩ | hunreadable
    swap
    · refine iff_of_false ?_ fun h => h.legible (.unreadable hunreadable)
      rintro ⟨result, hresult⟩
      exact scanFrom_unreadable hpostgres _ hunreadable _ _ _ hresult
    rw [scanFrom_lexes _ hpostgres hlexes, fold_ok_iff protocol events (represents_nil fragment),
      acceptable_iff hlexes]
    refine and_congr_left' (forall₂_congr fun comment hcomment => ?_)
    have hlength := hlexes.comment_length_lt hcomment
    unfold Passes AcceptableComment
    cases hexecutable : executableMysqlComment comment with
    | error error => simp
    | ok body =>
      cases body with
      | none => simp
      | some body =>
        have hbody := executable_length_lt hexecutable
        have ih := checkNested_ok_iff nesting true body (by omega)
        simp [ih]

/-- **A command passes exactly if it is acceptable.** -/
theorem validateSharedMysqlCommand_ok_iff (sql : Bytes) :
    validateSharedMysqlCommand sql protocol = .ok () ↔
      Acceptable protocol.sqlBackslashStrings false sql :=
  checkNested_ok_iff hprotocol (sql.length + 1) false sql (Nat.lt_succ_self _)

end DatabasesEverywhere.Sql
