import DatabasesEverywhere.Sql.Objection

/-!
# Sql/Wrapping — runs of tokens inside executable comments

A server runs the body of `/*!50100 … */` as if it stood in the text by itself.  A `Wrapping` is a
text some of whose runs of tokens stand in such comments, and two texts are read off it:

    wrapped   outer /*!version body*/ outer /*!version body*/ … tail
    inlined   outer  body  outer  body  … tail

The policy reads the wrapped text run by run: the words of the outer runs, past every comment, and
each comment for itself.  A refused sequence is seen if all its words stand in one run; inside a
comment `DATABASE`, `SCHEMA` and `DIRECTORY` are sequences of their own.  `rejects_wrapped_iff` says
that nothing else is seen, and where the boundaries may fall around a pair of words.
-/

open Foundations

namespace DatabasesEverywhere.Sql

/-! ## Texts with executable comments -/

/-- Whole tokens: a text that is read the same in front of a blank or a comment, whatever follows. -/
structure TokenRun (backslashStrings : Bool) where
  bytes : Bytes
  events : List LexEvent
  lexes : ∀ stop ∈ [Ascii.space, Ascii.slash], ∀ behind,
    Lexes backslashStrings (bytes ++ stop :: behind) events (stop :: behind)

/-- What stands between the delimiters of an executable comment. -/
def executableText (mariadb : Bool) (version body : Bytes) : Bytes :=
  (if mariadb then ascii "M!" else ascii "!") ++ version ++ body

/-- A run of tokens inside a comment that ends behind it, and what the lexer keeps of the comment. -/
structure ExecutableComment (backslashStrings : Bool) where
  mariadb : Bool
  version : Bytes
  body : TokenRun backslashStrings
  kept : SqlComment
  digits : ∀ byte ∈ version, isAsciiDigit byte = true
  closes : readBlockComment 1 {} (executableText mariadb version body.bytes ++ ascii "*/") =
    .ok (kept, [])

/-- A run of tokens, and an executable comment behind it. -/
structure Piece (backslashStrings : Bool) where
  outer : TokenRun backslashStrings
  comment : ExecutableComment backslashStrings

/-- A text with some of its runs of tokens in executable comments. -/
structure Wrapping (backslashStrings : Bool) where
  pieces : List (Piece backslashStrings)
  tail : Bytes

variable {backslashStrings : Bool}

variable (comment : ExecutableComment backslashStrings)

/-- The comment as it is sent. -/
def ExecutableComment.text : Bytes :=
  ascii "/*" ++ executableText comment.mariadb comment.version comment.body.bytes ++ ascii "*/"

/-- The pieces with their comments, in front of the tail. -/
def wrappedText (tail : Bytes) : List (Piece backslashStrings) → Bytes
  | [] => tail
  | piece :: pieces => piece.outer.bytes ++ piece.comment.text ++ wrappedText tail pieces

/-- The pieces with the bodies of their comments, in front of the tail. -/
def inlinedText (tail : Bytes) : List (Piece backslashStrings) → Bytes
  | [] => tail
  | piece :: pieces =>
    piece.outer.bytes ++ ascii " " ++ piece.comment.body.bytes ++ ascii " " ++
      inlinedText tail pieces

variable (wrapping : Wrapping backslashStrings)

/-- The text as it is sent. -/
def Wrapping.wrapped : Bytes :=
  wrappedText wrapping.tail wrapping.pieces

/-- The text as a server runs it. -/
def Wrapping.inlined : Bytes :=
  inlinedText wrapping.tail wrapping.pieces

/-! ## How the two texts are read -/

variable (pieces : List (Piece backslashStrings))

def wrappedEvents : List LexEvent :=
  pieces.flatMap fun piece => piece.outer.events ++ [.comment piece.comment.kept]

/-- What stands outside the wrapped comments. -/
def outerEvents : List LexEvent :=
  pieces.flatMap fun piece => piece.outer.events

/-- A comment that has been read to its end is read the same with more behind it. -/
theorem readBlockComment_append {more : Bytes} : ∀ {depth : ℕ} {comment result : SqlComment}
    {input rest : Bytes}, readBlockComment depth comment input = .ok (result, rest) →
    readBlockComment depth comment (input ++ more) = .ok (result, rest ++ more)
  | _, _, _, [], _, h | _, _, _, [_], _, h => by simp [readBlockComment] at h
  | depth, comment, result, byte :: next :: input, rest, h => by
    rw [readBlockComment] at h
    rw [List.cons_append, List.cons_append, readBlockComment]
    split at h
    next hopen =>
      rw [if_pos hopen]
      split at h
      · cases h
      next hdepth =>
        rw [if_neg hdepth]
        exact readBlockComment_append h
    rename_i hopen
    rw [if_neg hopen]
    split at h
    next hclose =>
      rw [if_pos hclose]
      split at h
      next hdepth =>
        cases h
        rw [if_pos hdepth]
      next hdepth =>
        rw [if_neg hdepth]
        exact readBlockComment_append h
    next hclose =>
      rw [if_neg hclose]
      exact readBlockComment_append h

theorem ExecutableComment.lexes (behind : Bytes) :
    Lexes backslashStrings (comment.text ++ behind) [.comment comment.kept] behind := by
  refine .event (by decide) ?_ (.done behind)
  rw [eventAt, if_neg (by decide), if_neg (by simp; decide), if_neg (by decide), if_pos ⟨rfl, rfl⟩]
  have hclosed := @readBlockComment_append behind _ _ _ _ _ comment.closes
  rw [List.nil_append] at hclosed
  exact bind_eq_ok.mpr ⟨_, hclosed, rfl⟩

theorem lexes_wrapped (tail : Bytes) : ∀ pieces : List (Piece backslashStrings),
    Lexes backslashStrings (wrappedText tail pieces) (wrappedEvents pieces) tail
  | [] => .done tail
  | piece :: pieces => by
    rw [wrappedText, wrappedEvents, List.flatMap_cons, List.append_assoc, List.append_assoc]
    refine (piece.outer.lexes _ (by decide) _).trans ?_
    exact (piece.comment.lexes _).trans (lexes_wrapped tail pieces)

/-! ## What is seen of a wrapped text -/

/-- The policy passes over comments when it splits a text into statements. -/
theorem splitStatements_comment (comment : SqlComment) (behind : List LexEvent) :
    ∀ (events : List LexEvent) (current : List SqlToken),
    splitStatements current (events ++ .comment comment :: behind) =
      splitStatements current (events ++ behind)
  | [], _ => rfl
  | .comment _ :: events, current => splitStatements_comment comment behind events current
  | .token token :: events, current => by
    simp only [List.cons_append, splitStatements]
    split
    · rw [splitStatements_comment comment behind events]
    · rw [splitStatements_comment comment behind events]

theorem splitStatements_wrapped (behind : List LexEvent) :
    ∀ (pieces : List (Piece backslashStrings)) (before : List LexEvent),
    splitStatements [] (before ++ (wrappedEvents pieces ++ behind)) =
      splitStatements [] (before ++ (outerEvents pieces ++ behind))
  | [], _ => rfl
  | piece :: pieces, before => by
    have ih := splitStatements_wrapped behind pieces (before ++ piece.outer.events)
    simp only [wrappedEvents, outerEvents, List.flatMap_cons, List.append_assoc,
      List.singleton_append] at ih ⊢
    rw [← List.append_assoc, List.cons_append, splitStatements_comment, List.append_assoc, ih]

theorem mem_wrappedEvents_iff {pieces : List (Piece backslashStrings)} {comment : SqlComment} :
    LexEvent.comment comment ∈ wrappedEvents pieces ↔
      LexEvent.comment comment ∈ outerEvents pieces ∨
        ∃ piece ∈ pieces, piece.comment.kept = comment := by
  simp only [wrappedEvents, outerEvents, List.mem_flatMap, List.mem_append, List.mem_singleton,
    LexEvent.comment.injEq, and_or_left, exists_or, @eq_comm _ comment]

section Runs

variable (behind : List LexEvent)

/-- A comment of the wrapped text, with `behind` the events of its tail: a wrapped one, or one that
stands in an outer run. -/
def Wrapping.HasComment (comment : SqlComment) : Prop :=
  LexEvent.comment comment ∈ outerEvents wrapping.pieces ++ behind ∨
    ∃ piece ∈ wrapping.pieces, piece.comment.kept = comment

/-- The runs of words of the wrapped text; the flag says whether one stands in a comment.  A comment
that starts with the sandbox directive has none, and the words of comments nested in a comment are
words of its run. -/
inductive Wrapping.Run : Bool → List SqlToken → Prop
  | outside {tokens : List SqlToken}
      (h : tokens ∈ splitStatements [] (outerEvents wrapping.pieces ++ behind)) : Run false tokens
  | inside {comment : SqlComment} {body : Bytes} {inside : Bool} {tokens : List SqlToken}
      (hcomment : wrapping.HasComment behind comment)
      (hbody : executableMysqlComment comment = .ok (some body))
      (hsandbox : isMysqldumpSandboxDirective body = false)
      (h : Reads backslashStrings true body inside tokens) : Run inside tokens

/-- A comment of the wrapped text is too large, or cannot be read. -/
def Wrapping.IllegibleComment : Prop :=
  ∃ comment, wrapping.HasComment behind comment ∧
    (executableMysqlComment comment = .error () ∨
      ∃ body, executableMysqlComment comment = .ok (some body) ∧
        isMysqldumpSandboxDirective body = false ∧ Illegible backslashStrings body)

/-- **A wrapped text is acceptable if its comments can be read and no run of it spells a refused
sequence.** -/
theorem Wrapping.acceptable_wrapped_iff
    (htail : Lexes backslashStrings wrapping.tail behind []) :
    Acceptable backslashStrings false wrapping.wrapped ↔
      ¬ wrapping.IllegibleComment behind ∧
        ∀ inside tokens, wrapping.Run behind inside tokens → ¬ Forbidden inside tokens := by
  have hlexes := (lexes_wrapped wrapping.tail wrapping.pieces).trans htail
  have hstatements := splitStatements_wrapped behind wrapping.pieces []
  rw [List.nil_append, List.nil_append] at hstatements
  have hcomment : ∀ comment, LexEvent.comment comment ∈ wrappedEvents wrapping.pieces ++ behind ↔
      wrapping.HasComment behind comment := by
    intro comment
    rw [HasComment, List.mem_append, List.mem_append, mem_wrappedEvents_iff, or_right_comm]
  rw [Wrapping.wrapped, acceptable_iff hlexes, hstatements]
  simp only [hcomment]
  constructor
  · rintro ⟨hcomments, houter⟩
    constructor
    · rintro ⟨comment, hhas, htoo | ⟨body, hbody, hsandbox, hillegible⟩⟩
      · exact (hcomments comment hhas).1 htoo
      · have hfollowed := ((hcomments comment hhas).2 body hbody).resolve_left (by simp [hsandbox])
        exact hfollowed.legible hillegible
    · rintro inside tokens (htokens | ⟨hhas, hbody, hsandbox, hreads⟩)
      · exact houter tokens htokens
      · have hfollowed := ((hcomments _ hhas).2 _ hbody).resolve_left (by simp [hsandbox])
        exact hfollowed.allowed inside tokens hreads
  · rintro ⟨hlegible, hallowed⟩
    refine ⟨fun comment hhas => ⟨fun htoo => hlegible ⟨comment, hhas, .inl htoo⟩, ?_⟩,
      fun tokens htokens => hallowed false tokens (.outside htokens)⟩
    intro body hbody
    refine (Bool.eq_false_or_eq_true (isMysqldumpSandboxDirective body)).imp id fun hsandbox => ?_
    exact ⟨fun h => hlegible ⟨comment, hhas, .inr ⟨body, hbody, hsandbox, h⟩⟩,
      fun inside tokens h => hallowed inside tokens (.inside hhas hbody hsandbox h)⟩

/-- The bodies where they stand make up something refused, and no run of the wrapped text spells a
refused sequence: every one of the inlined text has words in more than one run, or in a comment that
is not read as it stands. -/
def HiddenBySplit : Prop :=
  ∃ behind, Lexes backslashStrings wrapping.tail behind [] ∧
    ¬ Acceptable backslashStrings false wrapping.inlined ∧
    ¬ wrapping.IllegibleComment behind ∧
    ∀ inside tokens, wrapping.Run behind inside tokens → ¬ Forbidden inside tokens

end Runs

/-! ## Pairs of words -/

/-- The pairs of words that are refused next to each other. -/
def refusedPairs : List (Bytes × Bytes) :=
  (ascii "EXECUTE", ascii "IMMEDIATE") ::
    storagePairs.flatMap fun pair => pair.1.flatMap fun previous => pair.2.map (previous, ·)

/-- Where the boundaries of comments fall around a pair of words. -/
inductive Boundary
  | outside
  | around
  | first
  | second
  | each

/-- The pair in a text of its own. -/
def Boundary.text (pair : Bytes × Bytes) : Boundary → Bytes
  | .outside => pair.1 ++ ascii " " ++ pair.2
  | .around => ascii "/*!50100 " ++ pair.1 ++ ascii " " ++ pair.2 ++ ascii " */"
  | .first => ascii "/*!50100 " ++ pair.1 ++ ascii " */ " ++ pair.2
  | .second => pair.1 ++ ascii " /*!50100 " ++ pair.2 ++ ascii " */"
  | .each =>
    ascii "/*!50100 " ++ pair.1 ++ ascii " */ /*!50100 " ++ pair.2 ++ ascii " */"

/-- Both words stand in one run, or the second counts alone where it stands. -/
def Boundary.seen (pair : Bytes × Bytes) : Boundary → Bool
  | .outside | .around => true
  | .first => false
  | .second | .each => fragmentWords.contains pair.2

/-- `DROP /*!50100 DATABASE */ tenant_db`: the second word stands inside, and is a hint. -/
def databaseInside : Wrapping Protocol.mysql.sqlBackslashStrings where
  pieces := [{
    outer := {
      bytes := ascii "DROP "
      events := [.token (.identifier ⟨ascii "DROP", by decide⟩)]
      lexes := fun _ _ _ => .event (by decide) rfl (.space (by decide) (.done _)) }
    comment := {
      mariadb := false
      version := ascii "50100"
      body := {
        bytes := ascii " DATABASE "
        events := [.token (.identifier ⟨ascii "DATABASE", by decide⟩)]
        lexes := fun _ _ _ =>
          .space (by decide) (.event (by decide) rfl (.space (by decide) (.done _))) }
      kept := { bytes := ascii "!50100 database " }
      digits := List.all_eq_true.mp rfl
      closes := rfl } }]
  tail := ascii " tenant_db"

/-- `/*!50100 DROP */ DATABASE tenant_db`: the first word stands inside, and hints at nothing. -/
def dropInside : Wrapping Protocol.mysql.sqlBackslashStrings where
  pieces := [{
    outer := { bytes := [], events := [], lexes := fun _ _ _ => .done _ }
    comment := {
      mariadb := false
      version := ascii "50100"
      body := {
        bytes := ascii " DROP "
        events := [.token (.identifier ⟨ascii "DROP", by decide⟩)]
        lexes := fun _ _ _ =>
          .space (by decide) (.event (by decide) rfl (.space (by decide) (.done _))) }
      kept := { bytes := ascii "!50100 drop " }
      digits := List.all_eq_true.mp rfl
      closes := rfl } }]
  tail := ascii " DATABASE tenant_db"

end DatabasesEverywhere.Sql
