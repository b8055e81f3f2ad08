import DatabasesEverywhere.Sql.SharedImport

/-!
# Sql/SharedLists — lists of objects in a shared MySQL import

    DROP TABLE IF EXISTS `db₁`.`t₁` , `db₂`.`t₂` , …
               ╰skipped╯ ╰checked─╯   ╰─not looked at

The validator looks at the name behind a keyword only.  A list of one plain name is in the target
database if the statement is accepted; a list of two or more names can have any others behind the
first (`listed_in_target_iff`).
-/

open Foundations

namespace DatabasesEverywhere.Sql

/-! ## Lists of objects -/

/-- `db.table` as the lexer reads it, and what stands behind it: an alias or a lock mode. -/
structure ListedObject where
  database : List SqlToken
  table : List SqlToken
  behind : List SqlToken := []

/-- The tokens of the object in its list. -/
def ListedObject.tokens (object : ListedObject) : List SqlToken :=
  object.database ++ .dot :: (object.table ++ object.behind)

/-- The objects with commas between them. -/
def listTokens : List ListedObject → List SqlToken
  | [] => []
  | [object] => object.tokens
  | object :: objects => object.tokens ++ .other :: listTokens objects

/-- A name that the validator can look at: the lexer reads both parts as one identifier each, and
the database is not one of the words passed over. -/
structure ListedObject.Plain (object : ListedObject) (name : Text) : Prop where
  database : ∃ token, object.database = [token] ∧ identifierOf token = some name
  table : ∃ token second, object.table = [token] ∧ identifierOf token = some second
  lookedAt : isAnyKeyword name.bytes objectModifiers = false

/-- The statements that list objects. -/
inductive ListForm
  | dropTable
  | truncateTable
  | lockTables
  | fromClause
  deriving DecidableEq

/-- The first word of the statement, where the form says it. -/
def ListForm.command : ListForm → Option Bytes
  | .dropTable => some (ascii "DROP")
  | .truncateTable => some (ascii "TRUNCATE")
  | .lockTables => some (ascii "LOCK")
  | .fromClause => none

/-- The word in front of the list. -/
def ListForm.keyword : ListForm → Bytes
  | .dropTable | .truncateTable => ascii "TABLE"
  | .lockTables => ascii "TABLES"
  | .fromClause => ascii "FROM"

/-- The tokens are a statement of the form that lists the objects. -/
structure Listing (form : ListForm) (tokens : List SqlToken) (objects : List ListedObject) :
    Prop where
  command : ∀ command ∈ form.command, (tokens.head?).any (isKeyword command) = true
  list : ∃ before keyword modifiers after,
    tokens = before ++ .identifier keyword :: (modifiers ++ (listTokens objects ++ after)) ∧
      eqIgnoreAsciiCase keyword.bytes form.keyword = true ∧
      ∀ modifier ∈ modifiers, isNameIn [ascii "IF", ascii "EXISTS"] modifier = true

/-- The statement is not rejected, wherever in the import it stands. -/
def Accepted (protocol : Protocol) (target : Text) (statement : Statement) : Prop :=
  ∃ state next, validateStatement protocol target state statement = .ok next

/-! ## What is looked at -/

variable {target : Text} {tokens : List SqlToken}

/-- The statement's objects are all in the target. -/
theorem requireMysqlQualifiers_eq_ok {done : Unit} :
    requireMysqlQualifiers target tokens = .ok done ↔
      ∀ object ∈ importObjects tokens,
        isMysqlSystemDatabase object.1.bytes = false ∧ object.1 = target := by
  constructor
  · intro h object hobject
    have hcheck := forM_eq_ok.mp h object (mem_importObjectQualifiers.mpr hobject)
    obtain ⟨_, hsystem, htarget⟩ := bind_eq_ok.mp hcheck
    rw [rejectIf_eq_ok] at hsystem htarget
    exact ⟨hsystem, by simpa using htarget⟩
  · intro h
    apply forM_eq_ok.mpr
    intro object hobject
    obtain ⟨hsystem, htarget⟩ := h object (mem_importObjectQualifiers.mp hobject)
    exact bind_eq_ok.mpr ⟨(), rejectIf_eq_ok.mpr hsystem, rejectIf_eq_ok.mpr (by simp [htarget])⟩

variable {words : List Bytes}

theorem validateMysql_eq_ok {state next : SharedState} {statement : Statement}
    (h : validateMysql target state statement words = .ok next) :
    requireMysqlQualifiers target statement.tokens = .ok () := by
  obtain ⟨_, -, h⟩ := bind_eq_ok.mp h
  obtain ⟨_, -, h⟩ := bind_eq_ok.mp h
  obtain ⟨_, -, h⟩ := bind_eq_ok.mp h
  obtain ⟨_, -, h⟩ := bind_eq_ok.mp h
  obtain ⟨_, -, h⟩ := bind_eq_ok.mp h
  obtain ⟨_, hqualifiers, -⟩ := bind_eq_ok.mp h
  exact hqualifiers

variable {keyword : Text}

theorem objectBehind_keyword
    (hkeyword : toUppercase keyword.bytes ∈ objectKeywords) {modifiers : List SqlToken}
    (hmodifiers : ∀ modifier ∈ modifiers, isNameIn objectModifiers modifier = true)
    {object : ListedObject} {name : Text} (hplain : object.Plain name) (after : List SqlToken) :
    ∃ second, objectBehind (.identifier keyword :: (modifiers ++ (object.tokens ++ after))) =
      some (name, second) := by
  obtain ⟨⟨first, hdatabase, hfirst⟩, ⟨third, second, htable, hsecond⟩, hmodifier⟩ := hplain
  have hstop : ¬ isNameIn objectModifiers first = true := by
    rw [isNameIn, hfirst, Option.any_some, hmodifier]
    exact Bool.false_ne_true
  refine ⟨second, ?_⟩
  rw [objectBehind, if_pos (List.contains_iff_mem.mpr hkeyword),
    List.dropWhile_append_of_pos hmodifiers, ListedObject.tokens, hdatabase, htable,
    List.singleton_append, List.cons_append, List.dropWhile_cons_of_neg hstop]
  simp [parseQualifiedIdentifier, hfirst, hsecond]

variable {form : ListForm}

theorem toUppercase_keyword (h : eqIgnoreAsciiCase keyword.bytes form.keyword = true) :
    toUppercase keyword.bytes ∈ objectKeywords := by
  rw [eqIgnoreAsciiCase_iff] at h
  rw [toUppercase, h]
  cases form <;> decide

theorem isNameIn_objectModifiers {modifier : SqlToken}
    (h : isNameIn [ascii "IF", ascii "EXISTS"] modifier = true) :
    isNameIn objectModifiers modifier = true := by
  obtain ⟨name, hname, hword⟩ := (Option.any_eq_true _ _).mp h
  apply (Option.any_eq_true _ _).mpr
  refine ⟨name, hname, ?_⟩
  obtain ⟨expected, hmem, heq⟩ := List.any_eq_true.mp hword
  refine List.any_eq_true.mpr ⟨expected, ?_, heq⟩
  rcases List.mem_cons.mp hmem with rfl | hmem
  · decide
  · obtain rfl := List.mem_singleton.mp hmem
    decide

variable {protocol : Protocol} {objects : List ListedObject}

/-- **The first name of a list is in the target.** -/
theorem first_listed_in_target (hprotocol : protocol.family = .mysql)
    {statement : Statement} {object : ListedObject} {name : Text}
    (hplain : object.Plain name) (hlisting : Listing form statement.tokens (object :: objects))
    (haccepted : Accepted protocol target statement) : name = target := by
  obtain ⟨before, keyword, modifiers, after, htokens, hkeyword, hmodifiers⟩ := hlisting.list
  obtain ⟨state, next, h⟩ := haccepted
  obtain ⟨_, -, h⟩ := bind_eq_ok.mp h
  obtain ⟨_, -, h⟩ := bind_eq_ok.mp h
  -- the keyword is a word, so the statement is looked at
  have hword : toUppercase keyword.bytes ∈ statementWords statement.tokens := by
    rw [htokens]
    exact List.mem_filterMap.mpr ⟨.identifier keyword, by simp, rfl⟩
  simp only at h
  split at h
  · next hempty =>
    rw [List.isEmpty_iff] at hempty
    rw [hempty] at hword
    cases hword
  rw [hprotocol] at h
  have hobjects := requireMysqlQualifiers_eq_ok.mp (validateMysql_eq_ok h)
  obtain ⟨rest, hrest⟩ : ∃ rest, listTokens (object :: objects) = object.tokens ++ rest := by
    cases objects with
    | nil => exact ⟨[], (List.append_nil _).symm⟩
    | cons second objects => exact ⟨_, rfl⟩
  obtain ⟨second, hsecond⟩ := objectBehind_keyword (toUppercase_keyword hkeyword)
    (fun modifier hmodifier => isNameIn_objectModifiers (hmodifiers modifier hmodifier))
    hplain (rest ++ after)
  have hmem : (name, second) ∈ importObjects statement.tokens := by
    refine List.mem_append_right _ (List.mem_filterMap.mpr ⟨_, ?_, hsecond⟩)
    rw [List.mem_tails, htokens, hrest, List.append_assoc]
    exact List.suffix_append _ _
  exact (hobjects _ hmem).2

/-! ## What is not looked at -/

/-- The words of the statements below. -/
def harmlessWords : List Bytes :=
  [ascii "DROP", ascii "TRUNCATE", ascii "LOCK", ascii "TABLE", ascii "TABLES", ascii "READ",
    ascii "CREATE", ascii "VIEW", ascii "AS", ascii "SELECT", ascii "FROM"]

def Harmless (tokens : List SqlToken) : Prop :=
  ∀ word, .identifier word ∈ tokens → toUppercase word.bytes ∈ harmlessWords

variable {token : SqlToken}

section Harmless

variable {word : Bytes}

theorem Harmless.mem_words (h : Harmless tokens) (hword : word ∈ statementWords tokens) :
    word ∈ harmlessWords := by
  obtain ⟨token, htoken, heq⟩ := List.mem_filterMap.mp hword
  cases token with
  | identifier text =>
    cases heq
    exact h text htoken
  | _ => cases heq

variable {expected : List Bytes}

theorem Harmless.containsAny (h : Harmless tokens)
    (hexpected : ∀ word ∈ harmlessWords, isAnyKeyword word expected = false) :
    containsAny (statementWords tokens) expected = false := by
  rw [Sql.containsAny, List.any_eq_false]
  intro word hword
  rw [hexpected word (h.mem_words hword)]
  exact Bool.false_ne_true

theorem Harmless.not_isKeyword (h : Harmless tokens) {expected : Bytes}
    (hexpected : toUppercase expected ∉ harmlessWords) (htoken : token ∈ tokens) :
    isKeyword expected token = false := by
  cases token with
  | identifier word =>
    rw [isKeyword, Bool.eq_false_iff, ne_eq, eqIgnoreAsciiCase_iff]
    intro heq
    have hword := h word htoken
    rw [toUppercase, heq] at hword
    exact hexpected hword
  | _ => rfl

theorem Harmless.hasKeyword (h : Harmless tokens) {expected : Bytes}
    (hexpected : toUppercase expected ∉ harmlessWords) : hasKeyword tokens expected = false := by
  rw [Sql.hasKeyword, List.any_eq_false]
  intro token htoken
  rw [h.not_isKeyword hexpected htoken]
  exact Bool.false_ne_true

theorem exists_keyword_of_startsWithKeywords {window : List SqlToken}
    (h : startsWithKeywords window words = true) (hword : word ∈ words) :
    ∃ token ∈ window, isKeyword word token = true := by
  induction words generalizing window with
  | nil => cases hword
  | cons first words ih =>
    cases window with
    | nil => cases h
    | cons token window =>
      rw [startsWithKeywords, Bool.and_eq_true] at h
      rcases List.mem_cons.mp hword with rfl | hword
      · exact ⟨token, List.mem_cons_self, h.1⟩
      · obtain ⟨found, hfound, hkeyword⟩ := ih h.2 hword
        exact ⟨found, List.mem_cons_of_mem _ hfound, hkeyword⟩

theorem Harmless.hasKeywordSequence (h : Harmless tokens) (hword : word ∈ words)
    (hexpected : toUppercase word ∉ harmlessWords) : hasKeywordSequence tokens words = false := by
  rw [Sql.hasKeywordSequence, List.any_eq_false]
  intro window hwindow hstarts
  obtain ⟨token, htoken, hkeyword⟩ := exists_keyword_of_startsWithKeywords hstarts hword
  have hmem := ((List.mem_tails _ _).mp hwindow).subset htoken
  rw [h.not_isKeyword hexpected hmem] at hkeyword
  cases hkeyword

theorem Harmless.mysqlDatabaseDdl (h : Harmless tokens) :
    mysqlDatabaseDdl tokens (statementWords tokens) = false := by
  rw [Sql.mysqlDatabaseDdl]
  split
  · rfl
  rw [List.any_eq_false]
  intro object hobject
  have hexpected : toUppercase object ∉ harmlessWords ∧ object ∉ harmlessWords := by
    revert object
    decide
  rw [Bool.or_eq_true, not_or]
  constructor
  · rw [List.any_eq_true]
    rintro ⟨verb, -, hsequence⟩
    rw [h.hasKeywordSequence (by simp) hexpected.1] at hsequence
    cases hsequence
  · rw [Bool.and_eq_true, beq_iff_eq]
    rintro ⟨-, hcreate⟩
    have hmem := List.mem_of_mem_head? (Option.mem_def.mpr hcreate)
    exact hexpected.2 (h.mem_words
      (List.mem_of_mem_tail ((List.dropWhile_suffix _).subset hmem)))

variable {statement : Statement}

theorem Harmless.mysqlStoragePolicyViolation (h : Harmless statement.tokens) :
    mysqlStoragePolicyViolation statement false = none := by
  rw [Sql.mysqlStoragePolicyViolation]
  have hplacement : placementWords.any (Sql.hasKeyword statement.tokens) = false := by
    rw [List.any_eq_false]
    intro word hword
    have hexpected : toUppercase word ∉ harmlessWords := by
      revert word
      decide
    rw [h.hasKeyword hexpected]
    exact Bool.false_ne_true
  have hword : ∀ word ∈ [ascii "PREPARE", ascii "TABLESPACE"],
      Sql.hasKeyword statement.tokens word = false := by
    intro word hword
    apply h.hasKeyword
    revert word
    decide
  have hsequence : ∀ first ∈ [ascii "EXECUTE", ascii "DATA", ascii "INDEX", ascii "LOGFILE",
      ascii "STORAGE", ascii "IMPORT"], ∀ second,
      Sql.hasKeywordSequence statement.tokens [first, second] = false := by
    intro first hfirst second
    apply h.hasKeywordSequence List.mem_cons_self
    revert first
    decide
  simp [h.mysqlDatabaseDdl, hplacement, hword, hsequence]

/-- Without the word there is no engine to check. -/
theorem validateEngine_eq_ok {allowed : List Bytes} {label : Bytes} {depth : ℕ} {found : Bool}
    (h : Sql.hasKeyword tokens (ascii "ENGINE") = false) :
    validateEngine allowed label depth found tokens = .ok found := by
  rw [Sql.hasKeyword, List.any_eq_false] at h
  induction tokens generalizing depth with
  | nil => rfl
  | cons token tokens ih =>
    obtain ⟨htoken, hrest⟩ := List.forall_mem_cons.mp h
    cases token with
    | openParen => exact ih hrest
    | closeParen => exact ih hrest
    | _ =>
      rw [validateEngine, if_neg fun hengine => htoken hengine.2.1]
      · exact ih hrest
      · exact fun heq => by cases heq
      · exact fun heq => by cases heq

theorem rejectIf_false (issue : SharedSqlIssue) (message : Bytes) :
    rejectIf false issue message = .ok () :=
  rfl

/-- A statement of harmless words is rejected only for its qualifiers, its namespace or its
command. -/
theorem Harmless.validateMysql {state : SharedState} (h : Harmless statement.tokens)
    (hnamespace : parseNamespace statement.tokens = none)
    (hqualifiers : requireMysqlQualifiers target statement.tokens = .ok ())
    (hcommand : validateMysqlCommand target statement.tokens (statementWords statement.tokens)
      ((statementWords statement.tokens).headD []) = .ok ())
    (hwords : statementWords statement.tokens ≠ []) :
    validateMysql target state statement (statementWords statement.tokens) = .ok state := by
  have hhead : (statementWords statement.tokens).headD [] ∈ harmlessWords := by
    obtain ⟨first, rest, heq⟩ := List.exists_cons_of_ne_nil hwords
    exact h.mem_words (by rw [heq]; exact List.mem_cons_self)
  have hload : eqIgnoreAsciiCase ((statementWords statement.tokens).headD []) (ascii "LOAD") =
      false := by
    revert hhead
    generalize (statementWords statement.tokens).headD [] = command
    revert command
    decide
  have hprivileged : ∀ objects, (∀ word ∈ harmlessWords, isAnyKeyword word objects = false) →
      privilegedObjectCommand ((statementWords statement.tokens).headD [])
        (statementWords statement.tokens) objects = false := by
    intro objects hobjects
    have htail : Sql.containsAny (statementWords statement.tokens).tail objects = false := by
      rw [Sql.containsAny, List.any_eq_false]
      intro word hword
      rw [hobjects word (h.mem_words (List.mem_of_mem_tail hword))]
      exact Bool.false_ne_true
    rw [privilegedObjectCommand, htail, Bool.and_false]
  rw [Sql.validateMysql, h.mysqlDatabaseDdl, h.mysqlStoragePolicyViolation, hload]
  have hcommands : ∀ expected, (∀ word ∈ harmlessWords, isAnyKeyword word expected = false) →
      isAnyKeyword ((statementWords statement.tokens).headD []) expected = false :=
    fun expected hexpected => hexpected _ hhead
  rw [h.containsAny (by decide), h.containsAny (by decide), h.containsAny (by decide),
    hprivileged _ (by decide), hcommands _ (by decide), hcommands _ (by decide)]
  simp only [Option.isSome_none, Bool.or_self, Bool.false_and, rejectIf_false, ok_bind,
    noteMysqlNamespace, hnamespace, hqualifiers,
    validateEngine_eq_ok (h.hasKeyword (by decide)), hcommand]
  rfl

end Harmless

/-! ## Statements that are accepted -/

/-- The token is no word that an object is looked for behind. -/
def Quiet (token : SqlToken) : Prop :=
  ∀ word, token = .identifier word → toUppercase word.bytes ∉ objectKeywords

theorem filterMap_objectBehind_append {quiet : List SqlToken} (h : ∀ token ∈ quiet, Quiet token)
    (tokens : List SqlToken) :
    (quiet ++ tokens).tails.filterMap objectBehind = tokens.tails.filterMap objectBehind := by
  induction quiet with
  | nil => rfl
  | cons token quiet ih =>
    obtain ⟨htoken, hrest⟩ := List.forall_mem_cons.mp h
    have hnone : objectBehind (token :: (quiet ++ tokens)) = none := by
      cases token with
      | identifier word =>
        rw [objectBehind, if_neg (List.contains_iff_mem.not.mpr (htoken word rfl))]
      | _ => rfl
    rw [List.cons_append, List.tails_cons, List.filterMap_cons_none hnone, ih hrest]

namespace ListForm

/-- What stands in front of the keyword. -/
def before : ListForm → List SqlToken
  | .dropTable => [.identifier ⟨ascii "drop", by decide⟩]
  | .truncateTable => [.identifier ⟨ascii "TRUNCATE", by decide⟩]
  | .lockTables => [.identifier ⟨ascii "LOCK", by decide⟩]
  | .fromClause =>
    [.identifier ⟨ascii "CREATE", by decide⟩, .identifier ⟨ascii "VIEW", by decide⟩,
      .quotedIdentifier ⟨ascii "v", by decide⟩, .identifier ⟨ascii "AS", by decide⟩,
      .identifier ⟨ascii "SELECT", by decide⟩, .quotedIdentifier ⟨ascii "x", by decide⟩]

/-- The word in front of the list, as it is written. -/
def keywordText : ListForm → Text
  | .dropTable | .truncateTable => ⟨ascii "TABLE", by decide⟩
  | .lockTables => ⟨ascii "TABLES", by decide⟩
  | .fromClause => ⟨ascii "FROM", by decide⟩

/-- The tokens of a statement of the form. -/
def listing (form : ListForm) (objects : List ListedObject) : List SqlToken :=
  form.before ++ .identifier form.keywordText :: listTokens objects

end ListForm

/-- A table of the database, both names quoted. -/
def quotedObject (database : Text) : ListedObject where
  database := [.quotedIdentifier database]
  table := [.quotedIdentifier ⟨ascii "items", by decide⟩]

/-- The statement that the scan gathers from the tokens. -/
def gather (tokens : List SqlToken) : Statement := tokens.foldl Statement.push {}

/-- Another database than the target. -/
def foreignDatabase (target : Text) : Text :=
  if target.bytes = ascii "other" then ⟨ascii "elsewhere", by decide⟩ else ⟨ascii "other", by decide⟩

theorem foreignDatabase_ne (target : Text) : foreignDatabase target ≠ target := by
  rw [foreignDatabase]
  split
  · next h =>
    rintro rfl
    exact absurd h (by decide)
  · next h =>
    rintro rfl
    exact h rfl

theorem foreignDatabase_lookedAt (target : Text) :
    isAnyKeyword (foreignDatabase target).bytes objectModifiers = false := by
  rw [foreignDatabase]
  split <;> decide

theorem plain_quotedObject {database : Text}
    (h : isAnyKeyword database.bytes objectModifiers = false) :
    (quotedObject database).Plain database :=
  ⟨⟨_, rfl, rfl⟩, ⟨_, _, rfl, rfl⟩, h⟩

/-- Up to the limit the scan keeps every token. -/
theorem gather_eq (h : tokens.length ≤ maxSqlTokensPerStatement) :
    (gather tokens).tokens = tokens ∧ (gather tokens).truncated = false := by
  induction tokens using List.reverseRecOn with
  | nil => exact ⟨rfl, rfl⟩
  | append_singleton tokens token ih =>
    rw [List.length_append, List.length_singleton] at h
    obtain ⟨htokens, htruncated⟩ := ih (by omega)
    have hlt : tokens.length < maxSqlTokensPerStatement := by omega
    have hpush : gather (tokens ++ [token]) = (gather tokens).push token := by
      rw [gather, List.foldl_append]
      rfl
    rw [hpush]
    cases token <;> simp [Statement.push, hlt, htokens, htruncated]

section Constructed

variable {databases : List Text} {database : Text}

theorem listTokens_quoted (first second : Text) (databases : List Text) :
    listTokens ((first :: second :: databases).map quotedObject) =
      (quotedObject first).tokens ++
        .other :: listTokens ((second :: databases).map quotedObject) :=
  rfl

/-- A list of quoted names has no words. -/
theorem identifier_notMem_listTokens (word : Text) (databases : List Text) :
    .identifier word ∉ listTokens (databases.map quotedObject) := by
  induction databases with
  | nil => simp [listTokens]
  | cons first databases ih =>
    cases databases with
    | nil => simp [listTokens, ListedObject.tokens, quotedObject]
    | cons second databases =>
      rw [listTokens_quoted, List.mem_append, List.mem_cons, not_or, not_or]
      exact ⟨by simp [ListedObject.tokens, quotedObject], by simp, ih⟩

theorem harmless_listing (databases : List Text) :
    Harmless (form.listing (databases.map quotedObject)) := by
  intro word hword
  rcases List.mem_append.mp hword with hbefore | hrest
  · have hall : ∀ token ∈ form.before, ∀ word, token = .identifier word →
        toUppercase word.bytes ∈ harmlessWords := by
      cases form <;> simp [ListForm.before] <;> decide
    exact hall _ hbefore word rfl
  · rcases List.mem_cons.mp hrest with hkeyword | hlist
    · cases hkeyword
      cases form <;> decide
    · exact absurd hlist (identifier_notMem_listTokens word databases)

theorem quiet_before : ∀ token ∈ form.before, Quiet token := by
  have hall : ∀ token ∈ form.before, ∀ word, token = .identifier word →
      toUppercase word.bytes ∉ objectKeywords := by
    cases form <;> simp [ListForm.before] <;> decide
  exact hall

/-- Of the objects listed, the first is the only one that the validator sees. -/
theorem importObjects_listing (h : isAnyKeyword database.bytes objectModifiers = false)
    (databases : List Text) :
    ∃ second, importObjects (form.listing ((database :: databases).map quotedObject)) =
      [(database, second)] := by
  have hlist : ∀ token ∈ listTokens ((database :: databases).map quotedObject), Quiet token := by
    rintro token htoken word rfl
    exact absurd htoken (identifier_notMem_listTokens word _)
  obtain ⟨rest, hrest⟩ : ∃ rest, listTokens ((database :: databases).map quotedObject) =
      (quotedObject database).tokens ++ rest := by
    cases databases with
    | nil => exact ⟨[], (List.append_nil _).symm⟩
    | cons second databases => exact ⟨_, rfl⟩
  have hkeyword : toUppercase form.keywordText.bytes ∈ objectKeywords := by
    cases form <;> decide
  obtain ⟨second, hobject⟩ := objectBehind_keyword hkeyword (fun _ h => absurd h List.not_mem_nil)
    (plain_quotedObject h) rest
  rw [List.nil_append, ← hrest] at hobject
  -- the statement neither creates a table nor inserts into one
  have hparsed : (parseCreateTable (form.listing ((database :: databases).map quotedObject))).or
      (parseInsertTable (form.listing ((database :: databases).map quotedObject))) = none := by
    cases form <;> rfl
  have hnone := filterMap_objectBehind_append hlist []
  rw [List.append_nil] at hnone
  refine ⟨second, ?_⟩
  rw [importObjects, hparsed, List.nil_append, ListForm.listing,
    filterMap_objectBehind_append quiet_before, List.tails_cons,
    List.filterMap_cons_some hobject, hnone]
  rfl

/-- **Any list whose first name is the target is accepted**, if the scan keeps its tokens. -/
theorem accepted_listing (hprotocol : protocol.family = .mysql)
    (hlookedAt : isAnyKeyword target.bytes objectModifiers = false)
    (hsystem : isMysqlSystemDatabase target.bytes = false)
    (hlength : (form.listing ((target :: databases).map quotedObject)).length ≤
      maxSqlTokensPerStatement) :
    Accepted protocol target (gather (form.listing ((target :: databases).map quotedObject))) := by
  obtain ⟨htokens, htruncated⟩ := gather_eq hlength
  have hqualifiers : requireMysqlQualifiers target
      (form.listing ((target :: databases).map quotedObject)) = .ok () := by
    obtain ⟨second, hobjects⟩ := @importObjects_listing form target hlookedAt databases
    rw [requireMysqlQualifiers_eq_ok, hobjects]
    intro object hobject
    obtain rfl := List.mem_singleton.mp hobject
    exact ⟨hsystem, rfl⟩
  have hnamespace : parseNamespace (form.listing ((target :: databases).map quotedObject)) =
      none := by
    cases form <;> rfl
  have hwords : statementWords (form.listing ((target :: databases).map quotedObject)) ≠ [] := by
    cases form <;> exact fun h => by cases h
  have hcommand : validateMysqlCommand target
      (form.listing ((target :: databases).map quotedObject))
      (statementWords (form.listing ((target :: databases).map quotedObject)))
      ((statementWords (form.listing ((target :: databases).map quotedObject))).headD []) =
        .ok () := by
    cases form <;> rfl
  have hharmless := @harmless_listing form (target :: databases)
  rw [← htokens] at hqualifiers hnamespace hwords hcommand hharmless
  refine ⟨{}, {}, ?_⟩
  simp only [validateStatement, htruncated, rejectIf_false, ok_bind,
    List.isEmpty_eq_false_iff.mpr hwords, hprotocol]
  exact hharmless.validateMysql hnamespace hqualifiers hcommand hwords

theorem listing_quoted (databases : List Text) :
    Listing form (form.listing (databases.map quotedObject)) (databases.map quotedObject) where
  command := by
    intro command hcommand
    cases form with
    | fromClause => cases hcommand
    | _ =>
      cases hcommand
      rfl
  list := by
    refine ⟨form.before, form.keywordText, [], [], ?_, ?_, fun _ h => absurd h List.not_mem_nil⟩
    · rw [List.append_nil, List.nil_append]
      rfl
    · cases form <;> decide

theorem length_listing (databases : List Text) :
    (form.listing ((database :: databases).map quotedObject)).length =
      form.before.length + 4 * (database :: databases).length := by
  have hlist : (listTokens ((database :: databases).map quotedObject)).length + 1 =
      4 * (database :: databases).length := by
    induction databases generalizing database with
    | nil => rfl
    | cons second databases ih =>
      have hlength := @ih second
      rw [listTokens_quoted, List.length_append, List.length_cons]
      simp only [List.length_cons, ListedObject.tokens, quotedObject, List.length_append,
        List.length_nil] at hlength ⊢
      omega
  rw [ListForm.listing, List.length_append, List.length_cons, hlist]

end Constructed

/-! ## Which lists are safe -/

/-- **One plain name is in the target, two need not be.**  For lists of `n` plain names the validator
keeps what it promises exactly if `n = 1`, as far as such a list is not cut off by the scan. -/
theorem listed_in_target_iff (form : ListForm) {protocol : Protocol}
    (hprotocol : protocol.family = .mysql) :
    (∀ (target : Text) (statement : Statement) (object : ListedObject) (name : Text),
        object.Plain name → Listing form statement.tokens [object] →
        Accepted protocol target statement → name = target) ∧
      ∀ target : Text, isAnyKeyword target.bytes objectModifiers = false →
        isMysqlSystemDatabase target.bytes = false →
        ∀ n, 1 ≤ n → form.before.length + 4 * n ≤ maxSqlTokensPerStatement →
        ((∀ (statement : Statement) (objects : List (ListedObject × Text)), objects.length = n →
            (∀ object ∈ objects, object.1.Plain object.2) →
            Listing form statement.tokens (objects.map Prod.fst) →
            Accepted protocol target statement →
            ∀ object ∈ objects, object.2 = target) ↔ n = 1) := by
  refine ⟨fun target statement object name hplain hlisting haccepted =>
    first_listed_in_target hprotocol hplain hlisting haccepted, ?_⟩
  intro target hlookedAt hsystem n hpos hfits
  constructor
  · intro hsafe
    by_contra hne
    obtain ⟨databases, hdatabases⟩ : ∃ databases,
        databases = List.replicate (n - 1) (foreignDatabase target) := ⟨_, rfl⟩
    have hcount : (target :: databases).length = n := by
      rw [hdatabases, List.length_cons, List.length_replicate]
      omega
    have hlength : (form.listing ((target :: databases).map quotedObject)).length ≤
        maxSqlTokensPerStatement := by
      rw [length_listing, hcount]
      exact hfits
    have hall := hsafe (gather (form.listing ((target :: databases).map quotedObject)))
      ((target :: databases).map fun database => (quotedObject database, database))
      ((List.length_map _).trans hcount)
    rw [(gather_eq hlength).1, List.map_map] at hall
    have hforeign := hall ?_ (listing_quoted _)
      (accepted_listing hprotocol hlookedAt hsystem hlength)
      (quotedObject (foreignDatabase target), foreignDatabase target) ?_
    · exact foreignDatabase_ne target hforeign
    · intro object hobject
      obtain ⟨database, hdatabase, rfl⟩ := List.mem_map.mp hobject
      rcases List.mem_cons.mp hdatabase with rfl | hdatabase
      · exact plain_quotedObject hlookedAt
      · rw [hdatabases] at hdatabase
        rw [List.eq_of_mem_replicate hdatabase]
        exact plain_quotedObject (foreignDatabase_lookedAt target)
    · refine List.mem_map_of_mem (List.mem_cons_of_mem _ ?_)
      rw [hdatabases]
      exact List.mem_replicate.mpr ⟨by omega, rfl⟩
  · rintro rfl statement objects hcount hplain hlisting haccepted object hobject
    obtain ⟨only, rfl⟩ := List.length_eq_one_iff.mp hcount
    obtain rfl := List.mem_singleton.mp hobject
    exact first_listed_in_target hprotocol (hplain object hobject) hlisting haccepted

/-- A table dropped in the target, as the theorem has it. -/
theorem dropTable_tenant_in_target :
    Accepted .mysql ⟨ascii "tenant", by decide⟩
        (gather (ListForm.dropTable.listing [quotedObject ⟨ascii "tenant", by decide⟩])) ∧
      ∀ target, Accepted .mysql target
        (gather (ListForm.dropTable.listing [quotedObject ⟨ascii "tenant", by decide⟩])) →
        ⟨ascii "tenant", by decide⟩ = target := by
  refine ⟨⟨{}, {}, rfl⟩, fun target haccepted =>
    (listed_in_target_iff .dropTable rfl).1 _ _ _ _ (plain_quotedObject (by decide)) ?_ haccepted⟩
  exact listing_quoted [⟨ascii "tenant", by decide⟩]

/-- The dump is accepted, and its second table is another database's.  One name is not looked at
either if its database is a word that is passed over, is not one identifier for the lexer, or is
taken for a quote in dollars. -/
theorem dropTable_foreign_accepted :
    (∀ dump ∈ [ascii "DROP TABLE tenant.items, other.items", ascii "DROP TABLE only.items",
        ascii "DROP TABLE " ++ [0xc3, 0xb6] ++ ascii "ther.items",
        ascii "DROP TABLE $a$x.items /* $a$ */"],
      validateSharedSqlReader dump .mysql ⟨ascii "tenant", by decide⟩ =
        .ok { statementsChecked := 1, namespaces := [] }) ∧
      ∃ tokens objects, Listing .dropTable tokens objects ∧
        Accepted .mysql ⟨ascii "tenant", by decide⟩ (gather tokens) ∧
        ∃ object ∈ objects, object.Plain ⟨ascii "other", by decide⟩ := by
  have hlength : (ListForm.dropTable.listing ([⟨ascii "tenant", by decide⟩,
      ⟨ascii "other", by decide⟩].map quotedObject)).length ≤ maxSqlTokensPerStatement := by decide
  refine ⟨by decide +kernel, _, _, listing_quoted _,
    accepted_listing rfl (by decide) (by decide) hlength, ?_⟩
  exact ⟨quotedObject ⟨ascii "other", by decide⟩, by simp, plain_quotedObject (by decide)⟩

end DatabasesEverywhere.Sql
