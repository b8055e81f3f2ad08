import DatabasesEverywhere.Sql.Scan

/-!
# Sql/MysqlPolicy — the storage boundary of a live shared MySQL session

`check_shared_mysql_command` scans a command with an observer that keeps the last four words of a
run of identifiers and looks for refused sequences, and scans the body of every executable comment
as a fragment of its own, where `DATABASE`, `SCHEMA` and `DIRECTORY` are refused alone.

The body of a comment is shorter than the text around it, so the length of the text bounds how deep
the checks nest.
-/

open Foundations

namespace DatabasesEverywhere.Sql

/-! ## Words -/

def isKeyword (expected : Bytes) : SqlToken → Bool
  | .identifier word => eqIgnoreAsciiCase word.bytes expected
  | _ => false

variable (tokens : List SqlToken)

def hasKeyword (expected : Bytes) : Bool :=
  tokens.any (isKeyword expected)

/-- The tokens start with a window that spells the words. -/
def startsWithKeywords : List SqlToken → List Bytes → Bool
  | _, [] => true
  | [], _ :: _ => false
  | token :: tokens, word :: words => isKeyword word token && startsWithKeywords tokens words

def hasKeywordSequence (expected : List Bytes) : Bool :=
  tokens.tails.any fun window => startsWithKeywords window expected

def toUppercase (word : Bytes) : Bytes := word.map toAsciiUppercase

def statementWords : List Bytes :=
  tokens.filterMap fun
    | .identifier word => some (toUppercase word.bytes)
    | _ => none

def isAnyKeyword (word : Bytes) (expected : List Bytes) : Bool :=
  expected.any (eqIgnoreAsciiCase word)

def createModifiers : List Bytes :=
  [ascii "OR", ascii "REPLACE", ascii "TEMP", ascii "TEMPORARY", ascii "UNLOGGED", ascii "GLOBAL",
    ascii "LOCAL", ascii "UNIQUE"]

/-- The word behind the first and the modifiers after it. -/
def createObject (words : List Bytes) : Option Bytes :=
  (words.tail.dropWhile fun word => isAnyKeyword word createModifiers).head?

/-! ## Violations -/

inductive MysqlStorageViolation
  | storageEscape
  | dynamicSql
  deriving DecidableEq

inductive MysqlCommandPolicyError
  | storageEscape
  | dynamicSql
  | invalid
  deriving DecidableEq

def MysqlCommandPolicyError.message : MysqlCommandPolicyError → String
  | .storageEscape =>
    "shared MySQL-family tenants cannot change database or physical storage layout"
  | .dynamicSql => "shared MySQL-family tenants cannot execute dynamically prepared SQL"
  | .invalid => "the shared MySQL-family command could not be validated safely"

/-- Words that place data, refused wherever they stand. -/
def placementWords : List Bytes :=
  [ascii "DATAFILE", ascii "UNDOFILE", ascii "REDOFILE", ascii "FILE_NAME", ascii "TABLE_TYPE",
    ascii "SECONDARY_ENGINE", ascii "ENGINE_ATTRIBUTE", ascii "SECONDARY_ENGINE_ATTRIBUTE"]

def databaseVerbs : List Bytes := [ascii "CREATE", ascii "ALTER", ascii "DROP", ascii "RENAME"]

def databaseObjects : List Bytes := [ascii "DATABASE", ascii "SCHEMA"]

/-- Words refused alone. -/
def storageWords : List Bytes := ascii "TABLESPACE" :: placementWords

/-- Words refused alone in a fragment. -/
def fragmentWords : List Bytes := [ascii "DATABASE", ascii "SCHEMA", ascii "DIRECTORY"]

/-- Pairs of words refused next to each other: any of the first with any of the second. -/
def storagePairs : List (List Bytes × List Bytes) :=
  [(databaseVerbs, databaseObjects),
    ([ascii "DATA", ascii "INDEX"], [ascii "DIRECTORY"]),
    ([ascii "LOGFILE"], [ascii "GROUP"]),
    ([ascii "STORAGE"], [ascii "DISK", ascii "MEMORY"]),
    ([ascii "IMPORT"], [ascii "TABLE"])]

/-- `keywords` are the last words, the current one at the end. -/
def mysqlKeywordViolation (keywords : List Bytes) (executableFragment : Bool) :
    Option MysqlStorageViolation :=
  let last (offset : ℕ) := keywords.reverse[offset]?
  match last 0 with
  | none => none
  | some current =>
    if current = ascii "PREPARE" ∨
        (last 1 = some (ascii "EXECUTE") ∧ current = ascii "IMMEDIATE") then
      some .dynamicSql
    else if current ∈ storageWords ∨ (executableFragment = true ∧ current ∈ fragmentWords) ∨
        (∃ pair ∈ storagePairs, (∃ previous ∈ pair.1, last 1 = some previous) ∧
          current ∈ pair.2) ∨
        (current ∈ databaseObjects ∧ last 1 = some (ascii "REPLACE") ∧
          last 2 = some (ascii "OR") ∧ last 3 = some (ascii "CREATE")) then
      some .storageEscape
    else none

def mysqlDatabaseDdl (words : List Bytes) : Bool :=
  match words.head? with
  | none => false
  | some command =>
    databaseObjects.any fun object =>
      (databaseVerbs.any fun verb => hasKeywordSequence tokens [verb, object]) ||
        (eqIgnoreAsciiCase command (ascii "CREATE") && createObject words == some object)

def mysqlStoragePolicyViolation (statement : Statement) (executableFragment : Bool) :
    Option MysqlStorageViolation :=
  let tokens := statement.tokens
  let words := statementWords tokens
  if hasKeyword tokens (ascii "PREPARE") ||
      hasKeywordSequence tokens [ascii "EXECUTE", ascii "IMMEDIATE"] then
    some .dynamicSql
  else if executableFragment &&
      [ascii "DATABASE", ascii "SCHEMA", ascii "TABLESPACE", ascii "DIRECTORY"].any
        (hasKeyword tokens) then
    some .storageEscape
  else if mysqlDatabaseDdl tokens words then some .storageEscape
  else if hasKeyword tokens (ascii "TABLESPACE") ||
      hasKeywordSequence tokens [ascii "DATA", ascii "DIRECTORY"] ||
      hasKeywordSequence tokens [ascii "INDEX", ascii "DIRECTORY"] ||
      hasKeywordSequence tokens [ascii "LOGFILE", ascii "GROUP"] ||
      hasKeywordSequence tokens [ascii "STORAGE", ascii "DISK"] ||
      hasKeywordSequence tokens [ascii "STORAGE", ascii "MEMORY"] ||
      hasKeywordSequence tokens [ascii "IMPORT", ascii "TABLE"] ||
      placementWords.any (hasKeyword tokens) then
    some .storageEscape
  else none

/-! ## Executable comments -/

def trimLeading (skip : UInt8 → Bool) (bytes : Bytes) : Bytes := bytes.dropWhile skip

/-- What follows the mark of an executable comment. -/
def stripExecutableMark : Bytes → Option Bytes
  | 0x21 :: body | 0x4d :: 0x21 :: body | 0x6d :: 0x21 :: body => some body
  | _ => none

/-- The body of an executable comment without its version; `none` for an ordinary one.  The error is
`ExecutableCommentTooLarge`. -/
def executableMysqlComment (comment : SqlComment) : Except Unit (Option Bytes) :=
  match stripExecutableMark (trimLeading isAsciiWhitespace comment.bytes) with
  | none => .ok none
  | some body =>
    if comment.truncated then .error ()
    else
      .ok (some (trimLeading isAsciiWhitespace
        (trimLeading isAsciiDigit (trimLeading isAsciiWhitespace body))))

def isMysqldumpSandboxDirective (body : Bytes) : Bool :=
  (ascii "\\- enable the sandbox mode").isPrefixOf body

/-! ## The check -/

structure MysqlCommandState where
  keywords : List Bytes := []
  violation : Option MysqlStorageViolation := none
  deriving DecidableEq

/-- `MysqlCommandObserver`; `check` is the check of the body of an executable comment. -/
def mysqlCommandObserver (check : Bytes → Except MysqlCommandPolicyError Unit)
    (executableFragment : Bool) : SqlObserver MysqlCommandState MysqlCommandPolicyError where
  fromInspection _ := .invalid
  comment state comment :=
    match executableMysqlComment comment with
    | .error _ => .error .invalid
    | .ok none => .ok state
    | .ok (some body) =>
      if isMysqldumpSandboxDirective body then .ok state
      else do
        check body
        return state
  token state token :=
    match token with
    | .identifier word =>
      let kept := if state.keywords.length = 4 then state.keywords.tail else state.keywords
      let keywords := kept ++ [toUppercase word.bytes]
      .ok
        { keywords
          violation :=
            state.violation.or (mysqlKeywordViolation keywords executableFragment) }
    | _ => .ok { state with keywords := [] }
  statement state _ statement :=
    match state.violation.or (mysqlStoragePolicyViolation statement executableFragment) with
    | some .dynamicSql => .error .dynamicSql
    | some .storageEscape => .error .storageEscape
    | none => .ok { keywords := [], violation := none }

/-- The fuel bounds how deep executable comments nest. -/
def checkNested (protocol : Protocol) :
    (nesting : ℕ) → Bool → Bytes → Except MysqlCommandPolicyError Unit
  | 0, _, _ => .error .invalid
  | nesting + 1, executableFragment, sql =>
    if protocol.family.isMysql then do
      let _ ← scanSql protocol
        (mysqlCommandObserver (checkNested protocol nesting true) executableFragment) sql {}
      return ()
    else .error .invalid

def checkSharedMysqlCommand (sql : Bytes) (protocol : Protocol) (executableFragment : Bool) :
    Except MysqlCommandPolicyError Unit :=
  checkNested protocol (sql.length + 1) executableFragment sql

def validateSharedMysqlCommand (sql : Bytes) (protocol : Protocol) :
    Except MysqlCommandPolicyError Unit :=
  checkSharedMysqlCommand sql protocol false

end DatabasesEverywhere.Sql
