import DatabasesEverywhere.Foundations.Saturating
import DatabasesEverywhere.Sql.Statements

/-!
# Sql/SharedImport — which dumps a tenant of a shared database may import

    dump ──scan──▶ statements ──▶ validatePostgres │ validateMysql │ validateClickhouse
              └──▶ comments   ──▶ executable body: the same validation, nested

A dump is accepted if every statement passes the rules of its engine.  The body of an executable
comment is shorter than the text around it, so the length of the text bounds how deep the validation
nests.  The catalog that the source fills on the way is left out but for the hints about the dialect:
adding to it does not fail.
-/

open Foundations

namespace DatabasesEverywhere.Sql

inductive SharedSqlIssue
  | crossDatabase
  | systemNamespace
  | privilegedStatement
  | externalAccess
  | unsupportedStatement
  | ambiguousStatement
  deriving DecidableEq

inductive SharedSqlError
  | inspection (error : InspectionError)
  | rejected (issue : SharedSqlIssue) (message : Bytes)
  deriving DecidableEq

structure DialectHints where
  postgres : Bool := false
  mysql : Bool := false
  clickhouse : Bool := false
  deriving DecidableEq

/-- What `SharedObserver` changes on the way. -/
structure SharedState where
  hints : DialectHints := {}
  namespaces : List Text := []
  statementsChecked : ℕ := 0
  sawBackslash : Bool := false
  deriving DecidableEq

structure SharedSqlReport where
  statementsChecked : ℕ
  namespaces : List Text
  deriving DecidableEq

/-- `BTreeSet::insert`. -/
def insertNamespace (namespaces : List Text) (name : Text) : List Text :=
  if name ∈ namespaces then namespaces
  else namespaces.orderedInsert (fun a b => a.bytes.map UInt8.toNat ≤ b.bytes.map UInt8.toNat) name

def reject {α : Type} (issue : SharedSqlIssue) (message : Bytes) : Except SharedSqlError α :=
  .error (.rejected issue message)

def rejectIf (condition : Bool) (issue : SharedSqlIssue) (message : Bytes) :
    Except SharedSqlError Unit :=
  if condition then reject issue message else .ok ()

@[simp] theorem rejectIf_eq_ok {condition : Bool} {issue : SharedSqlIssue} {message : Bytes}
    {done : Unit} : rejectIf condition issue message = .ok done ↔ condition = false := by
  cases condition <;> simp [rejectIf, reject]

variable (target : Text)

def requireTargetDatabase (database : Text) : Except SharedSqlError Unit :=
  rejectIf (database ≠ target) .crossDatabase
    (ascii "shared import references database " ++ database.bytes ++ ascii "; expected " ++
      target.bytes)

/-! ## Engines of tables -/

def safeMysqlEngines : List Bytes :=
  [ascii "INNODB", ascii "MYISAM", ascii "MEMORY", ascii "CSV", ascii "ARCHIVE"]

def safeClickhouseEngines : List Bytes :=
  [ascii "MERGETREE", ascii "REPLACINGMERGETREE", ascii "SUMMINGMERGETREE",
    ascii "AGGREGATINGMERGETREE", ascii "COLLAPSINGMERGETREE",
    ascii "VERSIONEDCOLLAPSINGMERGETREE", ascii "GRAPHITEMERGETREE", ascii "COALESCINGMERGETREE",
    ascii "TINYLOG", ascii "STRIPELOG", ascii "LOG", ascii "MEMORY", ascii "SET", ascii "JOIN",
    ascii "NULL"]

/-- The engine that `ENGINE = …` outside of parentheses names is allowed, and there is one at most.
The result says whether there is one. -/
def validateEngine (allowed : List Bytes) (label : Bytes) :
    (depth : ℕ) → (found : Bool) → List SqlToken → Except SharedSqlError Bool
  | _, found, [] => .ok found
  | depth, found, .openParen :: tokens => validateEngine allowed label (depth + 1) found tokens
  | depth, found, .closeParen :: tokens => validateEngine allowed label (depth - 1) found tokens
  | depth, found, token :: tokens =>
    if depth = 0 ∧ isKeyword (ascii "ENGINE") token ∧ tokens.head? = some .equal then
      if found then
        reject .ambiguousStatement (label ++ ascii " table declares more than one engine")
      else
        match tokens.tail.head? with
        | some (.identifier engine) =>
          if isAnyKeyword engine.bytes allowed then validateEngine allowed label depth true tokens
          else
            reject .externalAccess (label ++ ascii " table engine " ++ engine.bytes ++
              ascii " is not allowed in a shared import")
        | _ =>
          reject .ambiguousStatement
            (label ++ ascii " table engine could not be determined safely")
    else validateEngine allowed label depth found tokens

/-! ## MySQL and MariaDB -/

variable (tokens : List SqlToken)

def requireMysqlQualifiers : Except SharedSqlError Unit :=
  (importObjectQualifiers tokens).forM fun object => do
    rejectIf (isMysqlSystemDatabase object.1.bytes) .systemNamespace
      (ascii "shared MySQL imports cannot reference system databases")
    rejectIf (object.1 ≠ target) .crossDatabase
      (ascii "shared MySQL import references database " ++ object.1.bytes ++ ascii "; expected " ++
        target.bytes)

variable (state : SharedState)

/-- The namespace that the statement creates or selects. -/
def noteMysqlNamespace : Except SharedSqlError SharedState :=
  match parseNamespace tokens with
  | none => .ok state
  | some name => do
    rejectIf (isMysqlSystemDatabase name.bytes) .systemNamespace
      (ascii "shared MySQL imports cannot select a system database")
    requireTargetDatabase target name
    return { state with namespaces := insertNamespace state.namespaces name }

/-- The last part of `validate_mysql`: fragments of views, and the commands accepted. -/
def validateMysqlCommand (words : List Bytes) (command : Bytes) : Except SharedSqlError Unit :=
  let view := containsAny words [ascii "VIEW"]
  if eqIgnoreAsciiCase command (ascii "DEFINER") ∧
      containsSequence words [ascii "SQL", ascii "SECURITY"] then .ok ()
  else if eqIgnoreAsciiCase command (ascii "VIEW") then do
    rejectIf (!containsAny words [ascii "SELECT"]) .ambiguousStatement
      (ascii "shared MySQL view definition has no SELECT body")
    requireMysqlQualifiers target tokens
  else if eqIgnoreAsciiCase command (ascii "CREATE") ∧ view = false ∧ words.length = 3 ∧
      wordAtIs words 1 (ascii "ALGORITHM") ∧
      (words[2]?).any (isAnyKeyword · [ascii "UNDEFINED", ascii "MERGE", ascii "TEMPTABLE"]) then
    .ok ()
  else if isAnyKeyword command
      [ascii "SET", ascii "USE", ascii "CREATE", ascii "ALTER", ascii "DROP", ascii "INSERT",
        ascii "REPLACE", ascii "TRUNCATE", ascii "LOCK", ascii "UNLOCK", ascii "START",
        ascii "COMMIT", ascii "ROLLBACK", ascii "ANALYZE", ascii "OPTIMIZE"] then
    rejectIf (eqIgnoreAsciiCase command (ascii "CREATE") &&
        (!(createObject words).any ([ascii "TABLE", ascii "INDEX", ascii "VIEW"].contains ·) &&
          !view))
      .unsupportedStatement
      (ascii "this MySQL CREATE form is not safe for a shared-tenant import")
  else
    reject .unsupportedStatement (ascii "MySQL/MariaDB " ++ command ++
      ascii " statements are not accepted in shared-tenant imports")

variable (statement : Statement)

def validateMysql (words : List Bytes) : Except SharedSqlError SharedState := do
  let tokens := statement.tokens
  let command := words.headD []
  rejectIf (mysqlDatabaseDdl tokens words) .privilegedStatement
    (ascii "shared imports cannot create, alter, drop, or rename a database")
  rejectIf ((mysqlStoragePolicyViolation statement false).isSome ||
      containsAny words [ascii "OUTFILE", ascii "DUMPFILE", ascii "SONAME", ascii "LOAD_FILE",
        ascii "PLUGIN", ascii "COMPONENT"]) .externalAccess
    (ascii "filesystem, plugin, and component features are not allowed in a shared MySQL import")
  rejectIf (containsAny words [ascii "GLOBAL", ascii "PERSIST", ascii "PERSIST_ONLY"] ||
      isAnyKeyword command [ascii "GRANT", ascii "REVOKE", ascii "INSTALL", ascii "UNINSTALL"] ||
      privilegedObjectCommand command words
        [ascii "USER", ascii "ROLE", ascii "FUNCTION", ascii "PROCEDURE", ascii "TRIGGER",
          ascii "EVENT", ascii "SERVER", ascii "INSTANCE"] ||
      containsAny words [ascii "SQL_LOG_BIN"]) .privilegedStatement
    (ascii "users, grants, global settings, stored code, and server objects are not allowed in a shared MySQL import")
  rejectIf (eqIgnoreAsciiCase command (ascii "LOAD")) .externalAccess
    (ascii "LOAD DATA/XML is not allowed in a shared MySQL import")
  let state ← noteMysqlNamespace target tokens state
  requireMysqlQualifiers target tokens
  let _ ← validateEngine safeMysqlEngines (ascii "MySQL") 0 false tokens
  rejectIf (isAnyKeyword command [ascii "INSERT", ascii "REPLACE"] &&
      containsAny words [ascii "SELECT"]) .externalAccess
    (ascii "shared MySQL imports accept INSERT/REPLACE value records, not query-backed data sources")
  validateMysqlCommand target tokens words command
  return state

/-! ## PostgreSQL -/

def rejectSystemPostgresObject : Except SharedSqlError Unit :=
  rejectIf ((qualifiedIdentifiers tokens).any fun object => isPostgresSystemSchema object.1.bytes)
    .systemNamespace (ascii "shared PostgreSQL imports cannot modify system schemas")

/-- The commands that `validate_postgres` accepts. -/
def validatePostgresCommand (words : List Bytes) (command : Bytes) : Except SharedSqlError Unit :=
  let tokens := statement.tokens
  if eqIgnoreAsciiCase command (ascii "SET") then .ok ()
  else if eqIgnoreAsciiCase command (ascii "SELECT") then
    rejectIf (!(wordAtIs words 1 (ascii "PG_CATALOG") && wordAtIs words 2 (ascii "SET_CONFIG")))
      .unsupportedStatement
      (ascii "only pg_catalog.set_config setup SELECTs are accepted in shared PostgreSQL dumps")
  else if eqIgnoreAsciiCase command (ascii "COPY") then do
    rejectIf (!statement.copyFromStdin || containsAny words [ascii "TO", ascii "PROGRAM"])
      .externalAccess (ascii "shared PostgreSQL COPY is restricted to COPY ... FROM STDIN")
    rejectSystemPostgresObject tokens
  else if eqIgnoreAsciiCase command (ascii "CREATE") then do
    let object := createObject words
    rejectIf (!object.any ([ascii "SCHEMA", ascii "TABLE", ascii "SEQUENCE", ascii "TYPE",
          ascii "DOMAIN", ascii "COLLATION", ascii "INDEX", ascii "VIEW"].contains ·) ||
        containsAny words [ascii "TEMP", ascii "TEMPORARY"]) .unsupportedStatement
      (ascii "this PostgreSQL CREATE form is not safe for a shared-tenant import")
    rejectIf (object ≠ some (ascii "VIEW") && containsAny words [ascii "SELECT"]) .externalAccess
      (ascii "query-backed PostgreSQL CREATE statements are not allowed in a shared import")
    rejectSystemPostgresObject tokens
  else if isAnyKeyword command
      [ascii "ALTER", ascii "DROP", ascii "INSERT", ascii "TRUNCATE", ascii "COMMENT",
        ascii "ANALYZE", ascii "LOCK"] then do
    rejectIf (eqIgnoreAsciiCase command (ascii "INSERT") && containsAny words [ascii "SELECT"])
      .externalAccess
      (ascii "shared PostgreSQL imports accept literal INSERT records, not query-backed data sources")
    rejectSystemPostgresObject tokens
  else
    reject .unsupportedStatement (ascii "PostgreSQL " ++ command ++
      ascii " statements are not accepted in shared-tenant imports")

def validatePostgres (words : List Bytes) : Except SharedSqlError SharedState := do
  let tokens := statement.tokens
  let command := words.headD []
  let state ← match parseNamespace tokens with
    | none => .ok state
    | some name => do
      rejectIf (isPostgresSystemSchema name.bytes) .systemNamespace
        (ascii "shared PostgreSQL imports cannot create or select system schemas")
      pure { state with namespaces := insertNamespace state.namespaces name }
  rejectSystemPostgresObject tokens
  rejectIf (containsAny words [ascii "SUPERUSER", ascii "CREATEROLE", ascii "CREATEDB",
        ascii "BYPASSRLS"] ||
      containsSequence words [ascii "SESSION", ascii "AUTHORIZATION"] ||
      containsSequence words [ascii "SET", ascii "ROLE"] ||
      containsSequence words [ascii "OWNER", ascii "TO"] ||
      privilegedObjectCommand command words
        [ascii "SYSTEM", ascii "ROLE", ascii "USER", ascii "OWNED", ascii "PRIVILEGES",
          ascii "PUBLICATION", ascii "SUBSCRIPTION", ascii "SERVER"]) .privilegedStatement
    (ascii "role, ownership, or administrator changes are not allowed in a shared PostgreSQL import")
  rejectIf (containsAny words [ascii "PROGRAM", ascii "FOREIGN"] ||
      containsSequence words [ascii "FOREIGN", ascii "DATA", ascii "WRAPPER"] ||
      containsSequence words [ascii "USER", ascii "MAPPING"]) .externalAccess
    (ascii "PostgreSQL external programs and foreign data access are not allowed in a shared import")
  rejectIf (containsAny words [ascii "EXTENSION", ascii "LANGUAGE", ascii "FUNCTION",
        ascii "PROCEDURE"] ||
      isAnyKeyword command [ascii "DO", ascii "CALL", ascii "GRANT", ascii "REVOKE"])
    .privilegedStatement
    (ascii "executable database code, extensions, grants, and role calls are not allowed in a shared import")
  validatePostgresCommand statement words command
  return state

/-! ## ClickHouse -/

/-- The namespace that the statement creates or selects. -/
def noteClickhouseNamespace : Except SharedSqlError SharedState :=
  match parseNamespace tokens with
  | none => .ok state
  | some name => do
    rejectIf (isClickhouseSystemDatabase name.bytes) .systemNamespace
      (ascii "shared ClickHouse imports cannot select a system database")
    requireTargetDatabase target name
    return { state with namespaces := insertNamespace state.namespaces name }

def requireClickhouseQualifiers : Except SharedSqlError Unit :=
  (importObjectQualifiers tokens).forM fun object => do
    rejectIf (isClickhouseSystemDatabase object.1.bytes) .systemNamespace
      (ascii "shared ClickHouse imports cannot reference system databases")
    requireTargetDatabase target object.1

/-- The commands that `validate_clickhouse` accepts. -/
def validateClickhouseCommand (words : List Bytes) (command : Bytes) (object : Option Bytes)
    (hasEngine : Bool) : Except SharedSqlError Unit :=
  if isAnyKeyword command
      [ascii "USE", ascii "SET", ascii "CREATE", ascii "ALTER", ascii "DROP", ascii "INSERT",
        ascii "TRUNCATE", ascii "OPTIMIZE"] then do
    let create := eqIgnoreAsciiCase command (ascii "CREATE")
    rejectIf (create && object = some (ascii "DATABASE")) .privilegedStatement
      (ascii "shared imports cannot create a ClickHouse database")
    rejectIf (create && !object.any ([ascii "TABLE", ascii "INDEX", ascii "VIEW"].contains ·))
      .unsupportedStatement
      (ascii "this ClickHouse CREATE form is not safe for a shared-tenant import")
    rejectIf (create && object = some (ascii "TABLE") && !hasEngine) .ambiguousStatement
      (ascii "shared ClickHouse CREATE TABLE requires one explicit allowed engine")
    let targetsDatabase := wordAtIs words 1 (ascii "DATABASE")
    rejectIf (eqIgnoreAsciiCase command (ascii "DROP") && targetsDatabase) .privilegedStatement
      (ascii "shared imports cannot drop a ClickHouse database")
    rejectIf (eqIgnoreAsciiCase command (ascii "ALTER") && targetsDatabase) .privilegedStatement
      (ascii "shared imports cannot alter a ClickHouse database")
  else
    reject .unsupportedStatement (ascii "ClickHouse " ++ command ++
      ascii " statements are not accepted in shared-tenant imports")

def validateClickhouse (words : List Bytes) : Except SharedSqlError SharedState := do
  let tokens := statement.tokens
  let command := words.headD []
  rejectIf (containsSequence words [ascii "ON", ascii "CLUSTER"] ||
      containsAny words [ascii "OUTFILE", ascii "INFILE", ascii "FILE", ascii "REMOTE",
        ascii "REMOTESECURE", ascii "URL", ascii "S3", ascii "HDFS", ascii "JDBC", ascii "ODBC",
        ascii "EXECUTABLE", ascii "EXECUTABLEPOOL", ascii "DICTIONARY", ascii "DISTRIBUTED",
        ascii "KAFKA", ascii "RABBITMQ", ascii "MYSQL", ascii "POSTGRESQL", ascii "MONGODB",
        ascii "REDIS"]) .externalAccess
    (ascii "remote, filesystem, executable, dictionary, and distributed ClickHouse sources are not allowed in a shared import")
  rejectIf (isAnyKeyword command [ascii "SYSTEM", ascii "KILL", ascii "GRANT", ascii "REVOKE",
        ascii "ATTACH", ascii "DETACH", ascii "BACKUP", ascii "RESTORE"] ||
      privilegedObjectCommand command words
        [ascii "USER", ascii "ROLE", ascii "QUOTA", ascii "POLICY", ascii "PROFILE",
          ascii "FUNCTION", ascii "WORKLOAD", ascii "COLLECTION"]) .privilegedStatement
    (ascii "cluster administration and access-control statements are not allowed in a shared ClickHouse import")
  let state ← noteClickhouseNamespace target tokens state
  requireClickhouseQualifiers target tokens
  let hasEngine ← validateEngine safeClickhouseEngines (ascii "ClickHouse") 0 false tokens
  let create := eqIgnoreAsciiCase command (ascii "CREATE")
  let object := if create then createObject words else none
  rejectIf (containsSequence words [ascii "INTO", ascii "FUNCTION"] ||
      (object = some (ascii "TABLE") && topLevelKeyword (ascii "AS") 0 tokens)) .externalAccess
    (ascii "ClickHouse table-function sources and sinks are not allowed in a shared import")
  rejectIf ((eqIgnoreAsciiCase command (ascii "INSERT") ||
        (create && object ≠ some (ascii "VIEW"))) && containsAny words [ascii "SELECT"])
    .externalAccess
    (ascii "shared ClickHouse imports accept INSERT value records, not query-backed data sources")
  validateClickhouseCommand words command object hasEngine
  return state

/-! ## The scan -/

variable (protocol : Protocol)

def validateStatement (target : Text) (state : SharedState) (statement : Statement)
    : Except SharedSqlError SharedState := do
  rejectIf statement.truncated .ambiguousStatement
    (ascii "SQL statement exceeds the bounded syntax budget for shared-tenant validation")
  rejectIf state.sawBackslash .privilegedStatement
    (ascii "client meta-commands are not allowed in a shared-tenant import")
  let words := statementWords statement.tokens
  if words.isEmpty then return state
  else
    match protocol.family with
    | .postgres => validatePostgres state statement words
    | .mysql => validateMysql target state statement words
    | .columnar => validateClickhouse target state statement words
    | _ =>
      reject .unsupportedStatement
        (ascii "the target protocol does not use shared SQL dump validation")

def containsAsciiCaseInsensitive (haystack needle : Bytes) : Bool :=
  haystack.tails.any fun window => eqIgnoreAsciiCase (window.take needle.length) needle

def observeComment (hints : DialectHints) (comment : Bytes) : DialectHints where
  postgres := hints.postgres ||
    containsAsciiCaseInsensitive comment (ascii "postgresql database dump")
  mysql := hints.mysql || containsAsciiCaseInsensitive comment (ascii "mysql dump") ||
    containsAsciiCaseInsensitive comment (ascii "mariadb dump")
  clickhouse := hints.clickhouse ||
    containsAsciiCaseInsensitive comment (ascii "databaseseverywhere clickhouse logical dump")

/-- The hints agree with the protocol and with each other. -/
def validateDialect (hints : DialectHints) : Except SharedSqlError Unit :=
  let mismatch := match protocol.family with
    | .postgres => hints.mysql || hints.clickhouse
    | .mysql => hints.postgres || hints.clickhouse
    | .columnar => hints.postgres || hints.mysql
    | _ => false
  let ambiguous := decide
    (1 < ([hints.postgres, hints.mysql, hints.clickhouse].filter id).length)
  if mismatch || ambiguous then
    .error (.inspection (.invalid "dump content does not match the target database protocol"))
  else .ok ()

/-- `SharedObserver`; `validate` is the validation of the body of an executable comment. -/
def sharedObserver (target : Text) (validate : Bytes → Except SharedSqlError Unit)
    : SqlObserver SharedState SharedSqlError where
  fromInspection error := .inspection error
  comment state comment :=
    let state := { state with hints := observeComment state.hints comment.bytes }
    if protocol.family.isMysql then
      match executableMysqlComment comment with
      | .error _ =>
        reject .ambiguousStatement
          (ascii "executable MySQL/MariaDB comment exceeds the bounded syntax budget")
      | .ok none => .ok state
      | .ok (some body) =>
        if isMysqldumpSandboxDirective body then .ok state
        else do
          validate body
          return state
    else .ok state
  token state token := .ok { state with sawBackslash := state.sawBackslash || token = .backslash }
  statement state _ statement := do
    let state ← validateStatement protocol target state statement
    return { state with statementsChecked := saturatingAdd usizeMax state.statementsChecked 1 }

/-- The fuel bounds how deep executable comments nest. -/
def validateNested (protocol : Protocol) (target : Text) :
    (nesting : ℕ) → Bytes → Except SharedSqlError SharedSqlReport
  | 0, _ => .error (.inspection (.limit "out of fuel"))
  | nesting + 1, sql => do
    let validate (body : Bytes) := do
      let _ ← validateNested protocol target nesting body
      return ()
    let state ← scanSql protocol (sharedObserver protocol target validate) sql {}
    validateDialect protocol state.hints
    return { statementsChecked := state.statementsChecked, namespaces := state.namespaces }

def validateSharedSqlReader (sql : Bytes) (protocol : Protocol) (target : Text) :
    Except SharedSqlError SharedSqlReport :=
  validateNested protocol target (sql.length + 1) sql

end DatabasesEverywhere.Sql
