import DatabasesEverywhere.Foundations.Lists
import DatabasesEverywhere.Sql.MysqlPolicy

/-!
# Sql/Statements — what the validators of shared imports read off a statement

The parsers of the source walk a token list with an index; here they take and return the tokens that
are left.  An object is looked for behind certain words only (`importObjectQualifiers`):

    DROP TABLE IF EXISTS db . items , …
         ╰kw╯╰skipped─╯  ╰─looked at╯
-/

open Foundations

namespace DatabasesEverywhere.Sql

/-! ## Cursors -/

/-- `identifier_at` at the front of the tokens. -/
def identifierOf : SqlToken → Option Text
  | .identifier name | .quotedIdentifier name => some name
  | _ => none

def isNameIn (expected : List Bytes) (token : SqlToken) : Bool :=
  (identifierOf token).any fun name => isAnyKeyword name.bytes expected

/-- The tokens behind the word, if it is there. -/
def takeWord (expected : Bytes) : List SqlToken → Option (List SqlToken)
  | [] => none
  | token :: tokens => if isNameIn [expected] token then some tokens else none

/-- The tokens behind the word, or all of them. -/
def skipWord (expected : Bytes) (tokens : List SqlToken) : List SqlToken :=
  (takeWord expected tokens).getD tokens

def skipModifiers (modifiers : List Bytes) (tokens : List SqlToken) : List SqlToken :=
  tokens.dropWhile (isNameIn modifiers)

variable (tokens : List SqlToken)

def skipIfNotExists : List SqlToken :=
  match takeWord (ascii "IF") tokens with
  | none => tokens
  | some rest => skipWord (ascii "EXISTS") (skipWord (ascii "NOT") rest)

/-- A name, with its qualifier if a dot follows. -/
def parseQualifiedIdentifier : List SqlToken → Option (Option Text × Text)
  | [] => none
  | first :: rest =>
    match identifierOf first, rest with
    | none, _ => none
    | some first, .dot :: rest =>
      (rest.head?.bind identifierOf).map fun second => (some first, second)
    | some first, _ => some (none, first)

def tableModifiers : List Bytes :=
  [ascii "OR", ascii "REPLACE", ascii "TEMP", ascii "TEMPORARY", ascii "UNLOGGED", ascii "GLOBAL",
    ascii "LOCAL"]

def namespaceModifiers : List Bytes :=
  [ascii "OR", ascii "REPLACE", ascii "TEMP", ascii "TEMPORARY"]

def parseCreateTable : Option (Option Text × Text) := do
  let rest ← takeWord (ascii "CREATE") tokens
  let rest ← takeWord (ascii "TABLE") (skipModifiers tableModifiers rest)
  parseQualifiedIdentifier (skipWord (ascii "ONLY") (skipIfNotExists rest))

def parseInsertTable : Option (Option Text × Text) := do
  let rest ← takeWord (ascii "INSERT") tokens
  let rest ← takeWord (ascii "INTO") (skipWord (ascii "IGNORE") rest)
  parseQualifiedIdentifier (skipWord (ascii "TABLE") rest)

/-- The namespace that `CREATE SCHEMA`, `CREATE DATABASE` or `USE` names. -/
def parseNamespace : Option Text :=
  match takeWord (ascii "CREATE") tokens with
  | some rest =>
    let rest := skipModifiers namespaceModifiers rest
    match (takeWord (ascii "SCHEMA") rest).or (takeWord (ascii "DATABASE") rest) with
    | none => none
    | some rest => (skipIfNotExists rest).head?.bind identifierOf
  | none =>
    match takeWord (ascii "USE") tokens with
    | some rest => rest.head?.bind identifierOf
    | none => none

/-! ## Words -/

def wordAtIs (words : List Bytes) (index : ℕ) (expected : Bytes) : Bool :=
  (words[index]?).any fun word => eqIgnoreAsciiCase word expected

def containsAny
    (words expected : List Bytes) : Bool := words.any fun word => isAnyKeyword word expected

def startsWithWords : List Bytes → List Bytes → Bool
  | _, [] => true
  | [], _ :: _ => false
  | word :: words, expected :: rest => eqIgnoreAsciiCase word expected && startsWithWords words rest

def containsSequence (words expected : List Bytes) : Bool :=
  words.tails.any fun window => startsWithWords window expected

def privilegedObjectCommand (command : Bytes) (words objects : List Bytes) : Bool :=
  isAnyKeyword command [ascii "CREATE", ascii "ALTER", ascii "DROP"] &&
    containsAny words.tail objects

/-- All pairs of names with a dot between them. -/
def qualifiedIdentifiers : List SqlToken → List (Text × Text)
  | first :: .dot :: second :: rest =>
    ((identifierOf first).bind fun namespace_ =>
      (identifierOf second).map fun name => (namespace_, name)).toList ++
      qualifiedIdentifiers (.dot :: second :: rest)
  | _ :: rest => qualifiedIdentifiers rest
  | [] => []

/-- The words an object is looked for behind. -/
def objectKeywords : List Bytes :=
  [ascii "REFERENCES", ascii "UPDATE", ascii "FROM", ascii "INTO", ascii "TABLE", ascii "TABLES",
    ascii "ON", ascii "JOIN"]

/-- The words passed over between such a word and the object. -/
def objectModifiers : List Bytes :=
  [ascii "IF", ascii "NOT", ascii "EXISTS", ascii "ONLY", ascii "IGNORE"]

/-- The object behind the keyword at the front, if it is qualified. -/
def objectBehind : List SqlToken → Option (Text × Text)
  | .identifier word :: rest =>
    if objectKeywords.contains (toUppercase word.bytes) then
      match parseQualifiedIdentifier (rest.dropWhile (isNameIn objectModifiers)) with
      | some (some database, name) => some (database, name)
      | _ => none
    else none
  | _ => none

/-- Derived order of pairs of names. -/
def nameOrder (object : Text × Text) : List ℕ ×ₗ List ℕ :=
  toLex (object.1.bytes.map UInt8.toNat, object.2.bytes.map UInt8.toNat)

/-- The object that the statement is about, and those behind keywords. -/
def importObjects : List (Text × Text) :=
  (match (parseCreateTable tokens).or (parseInsertTable tokens) with
    | some (some database, name) => [(database, name)]
    | _ => []) ++ tokens.tails.filterMap objectBehind

def importObjectQualifiers : List (Text × Text) :=
  ((importObjects tokens).insertionSort fun a b => nameOrder a ≤ nameOrder b).dedup

theorem mem_importObjectQualifiers {tokens : List SqlToken} {object : Text × Text} :
    object ∈ importObjectQualifiers tokens ↔ object ∈ importObjects tokens := by
  rw [importObjectQualifiers, List.mem_dedup]
  exact (List.perm_insertionSort _ _).mem_iff

/-- The word outside of all parentheses. -/
def topLevelKeyword (expected : Bytes) : (depth : ℕ) → List SqlToken → Bool
  | _, [] => false
  | depth, .openParen :: tokens => topLevelKeyword expected (depth + 1) tokens
  | depth, .closeParen :: tokens => topLevelKeyword expected (depth - 1) tokens
  | depth, token :: tokens =>
    (depth = 0 && isKeyword expected token) || topLevelKeyword expected depth tokens

def isMysqlSystemDatabase (database : Bytes) : Bool :=
  isAnyKeyword database
    [ascii "mysql", ascii "sys", ascii "performance_schema", ascii "information_schema"]

def isPostgresSystemSchema (schema : Bytes) : Bool :=
  eqIgnoreAsciiCase schema (ascii "information_schema") ||
    (ascii "pg_").isPrefixOf (schema.map toAsciiLowercase)

def isClickhouseSystemDatabase (database : Bytes) : Bool :=
  isAnyKeyword database [ascii "system", ascii "information_schema", ascii "INFORMATION_SCHEMA"]

end DatabasesEverywhere.Sql
