import DatabasesEverywhere.Foundations.Bytes

/-!
# MysqlSql/Context — where the rewriter expects the name of an object

A two-part name `a.b` may be a table of the database `a` or a column of a table with the alias `a`.
The rewriter tells them apart by the words before: `SqlContext` follows the statement and records
whether the name of an object comes next.
-/

open Foundations

namespace DatabasesEverywhere.MysqlSql

inductive StatementKind
  | unknown | create | drop | alter | truncate | rename | lock | insert | replace | update | call
  | load | other
  deriving DecidableEq

structure SqlContext where
  statement : StatementKind := .unknown
  objectExpected : Bool := false
  createTrigger : Bool := false
  triggerOnSeen : Bool := false
  tableList : Bool := false
  parenthesisDepth : ℕ := 0
  fromTableListDepths : Finset ℕ := ∅
  deriving DecidableEq

variable (word : Bytes)

/-- The word is one of the keywords, in any case. -/
def isOneOf (keywords : List String) : Bool :=
  keywords.any fun keyword => eqIgnoreAsciiCase word (ascii keyword)

def statementKinds : List (String × StatementKind) :=
  [("CREATE", .create), ("DROP", .drop), ("ALTER", .alter), ("TRUNCATE", .truncate),
    ("RENAME", .rename), ("LOCK", .lock), ("INSERT", .insert), ("REPLACE", .replace),
    ("UPDATE", .update), ("CALL", .call), ("LOAD", .load)]

def statementKind : StatementKind :=
  match statementKinds.find? fun (keyword, _) => eqIgnoreAsciiCase word (ascii keyword) with
  | some (_, kind) => kind
  | none => .other

def isObjectModifier : Bool := isOneOf word ["IF", "NOT", "EXISTS", "ONLY"]

def isFromClauseBoundary : Bool :=
  isOneOf word ["ON", "USING", "WHERE", "GROUP", "HAVING", "ORDER", "LIMIT", "UNION", "EXCEPT",
    "INTERSECT", "WINDOW", "QUALIFY", "INTO", "FOR", "LOCK", "PROCEDURE"]

namespace SqlContext

variable (context : SqlContext)

def startsRoutineBody (word : Bytes) : Bool :=
  isOneOf word ["BEGIN", "THEN", "ELSE", "DO", "LOOP", "REPEAT"] ||
    isOneOf word ["ROW"] && context.createTrigger && context.triggerOnSeen

/-- Statements that define or change objects. -/
def isDdl : Bool :=
  [.create, .drop, .alter, .truncate, .rename].contains context.statement

/-- The last part of `observe_word`: keywords that announce the name of an object. -/
def observeKeyword (word : Bytes) : SqlContext :=
  if isOneOf word ["FROM", "JOIN"] then
    { context with
      objectExpected := true
      fromTableListDepths := insert context.parenthesisDepth context.fromTableListDepths }
  else if isOneOf word ["REFERENCES"] then { context with objectExpected := true }
  else if isOneOf word ["INTO"] && [.insert, .replace, .load].contains context.statement ||
      isOneOf word ["UPDATE"] && context.statement == .update then
    { context with objectExpected := true }
  else if isOneOf word ["TABLE", "TABLES"] && (context.isDdl || context.statement == .lock) then
    { context with
      objectExpected := true
      tableList := [.rename, .lock].contains context.statement }
  else if isOneOf word ["TO"] && context.statement == .rename && context.tableList ||
      isOneOf word ["VIEW", "EVENT", "PROCEDURE", "FUNCTION"] && context.isDdl ||
      isOneOf word ["CALL"] then
    { context with objectExpected := true }
  else if isOneOf word ["TRIGGER"] && context.isDdl then
    { context with objectExpected := true, createTrigger := context.statement == .create }
  else if isOneOf word ["ON"] && context.createTrigger && !context.triggerOnSeen then
    { context with objectExpected := true, triggerOnSeen := true }
  else context

def observeWord (word : Bytes) : SqlContext :=
  if context.startsRoutineBody word then
    { context with
      statement := .unknown
      objectExpected := false
      tableList := false
      fromTableListDepths := ∅
      createTrigger := !isOneOf word ["ROW", "BEGIN"] && context.createTrigger }
  else
    let context :=
      if isFromClauseBoundary word then
        { context with
          fromTableListDepths := context.fromTableListDepths.erase context.parenthesisDepth }
      else context
    if context.objectExpected && isObjectModifier word then context
    else
      observeKeyword
        { context with
          objectExpected := false
          statement :=
            if context.statement = .unknown then statementKind word else context.statement }
        word

def observeIdentifierOrValue : SqlContext :=
  { context with objectExpected := false }

/-- A `;` starts over; commas continue a list of tables. -/
def observePunctuation (byte : UInt8) : SqlContext :=
  if byte = Ascii.semicolon then {}
  else if byte = Ascii.openParen then
    { context with parenthesisDepth := context.parenthesisDepth + 1, objectExpected := false }
  else if byte = Ascii.closeParen then
    { context with
      fromTableListDepths := context.fromTableListDepths.erase context.parenthesisDepth
      parenthesisDepth := context.parenthesisDepth - 1
      objectExpected := false }
  else if byte = Ascii.comma ∧
      (context.tableList = true ∨ context.parenthesisDepth ∈ context.fromTableListDepths) then
    { context with objectExpected := true }
  else if isAsciiWhitespace byte then context
  else { context with objectExpected := false }

end SqlContext

end DatabasesEverywhere.MysqlSql
