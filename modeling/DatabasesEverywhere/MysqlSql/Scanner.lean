import DatabasesEverywhere.Foundations.Loops
import DatabasesEverywhere.MysqlSql.Context
import DatabasesEverywhere.MysqlSql.Units

/-!
# MysqlSql/Scanner — rebasing the source qualifiers of a dump

`rewriteSql` copies SQL text from an input to a bounded output and puts the target database in the
place of the source database wherever it qualifies a name.  The input is the bytes still to come;
every reader hands back what is left of it.

    rewriteSql ──▸ copyQuotedString, copyLineComment, copyBlockComment   copied through
               ──▸ handleUnquotedToken ─┐
               ──▸ handleDoubleQuoted ──┼─▸ handleSourceQualifier        perhaps replaced
               ──▸ `…` ─────────────────┘
               ──▸ /*! ──▸ rewriteSql inside the executable comment
-/

open Foundations

namespace DatabasesEverywhere.MysqlSql

open Ascii

/-! ## Output and limits -/

/-- `MysqlSqlRewriteError`, without the failures of the file system. -/
inductive MysqlSqlRewriteError
  | outputLimit (limit : ℕ)
  | malformed (message : String)
  | timeout
  deriving DecidableEq

/-- What the functions of the rewriter return. -/
abbrev Rewriting := Except MysqlSqlRewriteError

def maxQuotedIdentifierBytes : ℕ := 1024

def maxQualifierGapBytes : ℕ := 64 * 1024

structure BoundedOutput where
  bytes : Bytes := []
  maxBytes : ℕ
  deriving DecidableEq

namespace BoundedOutput

def writeBytes (output : BoundedOutput) (bytes : Bytes) : Rewriting BoundedOutput :=
  if output.maxBytes < output.bytes.length + bytes.length then .error (.outputLimit output.maxBytes)
  else .ok { output with bytes := output.bytes ++ bytes }

def writeByte (output : BoundedOutput) (byte : UInt8) : Rewriting BoundedOutput :=
  output.writeBytes [byte]

end BoundedOutput

/-- `push_gap_byte` and `push_token_byte`. -/
def pushByte (limit : ℕ) (message : String) (bytes : Bytes) (byte : UInt8) : Rewriting Bytes :=
  if limit ≤ bytes.length then .error (.malformed message) else .ok (bytes ++ [byte])

def pushGapByte : Bytes → UInt8 → Rewriting Bytes :=
  pushByte maxQualifierGapBytes "source qualifier separators exceed the token limit"

def pushTokenByte : Bytes → UInt8 → Rewriting Bytes :=
  pushByte maxQuotedIdentifierBytes "quoted identifier exceeds the token limit"

variable (identifiers : RewriteIdentifiers) (executableComment : Bool) (byte : UInt8)

/-- A `*/` where an executable comment may not end. -/
def endsExecutable (rest : Bytes) : Bool :=
  executableComment && byte == star && rest.head? == some slash

/-! ## Copying through -/

def copyQuotedString (quote : UInt8) (executableComment : Bool) (output : BoundedOutput) :
    Bytes → Rewriting (BoundedOutput × Bytes)
  | [] => .error (.malformed "unterminated quoted string")
  | byte :: rest =>
    if byte = backslash then do
      let output ← output.writeByte byte
      match rest with
      | [] => .error (.malformed "quoted string ends after an escape byte")
      | escaped :: rest =>
        if endsExecutable executableComment escaped rest then
          .error (.malformed "executable comment terminator inside quoted string")
        else copyQuotedString quote executableComment (← output.writeByte escaped) rest
    else if byte = quote then do
      let output ← output.writeByte byte
      match rest with
      | [] => return (output, [])
      | next :: rest =>
        if next = quote then
          copyQuotedString quote executableComment (← output.writeByte quote) rest
        else return (output, next :: rest)
    else if endsExecutable executableComment byte rest then
      .error (.malformed "executable comment terminator inside quoted string")
    else do copyQuotedString quote executableComment (← output.writeByte byte) rest

def copyLineComment (executableComment : Bool) (output : BoundedOutput) :
    Bytes → Rewriting (BoundedOutput × Bytes)
  | [] =>
    if executableComment then .error (.malformed "unterminated executable comment")
    else .ok (output, [])
  | byte :: rest =>
    if byte = newline then do return (← output.writeByte byte, rest)
    else if endsExecutable executableComment byte rest then
      .error (.malformed "executable comment terminator inside line comment")
    else do copyLineComment executableComment (← output.writeByte byte) rest

def copyBlockComment (output : BoundedOutput) : Bytes → Rewriting (BoundedOutput × Bytes)
  | [] => .error (.malformed "unterminated block comment")
  | byte :: rest => do
    let output ← output.writeByte byte
    match rest with
    | [] => .error (.malformed "unterminated block comment")
    | next :: rest =>
      if byte = star ∧ next = slash then return (← output.writeByte next, rest)
      else copyBlockComment output (next :: rest)

def copyUnquotedTokenRemainder (output : BoundedOutput) : Bytes → Rewriting (BoundedOutput × Bytes)
  | [] => .ok (output, [])
  | byte :: rest =>
    if isUnquotedIdentifierByte byte then do
      copyUnquotedTokenRemainder (← output.writeByte byte) rest
    else .ok (output, byte :: rest)

/-! ## Qualifiers -/

inductive SourceTokenKind
  | unquoted
  | quoted
  | doubleQuoted
  deriving DecidableEq

structure RewriteIdentifiers where
  sourceDatabase : Bytes
  quotedTargetDatabase : Bytes
  doubleQuotedTargetDatabase : Bytes

/-- The state of a rewrite: what is still to come, what has been written, and the context. -/
structure Scan where
  input : Bytes
  output : BoundedOutput
  context : SqlContext := {}

/-- The gap is what has been read of the separators so far. -/
def readGapLineComment (executableComment : Bool) (gap : Bytes) : Bytes → Rewriting (Bytes × Bytes)
  | [] =>
    if executableComment then .error (.malformed "unterminated executable comment")
    else .ok (gap, [])
  | byte :: rest =>
    if endsExecutable executableComment byte rest then
      .error (.malformed "executable comment terminator inside line comment")
    else do
      let gap ← pushGapByte gap byte
      if byte = newline then return (gap, rest)
      else readGapLineComment executableComment gap rest

def readGapBlockComment (gap : Bytes) : Bytes → Rewriting (Bytes × Bytes)
  | [] => .error (.malformed "unterminated block comment in source qualifier")
  | byte :: rest => do
    let gap ← pushGapByte gap byte
    match rest with
    | [] => .error (.malformed "unterminated block comment in source qualifier")
    | next :: rest =>
      if byte = star ∧ next = slash then return (← pushGapByte gap next, rest)
      else readGapBlockComment gap (next :: rest)

/-- One separator: whitespace or a comment; past the last one, the gap. -/
def gapStep : Bytes × Bytes → Rewriting (Bytes × Bytes ⊕ Bytes × Bytes)
  | (gap, []) => .ok (.inr (gap, []))
  | (gap, byte :: rest) =>
    if isAsciiWhitespace byte then do return .inl (← pushGapByte gap byte, rest)
    else if byte = hash then do
      return .inl (← readGapLineComment executableComment (← pushGapByte gap byte) rest)
    else if byte = dash ∧ rest.head? = some dash ∧ opensLineComment rest.tail = true
    then do
      let gap ← pushGapByte (← pushGapByte gap byte) dash
      return .inl (← readGapLineComment executableComment gap rest.tail)
    else if byte = slash ∧ rest.head? = some star then
      if executableComment then
        .error (.malformed "nested block comment inside executable comment")
      else if (executableMark rest.tail).isSome then
        .error (.malformed "executable comment inside a source qualifier is unsupported")
      else do
        let gap ← pushGapByte (← pushGapByte gap byte) star
        return .inl (← readGapBlockComment gap rest.tail)
    else .ok (.inr (gap, byte :: rest))

def readQualifierGap (input : Bytes) : Rewriting (Bytes × Bytes) :=
  iterate (gapStep executableComment) .timeout (input.length + 1) ([], input)

/-- The raw bytes and the decoded name so far. -/
structure DelimitedIdentifier where
  raw : Bytes
  decoded : Bytes := []

def readDelimitedIdentifier (quote : UInt8) (executableComment : Bool)
    (name : DelimitedIdentifier) : Bytes → Rewriting (DelimitedIdentifier × Bytes)
  | [] => .error (.malformed "unterminated quoted identifier")
  | byte :: rest =>
    if endsExecutable executableComment byte rest then
      .error (.malformed "executable comment terminator inside quoted identifier")
    else do
      let raw ← pushTokenByte name.raw byte
      if byte ≠ quote then
        let decoded ← pushTokenByte name.decoded byte
        readDelimitedIdentifier quote executableComment { raw, decoded } rest
      else
        match rest with
        | [] => return ({ name with raw }, [])
        | next :: rest =>
          if next = quote then
            let raw ← pushTokenByte raw quote
            let decoded ← pushTokenByte name.decoded quote
            readDelimitedIdentifier quote executableComment { raw, decoded } rest
          else return ({ name with raw }, next :: rest)

structure QualifiedIdentifier where
  raw : Bytes
  isStar : Bool

/-- The bytes of an unquoted name within a qualifier. -/
def readUnquotedIdentifier (raw : Bytes) : Bytes → Rewriting (Bytes × Bytes)
  | [] => .ok (raw, [])
  | byte :: rest =>
    if isUnquotedIdentifierByte byte then
      if maxQuotedIdentifierBytes ≤ raw.length then
        .error (.malformed "unquoted identifier in source qualifier exceeds the token limit")
      else readUnquotedIdentifier (raw ++ [byte]) rest
    else .ok (raw, byte :: rest)

def readQualifiedIdentifier : Bytes → Rewriting (Option QualifiedIdentifier × Bytes)
  | [] => .ok (none, [])
  | byte :: rest =>
    if byte = backtick ∨ byte = dquote then do
      let raw ← pushTokenByte [] byte
      let (name, rest) ← readDelimitedIdentifier byte executableComment { raw } rest
      return (some { raw := name.raw, isStar := false }, rest)
    else if byte = star then .ok (some { raw := [byte], isStar := true }, rest)
    else if isUnquotedIdentifierByte byte then do
      let (raw, rest) ← readUnquotedIdentifier [] (byte :: rest)
      return (some { raw, isStar := false }, rest)
    else .ok (none, byte :: rest)

def isQualifiedIdentifierStart : Bool :=
  byte == backtick || byte == dquote || byte == star ||
    isUnquotedIdentifierByte byte

def observeUnqualifiedSource (context : SqlContext) (kind : SourceTokenKind) (rawSource : Bytes) :
    SqlContext :=
  match kind with
  | .unquoted => context.observeWord rawSource
  | .quoted | .doubleQuoted => context.observeIdentifierOrValue

/-- The third part of a qualifier, if there is one: the gap behind the second dot. -/
def readThirdSeparator (second : QualifiedIdentifier) (input : Bytes) :
    Rewriting (Option Bytes × Bytes) :=
  if input.head? = some dot then
    if second.isStar then
      .error
        (.malformed "wildcard cannot be the middle of a three-part source qualifier")
    else do
      let (gap, rest) ← readQualifierGap executableComment input.tail
      if rest.head?.any isQualifiedIdentifierStart then return (some gap, rest)
      else throw (.malformed "three-part source qualifier has no final identifier")
  else .ok (none, input)

def writeThirdSeparator (output : BoundedOutput) :
    Option Bytes → Rewriting BoundedOutput
  | none => .ok output
  | some gap => do (← output.writeByte dot).writeBytes gap

/-- A token that spells the source has been read: it is replaced if it qualifies a name. -/
def handleSourceQualifier (rawSource replacement : Bytes) (kind : SourceTokenKind)
    (executableComment : Bool) (scan : Scan) : Rewriting (ℕ × Scan) := do
  let (beforeDot, rest) ← readQualifierGap executableComment scan.input
  if rest.head? ≠ some dot then
    let output ← scan.output.writeBytes rawSource
    let output ← output.writeBytes beforeDot
    let context := observeUnqualifiedSource scan.context kind rawSource
    return (0, { input := rest, output, context })
  else
    let (afterDot, rest) ← readQualifierGap executableComment rest.tail
    let (second, rest) ← readQualifiedIdentifier executableComment rest
    match second with
    | none =>
      throw (.malformed "source qualifier dot is not followed by a supported identifier")
    | some second =>
      let (afterSecond, rest) ← readQualifierGap executableComment rest
      let (thirdSeparator, rest) ← readThirdSeparator executableComment second rest
      let isFunction := thirdSeparator.isNone && rest.head? == some openParen
      if thirdSeparator.isNone && !isFunction && (!scan.context.objectExpected || second.isStar) then
        throw (.malformed
          "ambiguous source-prefixed two-part identifier could be an alias or column reference")
      else
        let output ← scan.output.writeBytes replacement
        let output ← output.writeBytes beforeDot
        let output ← output.writeByte dot
        let output ← output.writeBytes afterDot
        let output ← output.writeBytes second.raw
        let output ← output.writeBytes afterSecond
        let output ← writeThirdSeparator output thirdSeparator
        return (1, { input := rest, output, context := scan.context.observeIdentifierOrValue })

/-! ## Tokens -/

/-- The token so far, and whether it ran over the limit. -/
def readUnquotedToken (token : Bytes) : Bytes → Bytes × Bool × Bytes
  | [] => (token, false, [])
  | byte :: rest =>
    if isUnquotedIdentifierByte byte then
      if maxQuotedIdentifierBytes ≤ token.length then (token, true, byte :: rest)
      else readUnquotedToken (token ++ [byte]) rest
    else (token, false, byte :: rest)

def handleUnquotedToken (executableVersionPending : Bool) (firstByte : UInt8) (scan : Scan) :
    Rewriting (ℕ × Scan) := do
  let (token, overlong, rest) := readUnquotedToken [firstByte] scan.input
  if overlong then
    let (output, rest) ← copyUnquotedTokenRemainder (← scan.output.writeBytes token) rest
    return (0, { input := rest, output, context := scan.context.observeIdentifierOrValue })
  else if executableVersionPending && token.all isAsciiDigit then
    return (0, { scan with input := rest, output := ← scan.output.writeBytes token })
  else if token = identifiers.sourceDatabase then
    handleSourceQualifier token identifiers.quotedTargetDatabase .unquoted executableComment
      { scan with input := rest }
  else
    let output ← scan.output.writeBytes token
    return (0, { input := rest, output, context := scan.context.observeWord token })

/-- The rest of a double-quoted token that cannot spell the source any more. -/
def leaveDoubleQuoted (raw : Bytes) (scan : Scan) : Rewriting (ℕ × Scan) := do
  let output ← scan.output.writeBytes raw
  let (output, rest) ← copyQuotedString dquote executableComment output scan.input
  return (0, { input := rest, output, context := scan.context.observeIdentifierOrValue })

/-- The raw bytes and the decoded token so far; it goes on as long as it may spell the source. -/
def handleDoubleQuotedToken (identifiers : RewriteIdentifiers) (executableComment : Bool)
    (output : BoundedOutput) (context : SqlContext) (raw decoded : Bytes) :
    Bytes → Rewriting (ℕ × Scan)
  | [] => .error (.malformed "unterminated double-quoted token")
  | byte :: rest =>
    if endsExecutable executableComment byte rest then
      .error (.malformed "executable comment terminator inside quoted string")
    else do
      let raw ← pushTokenByte raw byte
      if byte = backslash then
        if identifiers.sourceDatabase[decoded.length]? = some backslash then
          throw (.malformed "ambiguous backslash in possible ANSI-quoted source qualifier")
        else
          match rest with
          | [] => throw (.malformed "double-quoted string ends after an escape byte")
          | escaped :: rest =>
            let raw ← pushTokenByte raw escaped
            leaveDoubleQuoted executableComment raw { input := rest, output, context }
      else if byte = dquote then
        match rest with
        | next :: rest' =>
          if next = dquote then
            let raw ← pushTokenByte raw dquote
            let decoded ← pushTokenByte decoded dquote
            if decoded.isPrefixOf identifiers.sourceDatabase then
              handleDoubleQuotedToken identifiers executableComment output context raw decoded rest'
            else leaveDoubleQuoted executableComment raw { input := rest', output, context }
          else closeDoubleQuoted raw decoded rest
        | [] => closeDoubleQuoted raw decoded rest
      else
        let decoded ← pushTokenByte decoded byte
        if decoded.isPrefixOf identifiers.sourceDatabase then
          handleDoubleQuotedToken identifiers executableComment output context raw decoded rest
        else leaveDoubleQuoted executableComment raw { input := rest, output, context }
where
  /-- The token is closed. -/
  closeDoubleQuoted (raw decoded rest : Bytes) : Rewriting (ℕ × Scan) := do
    if decoded = identifiers.sourceDatabase then
      handleSourceQualifier raw identifiers.doubleQuotedTargetDatabase .doubleQuoted
        executableComment { input := rest, output, context }
    else
      let output ← output.writeBytes raw
      return (0, { input := rest, output, context := context.observeIdentifierOrValue })

variable (scan : Scan)

def handleBacktickToken : Rewriting (ℕ × Scan) := do
  let raw ← pushTokenByte [] backtick
  let (name, rest) ←
    readDelimitedIdentifier backtick executableComment { raw } scan.input
  if name.decoded = identifiers.sourceDatabase then
    handleSourceQualifier name.raw identifiers.quotedTargetDatabase .quoted executableComment
      { scan with input := rest }
  else
    let output ← scan.output.writeBytes name.raw
    return (0, { input := rest, output, context := scan.context.observeIdentifierOrValue })

/-- The branch of `rewrite_sql` behind a quote. -/
def handleString : Rewriting (ℕ × Scan) := do
  let output ← scan.output.writeByte quote
  let (output, rest) ← copyQuotedString quote executableComment output scan.input
  return (0, { input := rest, output, context := scan.context.observeIdentifierOrValue })

/-- The branch of `rewrite_sql` behind a hash. -/
def handleHash : Rewriting (ℕ × Scan) := do
  let output ← scan.output.writeByte hash
  let (output, rest) ← copyLineComment executableComment output scan.input
  return (0, { scan with input := rest, output })

/-- The branch of `rewrite_sql` behind a dash. -/
def handleDash : Rewriting (ℕ × Scan) := do
  let output ← scan.output.writeByte dash
  if scan.input.head? = some dash then
    let output ← output.writeByte dash
    if opensLineComment scan.input.tail then
      let (output, rest) ← copyLineComment executableComment output scan.input.tail
      return (0, { scan with input := rest, output })
    else
      let context := (scan.context.observePunctuation dash).observePunctuation dash
      return (0, { input := scan.input.tail, output, context })
  else return (0, { scan with output, context := scan.context.observePunctuation dash })

variable (nested : Scan → Rewriting (ℕ × Scan))

/-- The branch of `rewrite_sql` behind a slash; `nested` is its call of itself. -/
def handleSlash (scan : Scan) : Rewriting (ℕ × Scan) := do
  let output ← scan.output.writeByte slash
  if scan.input.head? = some star then
    let output ← output.writeByte star
    if executableComment then
      throw (.malformed "nested block comment inside executable comment")
    else
      match executableMark scan.input.tail with
      | some (mark, rest) =>
        let output ← output.writeBytes mark
        nested { scan with input := rest, output }
      | none =>
        let (output, rest) ← copyBlockComment output scan.input.tail
        return (0, { scan with input := rest, output })
  else return (0, { scan with output, context := scan.context.observePunctuation slash })

/-- A byte that is copied as it stands. -/
def copyPunctuation : Rewriting Scan := do
  let context := scan.context.observePunctuation byte
  return { scan with output := ← scan.output.writeByte byte, context }

/-! ## The loop -/

/-- The variables of the loop of `rewrite_sql`. -/
structure Loop where
  scan : Scan
  replacements : ℕ := 0
  executableVersionPending : Bool

/-- The loop goes on behind a token. -/
def Loop.next (loop : Loop) : ℕ × Scan → Loop ⊕ ℕ × Scan
  | (replaced, scan) =>
    .inl { scan, replacements := loop.replacements + replaced, executableVersionPending := false }

/-- The branches of `rewrite_sql` at a byte; `scan` is what comes behind it. -/
def rewriteAt (loop : Loop) (byte : UInt8) (scan : Scan)
    : Rewriting (Loop ⊕ ℕ × Scan) :=
  if byte = quote then do return loop.next (← handleString executableComment scan)
  else if byte = dquote then do
    return loop.next (← handleDoubleQuotedToken identifiers executableComment scan.output
      scan.context [byte] [] scan.input)
  else if byte = backtick then do
    return loop.next (← handleBacktickToken identifiers executableComment scan)
  else if isUnquotedIdentifierByte byte then do
    return loop.next (← handleUnquotedToken identifiers executableComment
      loop.executableVersionPending byte scan)
  else if byte = hash then do return loop.next (← handleHash executableComment scan)
  else if byte = dash then do return loop.next (← handleDash executableComment scan)
  else if byte = slash then do return loop.next (← handleSlash executableComment nested scan)
  else if byte = star then
    if scan.input.head? = some slash then
      if executableComment then do
        let output ← scan.output.writeBytes (ascii "*/")
        return .inr (loop.replacements, { scan with input := scan.input.tail, output })
      else .error (.malformed "unexpected block comment terminator")
    else do return .inl { loop with scan := ← copyPunctuation byte scan }
  else do
    let executableVersionPending := loop.executableVersionPending && isAsciiWhitespace byte
    return .inl { loop with scan := ← copyPunctuation byte scan, executableVersionPending }

/-- One turn of the loop of `rewrite_sql`. -/
def rewriteStep (loop : Loop) : Rewriting (Loop ⊕ ℕ × Scan) :=
  match loop.scan.input with
  | [] =>
    if executableComment then .error (.malformed "unterminated executable comment")
    else .ok (.inr (loop.replacements, loop.scan))
  | byte :: rest =>
    rewriteAt identifiers executableComment nested loop byte { loop.scan with input := rest }

/-- The loop, with fuel for one turn per byte. -/
def rewriteLoop (scan : Scan) : Rewriting (ℕ × Scan) :=
  iterate (rewriteStep identifiers executableComment nested) .timeout (scan.input.length + 1)
    { scan, executableVersionPending := executableComment }

/-- Executable comments do not nest, so that within one `rewrite_sql` never calls itself. -/
def rewriteSql : Scan → Rewriting (ℕ × Scan) :=
  rewriteLoop identifiers executableComment
    (rewriteLoop identifiers true fun _ => .error .timeout)

/-- A name with its quotes doubled. -/
def doubled (quote : UInt8) (name : Bytes) : Bytes :=
  name.flatMap fun byte => if byte = quote then [byte, quote] else [byte]

def quoteIdentifier (identifier : Bytes) (quote : UInt8) : Bytes :=
  quote :: doubled quote identifier ++ [quote]

/-- The identifiers of a rewrite from one database to another. -/
def rewriteIdentifiers (source target : Bytes) : RewriteIdentifiers where
  sourceDatabase := source
  quotedTargetDatabase := quoteIdentifier target backtick
  doubleQuotedTargetDatabase := quoteIdentifier target dquote

/-- The rewrite of a whole dump, as `rewrite_mysql_schemas` starts it. -/
def rewriteDump (sourceDatabase targetDatabase : Bytes) (maxBytes : ℕ) (dump : Bytes) :
    Rewriting (ℕ × Bytes) := do
  let identifiers := rewriteIdentifiers sourceDatabase targetDatabase
  let (replacements, scan) ← rewriteSql identifiers false { input := dump, output := { maxBytes } }
  return (replacements, scan.output.bytes)

example : rewriteDump (ascii "source") (ascii "target") 1000
    (ascii "/*!50001 CREATE VIEW source . v AS SELECT 'source.t' FROM \"source\".t */; -- source.t") =
    .ok (2, ascii
      "/*!50001 CREATE VIEW `target` . v AS SELECT 'source.t' FROM \"target\".t */; -- source.t") := by
  decide +kernel

end DatabasesEverywhere.MysqlSql
