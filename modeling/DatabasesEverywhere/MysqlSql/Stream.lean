import DatabasesEverywhere.MysqlSql.Bounded

/-!
# MysqlSql/Stream — the scanner over a stream

The functions of the scanner as they work on a `BoundedInput`: they copy what is available at once
up to the next special byte, and look at single bytes from there.

    position special ──▸ some 0     a special byte comes next: read it, peek behind it
                     ──▸ other      copyAvailablePrefix up to it, or all that is available
                     ──▸ length 0   the end of the dump

`MysqlSql/Scanner` states the same functions over the bytes of the dump.
-/

open Foundations

namespace DatabasesEverywhere.MysqlSql.Stream

open Reading

/-! ## Bytes ahead -/

/-- `next_byte` where a byte is known to come. -/
def expectByte : Reading UInt8 := do
  match ← nextByte with
  | some byte => return byte
  | none => fail (.malformed "a byte must remain available")

/-- Where the first special byte among the available ones is, and how many are available. -/
def position (special : UInt8 → Bool) : Reading (Option ℕ × ℕ) := do
  let available ← available
  return (available.findIdx? special, available.length)

variable (identifiers : RewriteIdentifiers) (quote : UInt8) (executableComment : Bool)

variable (byte : UInt8)

/-- The next byte is only peeked at behind a star in an executable comment. -/
def peekEndsExecutable : Reading Bool := do
  if executableComment && byte == Ascii.star then return (← peekByte) == some Ascii.slash
  else return false

/-! ## Copying through -/

variable (raw : Bytes) (output : BoundedOutput)

def copyAvailablePrefix (length : ℕ) : Reading BoundedOutput := do
  let available ← available
  let output ← lift (output.writeBytes (available.take length))
  consume length
  return output

variable (context : SqlContext)

def copyNormalPrefix (length : ℕ) : Reading (BoundedOutput × SqlContext) := do
  let available ← available
  let context := (available.take length).foldl SqlContext.observePunctuation context
  let output ← lift (output.writeBytes (available.take length))
  consume length
  return (output, context)

def quotedStringSpecial : Bool :=
  byte == quote || byte == Ascii.backslash || executableComment && byte == Ascii.star

def quotedStringTurn : Reading (BoundedOutput ⊕ BoundedOutput) := do
  let (special, length) ← position (quotedStringSpecial quote executableComment)
  if length = 0 then fail (.malformed "unterminated quoted string")
  else if special ≠ some 0 then
    return .inl (← copyAvailablePrefix output (special.getD length))
  else
    let byte ← expectByte
    if byte = Ascii.backslash then
      let output ← lift (output.writeByte byte)
      match ← nextByte with
      | none => fail (.malformed "quoted string ends after an escape byte")
      | some escaped =>
        if ← peekEndsExecutable executableComment escaped then
          fail (.malformed "executable comment terminator inside quoted string")
        else return .inl (← lift (output.writeByte escaped))
    else if byte = quote then
      let output ← lift (output.writeByte byte)
      if (← peekByte) = some quote then
        let _ ← nextByte
        return .inl (← lift (output.writeByte quote))
      else return .inr output
    else if (← peekByte) = some Ascii.slash then
      fail (.malformed "executable comment terminator inside quoted string")
    else return .inl (← lift (output.writeByte byte))

def copyQuotedString : Reading BoundedOutput :=
  forever (quotedStringTurn quote executableComment) output

def lineCommentSpecial : Bool :=
  byte == Ascii.newline || executableComment && byte == Ascii.star

def lineCommentTurn : Reading (BoundedOutput ⊕ BoundedOutput) := do
  let (special, length) ← position (lineCommentSpecial executableComment)
  if length = 0 then
    if executableComment then fail (.malformed "unterminated executable comment")
    else return .inr output
  else if special ≠ some 0 then
    return .inl (← copyAvailablePrefix output (special.getD length))
  else
    let byte ← expectByte
    if byte = Ascii.newline then return .inr (← lift (output.writeByte byte))
    else if (← peekByte) = some Ascii.slash then
      fail (.malformed "executable comment terminator inside line comment")
    else return .inl (← lift (output.writeByte byte))

def copyLineComment : Reading BoundedOutput :=
  forever (lineCommentTurn executableComment) output

def blockCommentTurn : Reading (BoundedOutput ⊕ BoundedOutput) := do
  let (star, length) ← position (· == Ascii.star)
  if length = 0 then fail (.malformed "unterminated block comment")
  else if star ≠ some 0 then return .inl (← copyAvailablePrefix output (star.getD length))
  else
    let _ ← nextByte
    let output ← lift (output.writeByte Ascii.star)
    if (← peekByte) = some Ascii.slash then
      let _ ← nextByte
      return .inr (← lift (output.writeByte Ascii.slash))
    else return .inl output

def copyBlockComment : Reading BoundedOutput :=
  forever blockCommentTurn output

def unquotedRemainderTurn : Reading (BoundedOutput ⊕ BoundedOutput) := do
  let (stop, length) ← position (!isUnquotedIdentifierByte ·)
  match stop with
  | some 0 => return .inr output
  | some index => return .inr (← copyAvailablePrefix output index)
  | none =>
    if length = 0 then return .inr output
    else return .inl (← copyAvailablePrefix output length)

def copyUnquotedTokenRemainder : Reading BoundedOutput :=
  forever unquotedRemainderTurn output

def copyExecutableCommentMarker : Reading (Bool × BoundedOutput) := do
  if (← peekByte) = some Ascii.bang then
    let _ ← nextByte
    return (true, ← lift (output.writeByte Ascii.bang))
  else if (← peekByte) = some Ascii.upperM then
    if (← peekNthByte 1) = some Ascii.bang then
      let _ ← nextByte
      let _ ← nextByte
      return (true, ← lift (output.writeBytes (ascii "M!")))
    else return (false, output)
  else return (false, output)

/-! ## Qualifiers -/

variable (gap : Bytes)

def gapLineCommentTurn : Reading (Bytes ⊕ Bytes) := do
  match ← nextByte with
  | none =>
    if executableComment then fail (.malformed "unterminated executable comment")
    else return .inr gap
  | some byte =>
    if ← peekEndsExecutable executableComment byte then
      fail (.malformed "executable comment terminator inside line comment")
    else
      let gap ← lift (pushGapByte gap byte)
      if byte = Ascii.newline then return .inr gap else return .inl gap

def readGapLineComment : Reading Bytes :=
  forever (gapLineCommentTurn executableComment) gap

def gapBlockCommentTurn : Reading (Bytes ⊕ Bytes) := do
  match ← nextByte with
  | none => fail (.malformed "unterminated block comment in source qualifier")
  | some byte =>
    let gap ← lift (pushGapByte gap byte)
    if byte = Ascii.star then
      if (← peekByte) = some Ascii.slash then
        let next ← expectByte
        return .inr (← lift (pushGapByte gap next))
      else return .inl gap
    else return .inl gap

def readGapBlockComment : Reading Bytes :=
  forever gapBlockCommentTurn gap

/-- `--` and what makes it a comment, peeked at only behind a dash. -/
def peekLineComment : Reading Bool := do
  if (← peekNthByte 1) = some Ascii.dash then
    return (← peekNthByte 2).all fun next => isAsciiWhitespace next || isAsciiControl next
  else return false

/-- The mark of an executable comment behind `/*`. -/
def peekExecutableMark : Reading Bool := do
  if (← peekNthByte 2) = some Ascii.bang then return true
  else if (← peekNthByte 2) = some Ascii.upperM then return (← peekNthByte 3) == some Ascii.bang
  else return false

def gapTurn : Reading (Bytes ⊕ Bytes) := do
  match ← peekByte with
  | none => return .inr gap
  | some byte =>
    if isAsciiWhitespace byte then
      let byte ← expectByte
      return .inl (← lift (pushGapByte gap byte))
    else if byte = Ascii.hash then
      let byte ← expectByte
      let gap ← lift (pushGapByte gap byte)
      return .inl (← readGapLineComment executableComment gap)
    else if byte = Ascii.dash then
      if ← peekLineComment then
        let byte ← expectByte
        let gap ← lift (pushGapByte gap byte)
        let byte ← expectByte
        let gap ← lift (pushGapByte gap byte)
        return .inl (← readGapLineComment executableComment gap)
      else return .inr gap
    else if byte = Ascii.slash then
      if (← peekNthByte 1) = some Ascii.star then
        if executableComment then
          fail (.malformed "nested block comment inside executable comment")
        else if ← peekExecutableMark then
          fail (.malformed "executable comment inside a source qualifier is unsupported")
        else
          let byte ← expectByte
          let gap ← lift (pushGapByte gap byte)
          let byte ← expectByte
          let gap ← lift (pushGapByte gap byte)
          return .inl (← readGapBlockComment gap)
      else return .inr gap
    else return .inr gap

def readQualifierGap : Reading Bytes :=
  forever (gapTurn executableComment) []

def delimitedTurn (name : DelimitedIdentifier) :
    Reading (DelimitedIdentifier ⊕ DelimitedIdentifier) := do
  match ← nextByte with
  | none => fail (.malformed "unterminated quoted identifier")
  | some byte =>
    if ← peekEndsExecutable executableComment byte then
      fail (.malformed "executable comment terminator inside quoted identifier")
    else
      let raw ← lift (pushTokenByte name.raw byte)
      if byte ≠ quote then
        let decoded ← lift (pushTokenByte name.decoded byte)
        return .inl { raw, decoded }
      else if (← peekByte) = some quote then
        let _ ← nextByte
        let raw ← lift (pushTokenByte raw quote)
        let decoded ← lift (pushTokenByte name.decoded quote)
        return .inl { raw, decoded }
      else return .inr { name with raw }

def readDelimitedIdentifier : Reading DelimitedIdentifier := do
  let raw ← lift (pushTokenByte [] quote)
  forever (delimitedTurn quote executableComment) { raw }

def unquotedIdentifierTurn : Reading (Bytes ⊕ Bytes) := do
  if (← peekByte).any isUnquotedIdentifierByte then
    if maxQuotedIdentifierBytes ≤ raw.length then
      fail (.malformed "unquoted identifier in source qualifier exceeds the token limit")
    else
      let byte ← expectByte
      return .inl (raw ++ [byte])
  else return .inr raw

def readQualifiedIdentifier : Reading (Option QualifiedIdentifier) := do
  match ← peekByte with
  | none => return none
  | some byte =>
    if byte = Ascii.backtick ∨ byte = Ascii.dquote then
      let quote ← expectByte
      let name ← readDelimitedIdentifier quote executableComment
      return some { raw := name.raw, isStar := false }
    else if byte = Ascii.star then
      let _ ← nextByte
      return some { raw := [Ascii.star], isStar := true }
    else if isUnquotedIdentifierByte byte then
      let raw ← forever unquotedIdentifierTurn []
      return some { raw, isStar := false }
    else return none

/-- The third part of a qualifier, if there is one: the gap behind the second dot. -/
def readThirdSeparator (second : QualifiedIdentifier) : Reading (Option Bytes) := do
  if (← peekByte) = some Ascii.dot then
    if second.isStar then
      fail (.malformed "wildcard cannot be the middle of a three-part source qualifier")
    else
      let _ ← nextByte
      let gap ← readQualifierGap executableComment
      if (← peekByte).any isQualifiedIdentifierStart then return some gap
      else fail (.malformed "three-part source qualifier has no final identifier")
  else return none

/-- A call of a function is only looked for behind two parts. -/
def peekFunction (thirdSeparator : Option Bytes) : Reading Bool := do
  if thirdSeparator.isNone then return (← peekByte) == some Ascii.openParen else return false

/-- What the handlers of tokens return: the replacements they made, the output and the context. -/
abbrev Handled : Type := ℕ × BoundedOutput × SqlContext

def handleSourceQualifier (rawSource replacement : Bytes) (kind : SourceTokenKind)
    (executableComment : Bool) (output : BoundedOutput) (context : SqlContext) :
    Reading Handled := do
  let beforeDot ← readQualifierGap executableComment
  if (← peekByte) ≠ some Ascii.dot then
    let output ← lift (output.writeBytes rawSource)
    let output ← lift (output.writeBytes beforeDot)
    return (0, output, observeUnqualifiedSource context kind rawSource)
  else
    let _ ← nextByte
    let afterDot ← readQualifierGap executableComment
    match ← readQualifiedIdentifier executableComment with
    | none =>
      fail (.malformed "source qualifier dot is not followed by a supported identifier")
    | some second =>
      let afterSecond ← readQualifierGap executableComment
      let thirdSeparator ← readThirdSeparator executableComment second
      let isFunction ← peekFunction thirdSeparator
      if thirdSeparator.isNone && !isFunction && (!context.objectExpected || second.isStar) then
        fail (.malformed
          "ambiguous source-prefixed two-part identifier could be an alias or column reference")
      else
        let output ← lift (output.writeBytes replacement)
        let output ← lift (output.writeBytes beforeDot)
        let output ← lift (output.writeByte Ascii.dot)
        let output ← lift (output.writeBytes afterDot)
        let output ← lift (output.writeBytes second.raw)
        let output ← lift (output.writeBytes afterSecond)
        let output ← lift (writeThirdSeparator output thirdSeparator)
        return (1, output, context.observeIdentifierOrValue)

/-! ## Tokens -/

/-- The token so far; past its end, whether it ran over the limit. -/
def unquotedTokenTurn (token : Bytes) : Reading (Bytes ⊕ Bytes × Bool) := do
  if (← peekByte).any isUnquotedIdentifierByte then
    if maxQuotedIdentifierBytes ≤ token.length then return .inr (token, true)
    else
      let byte ← expectByte
      return .inl (token ++ [byte])
  else return .inr (token, false)

def handleUnquotedToken (executableVersionPending : Bool) (firstByte : UInt8)
    (output : BoundedOutput) (context : SqlContext) : Reading Handled := do
  let (token, overlong) ← forever unquotedTokenTurn [firstByte]
  if overlong then
    let output ← lift (output.writeBytes token)
    let output ← copyUnquotedTokenRemainder output
    return (0, output, context.observeIdentifierOrValue)
  else if executableVersionPending && token.all isAsciiDigit then
    let output ← lift (output.writeBytes token)
    return (0, output, context)
  else if token = identifiers.sourceDatabase then
    handleSourceQualifier token identifiers.quotedTargetDatabase .unquoted executableComment output
      context
  else
    let output ← lift (output.writeBytes token)
    return (0, output, context.observeWord token)

/-- The rest of a double-quoted token that cannot spell the source any more. -/
def leaveDoubleQuoted : Reading Handled := do
  let output ← lift (output.writeBytes raw)
  let output ← copyQuotedString Ascii.dquote executableComment output
  return (0, output, context.observeIdentifierOrValue)

/-- The raw bytes and the decoded token so far; it goes on as long as it may spell the source. -/
def doubleQuotedTurn (token : DelimitedIdentifier) : Reading (DelimitedIdentifier ⊕ Handled) := do
  match ← nextByte with
  | none => fail (.malformed "unterminated double-quoted token")
  | some byte =>
    if ← peekEndsExecutable executableComment byte then
      fail (.malformed "executable comment terminator inside quoted string")
    else
      let raw ← lift (pushTokenByte token.raw byte)
      if byte = Ascii.backslash then
        if identifiers.sourceDatabase[token.decoded.length]? = some Ascii.backslash then
          fail (.malformed "ambiguous backslash in possible ANSI-quoted source qualifier")
        else
          match ← nextByte with
          | none => fail (.malformed "double-quoted string ends after an escape byte")
          | some escaped =>
            let raw ← lift (pushTokenByte raw escaped)
            return .inr (← leaveDoubleQuoted executableComment raw output context)
      else if byte = Ascii.dquote then
        if (← peekByte) = some Ascii.dquote then
          let _ ← nextByte
          let raw ← lift (pushTokenByte raw Ascii.dquote)
          let decoded ← lift (pushTokenByte token.decoded Ascii.dquote)
          goOn { raw, decoded }
        else if token.decoded = identifiers.sourceDatabase then
          return .inr (← handleSourceQualifier raw identifiers.doubleQuotedTargetDatabase
            .doubleQuoted executableComment output context)
        else
          let output ← lift (output.writeBytes raw)
          return .inr (0, output, context.observeIdentifierOrValue)
      else
        let decoded ← lift (pushTokenByte token.decoded byte)
        goOn { raw, decoded }
where
  /-- The end of the turn: whether the token may still spell the source. -/
  goOn (token : DelimitedIdentifier) : Reading (DelimitedIdentifier ⊕ Handled) := do
    if token.decoded.isPrefixOf identifiers.sourceDatabase then return .inl token
    else return .inr (← leaveDoubleQuoted executableComment token.raw output context)

def handleDoubleQuotedToken : Reading Handled :=
  forever (doubleQuotedTurn identifiers executableComment output context) { raw := [Ascii.dquote] }

def handleBacktickToken : Reading Handled := do
  let name ← readDelimitedIdentifier Ascii.backtick executableComment
  if name.decoded = identifiers.sourceDatabase then
    handleSourceQualifier name.raw identifiers.quotedTargetDatabase .quoted executableComment output
      context
  else
    let output ← lift (output.writeBytes name.raw)
    return (0, output, context.observeIdentifierOrValue)

/-- The branch of `rewrite_sql` behind a quote. -/
def handleString : Reading Handled := do
  let output ← lift (output.writeByte Ascii.quote)
  let output ← copyQuotedString Ascii.quote executableComment output
  return (0, output, context.observeIdentifierOrValue)

/-- The branch of `rewrite_sql` behind a hash. -/
def handleHash : Reading Handled := do
  let output ← lift (output.writeByte Ascii.hash)
  let output ← copyLineComment executableComment output
  return (0, output, context)

/-- The branch of `rewrite_sql` behind a dash. -/
def handleDash : Reading Handled := do
  let output ← lift (output.writeByte Ascii.dash)
  if (← peekByte) = some Ascii.dash then
    let _ ← nextByte
    let output ← lift (output.writeByte Ascii.dash)
    if (← peekByte).all fun next => isAsciiWhitespace next || isAsciiControl next then
      let output ← copyLineComment executableComment output
      return (0, output, context)
    else
      let context := (context.observePunctuation Ascii.dash).observePunctuation Ascii.dash
      return (0, output, context)
  else return (0, output, context.observePunctuation Ascii.dash)

variable (nested : BoundedOutput → SqlContext → Reading Handled)

/-- The branch of `rewrite_sql` behind a slash; `nested` is its call of itself. -/
def handleSlash (output : BoundedOutput) (context : SqlContext) : Reading Handled := do
  let output ← lift (output.writeByte Ascii.slash)
  if (← peekByte) = some Ascii.star then
    let _ ← nextByte
    let output ← lift (output.writeByte Ascii.star)
    if executableComment then
      fail (.malformed "nested block comment inside executable comment")
    else
      let (marked, output) ← copyExecutableCommentMarker output
      if marked then nested output context
      else
        let output ← copyBlockComment output
        return (0, output, context)
  else return (0, output, context.observePunctuation Ascii.slash)

/-! ## The loop -/

/-- The variables of the loop of `rewrite_sql`. -/
structure Loop where
  output : BoundedOutput
  context : SqlContext
  replacements : ℕ := 0
  executableVersionPending : Bool

/-- The loop goes on behind a token. -/
def Loop.next (loop : Loop) : Handled → Loop ⊕ Handled
  | (replaced, output, context) =>
    .inl { output, context
           replacements := loop.replacements + replaced
           executableVersionPending := false }

def normalSpecial : Bool :=
  byte == Ascii.quote || byte == Ascii.dquote || byte == Ascii.backtick || byte == Ascii.slash ||
    byte == Ascii.dash || byte == Ascii.hash || byte == Ascii.star || isUnquotedIdentifierByte byte

/-- The branches of `rewrite_sql` behind a special byte. -/
def rewriteAt (loop : Loop) (byte : UInt8) : Reading (Loop ⊕ Handled) := do
  if byte = Ascii.quote then
    return loop.next (← handleString executableComment loop.output loop.context)
  else if byte = Ascii.dquote then
    return loop.next (← handleDoubleQuotedToken identifiers executableComment loop.output
      loop.context)
  else if byte = Ascii.backtick then
    return loop.next (← handleBacktickToken identifiers executableComment loop.output loop.context)
  else if isUnquotedIdentifierByte byte then
    return loop.next (← handleUnquotedToken identifiers executableComment
      loop.executableVersionPending byte loop.output loop.context)
  else if byte = Ascii.hash then
    return loop.next (← handleHash executableComment loop.output loop.context)
  else if byte = Ascii.dash then
    return loop.next (← handleDash executableComment loop.output loop.context)
  else if byte = Ascii.slash then
    return loop.next (← handleSlash executableComment nested loop.output loop.context)
  else if (← peekByte) = some Ascii.slash then
    let _ ← nextByte
    if !executableComment then fail (.malformed "unexpected block comment terminator")
    else
      let output ← lift (loop.output.writeBytes (ascii "*/"))
      return .inr (loop.replacements, output, loop.context)
  else
    let output ← lift (loop.output.writeByte byte)
    return .inl { loop with output, context := loop.context.observePunctuation byte }

/-- One turn of the loop of `rewrite_sql`. -/
def rewriteTurn (loop : Loop) : Reading (Loop ⊕ Handled) := do
  let (special, length) ← position normalSpecial
  if length = 0 then
    if executableComment then fail (.malformed "unterminated executable comment")
    else return .inr (loop.replacements, loop.output, loop.context)
  else if special ≠ some 0 then
    let plain := special.getD length
    let pending ← stillPending loop.executableVersionPending plain
    let (output, context) ← copyNormalPrefix loop.output loop.context plain
    return .inl { loop with output, context, executableVersionPending := pending }
  else
    let byte ← expectByte
    rewriteAt identifiers executableComment nested loop byte
where
  /-- The version of an executable comment may still come behind whitespace. -/
  stillPending (pending : Bool) (plain : ℕ) : Reading Bool := do
    if pending then return !((← available).take plain).any (!isAsciiWhitespace ·)
    else return false

def rewriteLoop (output : BoundedOutput) (context : SqlContext) : Reading Handled :=
  forever (rewriteTurn identifiers executableComment nested)
    { output, context, executableVersionPending := executableComment }

/-- Executable comments do not nest, so that within one `rewrite_sql` never calls itself. -/
def rewriteSql : BoundedOutput → SqlContext → Reading Handled :=
  rewriteLoop identifiers executableComment
    (rewriteLoop identifiers true fun _ _ _ => .error .exhausted)

/-- `rewrite_sql` over a new `BoundedInput`: the replacements and the bytes that are written. -/
def rewriteStream (maxBytes : ℕ) (reader : ByteReader) : Except BoundedError (ℕ × Bytes) := do
  let ((replacements, output, _), _) ←
    rewriteSql identifiers executableComment output context (BoundedInput.new reader maxBytes)
  return (replacements, output.bytes)

end DatabasesEverywhere.MysqlSql.Stream
