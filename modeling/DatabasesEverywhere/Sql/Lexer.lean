import DatabasesEverywhere.Databases.Protocol
import DatabasesEverywhere.Foundations.Bytes
import DatabasesEverywhere.Foundations.Result

/-!
# Sql/Lexer — the inspection lexer

One lexer serves every SQL dialect: comments are `-- …`, `# …` and nested `/* … */`, strings are
`'…'`, `E'…'` and `$tag$ … $tag$`, and both `"…"` and `` `…` `` quote an identifier.  `nextEvent`
reads one comment or token and hands back the input behind it.

    input ──nextEvent──▸ event, rest ──nextEvent──▸ event, rest ──▸ …

`Lexes` is the chain of such reads; every input is either read to its end or fails on the way.
-/

open Foundations

namespace DatabasesEverywhere.Sql

open Ascii

inductive SqlToken
  | identifier (word : Text)
  | quotedIdentifier (name : Text)
  | oversizedIdentifier
  | dot
  | backslash
  | openParen
  | closeParen
  | equal
  | semicolon
  | other
  deriving DecidableEq

/-- `InspectionError`, without the failures of the reader itself. -/
inductive InspectionError
  | invalid (message : String)
  | limit (message : String)
  deriving DecidableEq

def maxArchiveDepth : ℕ := 32

def maxIdentifierBytes : ℕ := 128

def maxCapturedCommentBytes : ℕ := 64 * 1024

def maxDollarTagBytes : ℕ := 64

/-- What is kept of a comment: its bytes in lower case, up to a limit. -/
structure SqlComment where
  bytes : Bytes := []
  truncated : Bool := false
  deriving DecidableEq

inductive LexEvent
  | token (token : SqlToken)
  | comment (comment : SqlComment)
  deriving DecidableEq

def isWordByte (byte : UInt8) : Bool :=
  isAsciiAlphanumeric byte || byte == underscore || byte == dollar ||
    byte == dash

/-! ## Readers -/

variable (comment : SqlComment)

def captureCommentByte (byte : UInt8) : SqlComment :=
  if comment.bytes.length < maxCapturedCommentBytes then
    { comment with bytes := comment.bytes ++ [toAsciiLowercase byte] }
  else { comment with truncated := true }

def readLineComment (comment : SqlComment) : Bytes → SqlComment × Bytes
  | [] => (comment, [])
  | byte :: rest =>
    if byte = newline then (comment, rest)
    else readLineComment (captureCommentByte comment byte) rest

/-- Block comments nest, and the delimiters of the inner ones are not kept. -/
def readBlockComment (depth : ℕ) (comment : SqlComment) :
    Bytes → Except InspectionError (SqlComment × Bytes)
  | [] | [_] => .error (.invalid "SQL dump has an unterminated comment")
  | byte :: next :: rest =>
    if byte = slash ∧ next = star then
      if maxArchiveDepth < depth + 1 then .error (.limit "SQL comment nesting is too deep")
      else readBlockComment (depth + 1) comment rest
    else if byte = star ∧ next = slash then
      if depth - 1 = 0 then .ok (comment, rest) else readBlockComment (depth - 1) comment rest
    else readBlockComment depth (captureCommentByte comment byte) (next :: rest)

def unterminatedString : InspectionError := .invalid "SQL dump has an unterminated string"

def skipString (backslashEscapes : Bool) : Bytes → Except InspectionError Bytes
  | [] => .error unterminatedString
  | [byte] => if byte = quote then .ok [] else .error unterminatedString
  | byte :: next :: rest =>
    if byte = backslash ∧ backslashEscapes = true then skipString backslashEscapes rest
    else if byte = quote then
      if next = quote then skipString backslashEscapes rest else .ok (next :: rest)
    else skipString backslashEscapes (next :: rest)

/-- The bytes of a name so far, and whether some were left out. -/
structure NameBytes where
  bytes : Bytes := []
  oversized : Bool := false
  deriving DecidableEq

def pushIdentifierByte (name : NameBytes) (byte : UInt8) : Except InspectionError NameBytes :=
  if byte = 0 ∨ isAsciiControl byte = true then
    .error (.invalid "SQL object identifier contains a control character")
  else if name.bytes.length < maxIdentifierBytes then
    .ok { name with bytes := name.bytes ++ [byte] }
  else .ok { name with oversized := true }

/-- What a finished name becomes; `none` is an oversized one. -/
def NameBytes.finish (name : NameBytes) (message : String) :
    Except InspectionError (Option Text) :=
  if name.oversized then .ok none
  else
    match Text.fromUtf8 name.bytes with
    | some text => .ok (some text)
    | none => .error (.invalid message)

def nonUtf8Name : String := "SQL dump contains a non-UTF-8 object identifier"

def unterminatedName : InspectionError :=
  .invalid "SQL dump has an unterminated quoted identifier"

def readQuotedIdentifier (quote : UInt8) (name : NameBytes) :
    Bytes → Except InspectionError (Option Text × Bytes)
  | [] => .error unterminatedName
  | [byte] =>
    if byte = quote then do return (← name.finish nonUtf8Name, [])
    else do
      let _ ← pushIdentifierByte name byte
      .error unterminatedName
  | byte :: next :: rest =>
    if byte = quote then
      if next = quote then do readQuotedIdentifier quote (← pushIdentifierByte name quote) rest
      else do return (← name.finish nonUtf8Name, next :: rest)
    else do readQuotedIdentifier quote (← pushIdentifierByte name byte) (next :: rest)

def readWord (name : NameBytes) : Bytes → Except InspectionError (Option Text × Bytes)
  | [] => do return (← name.finish "SQL dump contains an invalid SQL token", [])
  | byte :: rest =>
    if isWordByte byte then do readWord (← pushIdentifierByte name byte) rest
    else do return (← name.finish "SQL dump contains an invalid SQL token", byte :: rest)

/-- The rest of a delimiter after its first `$`, looking at most `budget` bytes ahead. -/
def tryDollarDelimiter : (budget : ℕ) → Bytes → Option (Bytes × Bytes)
  | 0, _ | _, [] => none
  | budget + 1, byte :: rest =>
    if byte = dollar then some ([byte], rest)
    else if isAsciiAlphanumeric byte || byte == underscore then
      (tryDollarDelimiter budget rest).map fun (tag, rest) => (byte :: tag, rest)
    else none

def skipDollarString (delimiter : Bytes) (matched : ℕ) : Bytes → Except InspectionError Bytes
  | [] => .error (.invalid "SQL dump has an unterminated dollar-quoted string")
  | byte :: rest =>
    if delimiter[matched]? = some byte then
      if matched + 1 = delimiter.length then .ok rest
      else skipDollarString delimiter (matched + 1) rest
    else skipDollarString delimiter (if delimiter.head? = some byte then 1 else 0) rest

/-- The line that ends COPY data. -/
def endsCopyData (line : Bytes) : Bool :=
  (if line.getLast? = some carriage then line.dropLast else line) = ascii "\\."

/-- `line` is what is kept of the current line: three bytes decide. -/
def skipPostgresCopyData (line : Bytes) : Bytes → Except InspectionError Bytes
  | [] => .error (.invalid "PostgreSQL COPY data is missing its terminator")
  | byte :: rest =>
    if byte = newline then
      if endsCopyData line then .ok rest else skipPostgresCopyData [] rest
    else if line.length < 3 then skipPostgresCopyData (line ++ [byte]) rest
    else skipPostgresCopyData line rest

/-! ## One event -/

def nameToken (quoted : Bool) : Option Text → SqlToken
  | none => .oversizedIdentifier
  | some text => if quoted then .quotedIdentifier text else .identifier text

def punctuation (byte : UInt8) : SqlToken :=
  if byte = dot then .dot
  else if byte = backslash then .backslash
  else if byte = openParen then .openParen
  else if byte = closeParen then .closeParen
  else if byte = equal then .equal
  else if byte = semicolon then .semicolon
  else .other

/-- The branches of `next_event` for a byte that starts a word. -/
def wordEvent (first : UInt8) (rest : Bytes) :
    Except InspectionError (LexEvent × Bytes) := do
  let (word, rest) ← readWord (← pushIdentifierByte {} first) rest
  if word.any (fun word => eqIgnoreAsciiCase word.bytes (ascii "E")) &&
      rest.head? == some quote then
    return (.token .other, ← skipString true rest.tail)
  else return (.token (nameToken false word), rest)

/-- `next_event` past the whitespace, at a byte. -/
def eventAt (backslashStrings : Bool) (byte : UInt8) (rest : Bytes) :
    Except InspectionError (LexEvent × Bytes) :=
  if byte = 0 then
    .error (.invalid "SQL dump contains binary data outside a supported dump section")
  else if byte = dash ∧ rest.head? = some dash then
    let (comment, rest) := readLineComment {} rest.tail
    .ok (.comment comment, rest)
  else if byte = hash then
    let (comment, rest) := readLineComment {} rest
    .ok (.comment comment, rest)
  else if byte = slash ∧ rest.head? = some star then do
    let (comment, rest) ← readBlockComment 1 {} rest.tail
    return (.comment comment, rest)
  else if byte = quote then do return (.token .other, ← skipString backslashStrings rest)
  else if byte = dquote ∨ byte = backtick then do
    let (name, rest) ← readQuotedIdentifier byte {} rest
    return (.token (nameToken true name), rest)
  else
    match if byte = dollar then tryDollarDelimiter (maxDollarTagBytes + 1) rest else none with
    | some (tag, rest) => do return (.token .other, ← skipDollarString (byte :: tag) 0 rest)
    | none =>
      if isWordByte byte then wordEvent byte rest else .ok (.token (punctuation byte), rest)

/-- `none` at the end of the input. -/
def nextEvent (backslashStrings : Bool) : Bytes → Except InspectionError (Option (LexEvent × Bytes))
  | [] => .ok none
  | byte :: rest =>
    if isAsciiWhitespace byte then nextEvent backslashStrings rest
    else (eventAt backslashStrings byte rest).map some

/-! ## Readers consume from the front -/

theorem captureCommentByte_length_le (byte : UInt8) :
    (captureCommentByte comment byte).bytes.length ≤ comment.bytes.length + 1 := by
  unfold captureCommentByte
  split <;> simp

variable {input rest : Bytes}

theorem suffix_cons_cons (byte next : UInt8) (input : Bytes) : input <:+ byte :: next :: input :=
  (List.suffix_cons next input).trans (List.suffix_cons byte _)

/-- A comment is read off the front, and what is kept of it is no longer. -/
theorem readLineComment_front (input : Bytes) :
    (readLineComment comment input).2 <:+ input ∧
      (readLineComment comment input).1.bytes.length ≤ comment.bytes.length + input.length := by
  fun_induction readLineComment comment input with
  | case1 => exact ⟨List.suffix_rfl, Nat.le_refl _⟩
  | case2 => exact ⟨List.suffix_cons _ _, Nat.le_add_right _ _⟩
  | case3 comment byte input _ ih =>
    have := captureCommentByte_length_le comment byte
    exact ⟨ih.1.trans (List.suffix_cons _ _), by rw [List.length_cons]; omega⟩

variable {comment}

theorem readBlockComment_front {depth : ℕ} {result : SqlComment}
    (h : readBlockComment depth comment input = .ok (result, rest)) :
    rest <:+ input ∧ result.bytes.length ≤ comment.bytes.length + input.length := by
  fun_induction readBlockComment depth comment input with
  | case1 | case2 | case3 => cases h
  | case4 _ _ _ _ _ _ _ ih | case6 _ _ _ _ _ _ _ _ ih =>
    obtain ⟨hsuffix, hlength⟩ := ih h
    exact ⟨hsuffix.trans (suffix_cons_cons _ _ _), by simp only [List.length_cons]; omega⟩
  | case5 =>
    cases h
    exact ⟨suffix_cons_cons _ _ _, Nat.le_add_right _ _⟩
  | case7 _ comment byte _ _ _ _ ih =>
    obtain ⟨hsuffix, hlength⟩ := ih h
    have := captureCommentByte_length_le comment byte
    exact ⟨hsuffix.trans (List.suffix_cons _ _), by simp only [List.length_cons] at *; omega⟩

theorem skipString_suffix {escapes : Bool} (h : skipString escapes input = .ok rest) :
    rest <:+ input := by
  fun_induction skipString escapes input with
  | case1 | case3 => cases h
  | case2 =>
    cases h
    exact List.nil_suffix
  | case4 _ _ _ _ ih | case5 _ _ ih => exact (ih h).trans (suffix_cons_cons _ _ _)
  | case6 =>
    cases h
    exact List.suffix_cons _ _
  | case7 _ _ _ _ _ ih => exact (ih h).trans (List.suffix_cons _ _)

variable {name : NameBytes} {result : Option Text}

theorem readQuotedIdentifier_suffix {quote : UInt8}
    (h : readQuotedIdentifier quote name input = .ok (result, rest)) : rest <:+ input := by
  fun_induction readQuotedIdentifier quote name input with
  | case1 => cases h
  | case2 | case5 =>
    obtain ⟨_, _, h⟩ := bind_eq_ok.mp h
    cases h
    exact List.suffix_cons _ _
  | case3 =>
    obtain ⟨_, _, h⟩ := bind_eq_ok.mp h
    cases h
  | case4 _ _ ih =>
    obtain ⟨_, _, h⟩ := bind_eq_ok.mp h
    exact (ih _ h).trans (suffix_cons_cons _ _ _)
  | case6 _ _ _ _ _ ih =>
    obtain ⟨_, _, h⟩ := bind_eq_ok.mp h
    exact (ih _ h).trans (List.suffix_cons _ _)

theorem readWord_suffix (h : readWord name input = .ok (result, rest)) : rest <:+ input := by
  fun_induction readWord name input with
  | case1 | case3 =>
    obtain ⟨_, _, h⟩ := bind_eq_ok.mp h
    cases h
    exact List.suffix_rfl
  | case2 _ _ _ _ ih =>
    obtain ⟨_, _, h⟩ := bind_eq_ok.mp h
    exact (ih _ h).trans (List.suffix_cons _ _)

theorem tryDollarDelimiter_suffix {budget : ℕ} {tag : Bytes}
    (h : tryDollarDelimiter budget input = some (tag, rest)) : rest <:+ input := by
  fun_induction tryDollarDelimiter budget input generalizing tag with
  | case1 | case2 | case5 => cases h
  | case3 =>
    cases h
    exact List.suffix_cons _ _
  | case4 _ _ _ _ _ ih =>
    obtain ⟨⟨tag, rest⟩, hinner, h⟩ := Option.map_eq_some_iff.mp h
    cases h
    exact (ih hinner).trans (List.suffix_cons _ _)

theorem skipDollarString_suffix {delimiter : Bytes} {matched : ℕ}
    (h : skipDollarString delimiter matched input = .ok rest) : rest <:+ input := by
  fun_induction skipDollarString delimiter matched input with
  | case1 => cases h
  | case2 =>
    cases h
    exact List.suffix_cons _ _
  | case3 _ _ _ _ _ ih | case4 _ _ _ _ ih => exact (ih h).trans (List.suffix_cons _ _)

variable {event : LexEvent}

theorem wordEvent_suffix {first : UInt8}
    (h : wordEvent first input = .ok (event, rest)) : rest <:+ input := by
  simp only [wordEvent] at h
  obtain ⟨name, -, h⟩ := bind_eq_ok.mp h
  obtain ⟨⟨word, behind⟩, hword, h⟩ := bind_eq_ok.mp h
  have hbehind := readWord_suffix hword
  split at h
  · obtain ⟨rest', hstring, h⟩ := bind_eq_ok.mp h
    cases h
    exact ((skipString_suffix hstring).trans (List.tail_suffix behind)).trans hbehind
  · cases h
    exact hbehind

variable {backslashStrings : Bool} {byte : UInt8}

theorem eventAt_suffix (h : eventAt backslashStrings byte input = .ok (event, rest)) :
    rest <:+ input := by
  rw [eventAt] at h
  split at h
  · cases h
  split at h
  · cases h
    exact (readLineComment_front _ _).1.trans (List.tail_suffix input)
  split at h
  · cases h
    exact (readLineComment_front _ _).1
  split at h
  · obtain ⟨⟨comment, behind⟩, hcomment, h⟩ := bind_eq_ok.mp h
    cases h
    exact (readBlockComment_front hcomment).1.trans (List.tail_suffix input)
  split at h
  · obtain ⟨behind, hstring, h⟩ := bind_eq_ok.mp h
    cases h
    exact skipString_suffix hstring
  split at h
  · obtain ⟨⟨name, behind⟩, hname, h⟩ := bind_eq_ok.mp h
    cases h
    exact readQuotedIdentifier_suffix hname
  split at h
  next tag behind hdollar =>
    split at hdollar
    · obtain ⟨rest', hstring, h⟩ := bind_eq_ok.mp h
      cases h
      exact (skipDollarString_suffix hstring).trans (tryDollarDelimiter_suffix hdollar)
    · cases hdollar
  · split at h
    · exact wordEvent_suffix h
    · cases h
      exact List.suffix_rfl

theorem eventAt_comment_length_le
    (h : eventAt backslashStrings byte input = .ok (.comment comment, rest)) :
    comment.bytes.length ≤ input.length := by
  have hnil : ({} : SqlComment).bytes.length = 0 := rfl
  have htail : input.tail.length ≤ input.length := (List.tail_suffix input).length_le
  rw [eventAt] at h
  split at h
  · cases h
  split at h
  · cases h
    have := (readLineComment_front {} input.tail).2
    omega
  split at h
  · cases h
    have := (readLineComment_front {} input).2
    omega
  split at h
  · obtain ⟨⟨read, behind⟩, hcomment, h⟩ := bind_eq_ok.mp h
    cases h
    have := (readBlockComment_front hcomment).2
    omega
  split at h
  · obtain ⟨_, _, h⟩ := bind_eq_ok.mp h
    cases h
  split at h
  · obtain ⟨_, _, h⟩ := bind_eq_ok.mp h
    cases h
  split at h
  · obtain ⟨_, _, h⟩ := bind_eq_ok.mp h
    cases h
  split at h
  · simp only [wordEvent] at h
    obtain ⟨_, _, h⟩ := bind_eq_ok.mp h
    obtain ⟨_, _, h⟩ := bind_eq_ok.mp h
    split at h
    · obtain ⟨_, _, h⟩ := bind_eq_ok.mp h
      cases h
    · cases h
  · cases h

/-- **Every event consumes**: the input behind it is a proper suffix. -/
theorem nextEvent_length_lt : ∀ {input rest : Bytes} {event : LexEvent},
    nextEvent backslashStrings input = .ok (some (event, rest)) → rest.length < input.length
  | [], _, _, h => by simp [nextEvent] at h
  | byte :: input, rest, event, h => by
    rw [nextEvent] at h
    split at h
    · exact Nat.lt_succ_of_lt (nextEvent_length_lt h)
    cases hevent : eventAt backslashStrings byte input with
    | error e => simp [hevent, Except.map] at h
    | ok result =>
      obtain rfl : result = (event, rest) := by simpa [hevent, Except.map] using h
      exact Nat.lt_succ_of_le (eventAt_suffix hevent).length_le

/-! ## Chains of events -/

/-- Reading some events off an input, and the whitespace around them. -/
inductive Lexes (backslashStrings : Bool) : Bytes → List LexEvent → Bytes → Prop
  | done (input : Bytes) : Lexes backslashStrings input [] input
  | space {byte : UInt8} {input rest : Bytes} {events : List LexEvent}
      (hspace : isAsciiWhitespace byte = true) (h : Lexes backslashStrings input events rest) :
      Lexes backslashStrings (byte :: input) events rest
  | event {byte : UInt8} {input behind rest : Bytes} {event : LexEvent} {events : List LexEvent}
      (hspace : isAsciiWhitespace byte = false)
      (hevent : eventAt backslashStrings byte input = .ok (event, behind))
      (h : Lexes backslashStrings behind events rest) :
      Lexes backslashStrings (byte :: input) (event :: events) rest

/-- The lexer fails somewhere in the input. -/
def Unreadable (backslashStrings : Bool) (input : Bytes) : Prop :=
  ∃ events rest error, Lexes backslashStrings input events rest ∧
    nextEvent backslashStrings rest = .error error

section Chains

theorem Lexes.trans {middle : Bytes} {events events' : List LexEvent}
    (h : Lexes backslashStrings input events middle)
    (h' : Lexes backslashStrings middle events' rest) :
    Lexes backslashStrings input (events ++ events') rest := by
  induction h with
  | done => exact h'
  | space hspace _ ih => exact .space hspace (ih h')
  | event hspace hevent _ ih => exact .event hspace hevent (ih h')

theorem nextEvent_space (input : Bytes) (h : isAsciiWhitespace byte = true) :
    nextEvent backslashStrings (byte :: input) = nextEvent backslashStrings input := by
  rw [nextEvent, if_pos h]

theorem nextEvent_event (input : Bytes) (h : isAsciiWhitespace byte = false) :
    nextEvent backslashStrings (byte :: input) =
      (eventAt backslashStrings byte input).map some := by
  rw [nextEvent, if_neg (by simp [h])]

/-- **Every input is read to its end, or not at all.** -/
theorem lexes_or_unreadable (input : Bytes) :
    (∃ events, Lexes backslashStrings input events []) ∨ Unreadable backslashStrings input := by
  induction hlength : input.length using Nat.strongRecOn generalizing input with
  | ind length ih =>
    subst hlength
    match input with
    | [] => exact .inl ⟨[], .done []⟩
    | byte :: input =>
      cases hspace : isAsciiWhitespace byte with
      | true =>
        rcases ih _ (Nat.lt_succ_self _) input rfl with ⟨events, h⟩ | ⟨events, rest, error, h, herror⟩
        · exact .inl ⟨events, .space hspace h⟩
        · exact .inr ⟨events, rest, error, .space hspace h, herror⟩
      | false =>
        cases hevent : eventAt backslashStrings byte input with
        | error error =>
          refine .inr ⟨[], byte :: input, error, .done _, ?_⟩
          rw [nextEvent_event input hspace, hevent]
          rfl
        | ok result =>
          obtain ⟨event, behind⟩ := result
          have hlt : behind.length < (byte :: input).length :=
            Nat.lt_succ_of_le (eventAt_suffix hevent).length_le
          rcases ih _ hlt behind rfl with ⟨events, h⟩ | ⟨events, rest, error, h, herror⟩
          · exact .inl ⟨event :: events, .event hspace hevent h⟩
          · exact .inr ⟨event :: events, rest, error, .event hspace hevent h, herror⟩

variable {events : List LexEvent}

section Whole

variable (h : Lexes backslashStrings input events [])
include h

/-- What is read off an input is what it starts with: two chains to the end are one. -/
theorem Lexes.unique {events' : List LexEvent} (h' : Lexes backslashStrings input events' []) :
    events = events' := by
  generalize hrest : ([] : Bytes) = rest at h
  induction h generalizing events' with
  | done =>
    subst hrest
    cases h'
    rfl
  | space hspace _ ih =>
    cases h' with
    | space _ h' => exact ih h' hrest
    | event hspace' => exact absurd (hspace.symm.trans hspace') (by simp)
  | event hspace hevent _ ih =>
    cases h' with
    | space hspace' => exact absurd (hspace.symm.trans hspace') (by simp)
    | event _ hevent' h' =>
      cases hevent.symm.trans hevent'
      rw [ih h' hrest]

theorem Lexes.nextEvent_ok : ∃ result, nextEvent backslashStrings input = .ok result := by
  generalize hrest : ([] : Bytes) = rest at h
  induction h with
  | done =>
    subst hrest
    exact ⟨none, rfl⟩
  | space hspace _ ih =>
    rw [nextEvent_space _ hspace]
    exact ih hrest
  | event hspace hevent =>
    rw [nextEvent_event _ hspace, hevent]
    exact ⟨_, rfl⟩

/-- A text that is read to its end is not unreadable. -/
theorem Lexes.readable : ¬ Unreadable backslashStrings input := by
  rintro ⟨events', rest, error, h', herror⟩
  induction h' generalizing events with
  | done rest =>
    obtain ⟨result, hresult⟩ := h.nextEvent_ok
    cases herror.symm.trans hresult
  | space hspace _ ih =>
    cases h with
    | space _ h => exact ih h herror
    | event hspace' => exact absurd (hspace.symm.trans hspace') (by simp)
  | event hspace hevent _ ih =>
    cases h with
    | space hspace' => exact absurd (hspace.symm.trans hspace') (by simp)
    | event _ hevent' h =>
      cases hevent.symm.trans hevent'
      exact ih h herror

end Whole

variable (h : Lexes backslashStrings input events rest)
include h

theorem Lexes.suffix : rest <:+ input := by
  induction h with
  | done => exact List.suffix_rfl
  | space _ _ ih => exact ih.trans (List.suffix_cons ..)
  | event _ hevent _ ih =>
    exact (ih.trans (eventAt_suffix hevent)).trans (List.suffix_cons ..)

/-- What is kept of a comment is shorter than the text it stands in. -/
theorem Lexes.comment_length_lt
    (hcomment : LexEvent.comment comment ∈ events) : comment.bytes.length < input.length := by
  induction h with
  | done => cases hcomment
  | space _ _ ih => exact Nat.lt_succ_of_lt (ih hcomment)
  | event _ hevent _ ih =>
    rcases List.mem_cons.mp hcomment with rfl | hcomment
    · exact Nat.lt_succ_of_le (eventAt_comment_length_le hevent)
    · exact Nat.lt_succ_of_lt (Nat.lt_of_lt_of_le (ih hcomment) (eventAt_suffix hevent).length_le)

end Chains

end DatabasesEverywhere.Sql
