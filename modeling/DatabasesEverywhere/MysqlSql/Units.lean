import DatabasesEverywhere.Foundations.Bytes

/-!
# MysqlSql/Units — the lexical units of MySQL text

What the rewriter takes for code, written down as a function from a text to its first unit:

    '…'  "…"            strings, with backslash escapes and doubled quotes
    `…`                 quoted names, with doubled quotes
    # …   -- …          comments to the end of the line; `--` only before whitespace, a control
                        byte or the end
    /* … */             comments to the first terminator
    /*! … */  /*M! … */ markers around executable code, with a version in front

Words are runs of letters, digits, `_`, `$` and bytes beyond ASCII; every other byte is a unit of
its own.
-/

open Foundations

namespace DatabasesEverywhere.MysqlSql

def isUnquotedIdentifierByte (byte : UInt8) : Bool :=
  isAsciiAlphanumeric byte || byte == Ascii.underscore || byte == Ascii.dollar || 0x80 ≤ byte

/-- Whether what follows `--` makes it a comment. -/
def opensLineComment (rest : Bytes) : Bool :=
  rest.head?.all fun next => isAsciiWhitespace next || isAsciiControl next

/-- The mark that makes a comment executable. -/
def executableMark : Bytes → Option (Bytes × Bytes)
  | 0x21 :: rest => some (ascii "!", rest)
  | 0x4d :: 0x21 :: rest => some (ascii "M!", rest)
  | _ => none

/-! ## Splitting a unit off -/

/-- Put what has been read in front of a unit. -/
def after (read : Bytes) (split : Option (Bytes × Bytes)) : Option (Bytes × Bytes) :=
  split.map fun (raw, rest) => (read ++ raw, rest)

/-- The rest of a string, through its closing quote. -/
def quotedText (quote : UInt8) : Bytes → Option (Bytes × Bytes)
  | [] => none
  | [byte] => if byte = quote ∧ byte ≠ Ascii.backslash then some ([byte], []) else none
  | byte :: next :: rest =>
    if byte = Ascii.backslash then after [byte, next] (quotedText quote rest)
    else if byte = quote then
      if next = quote then after [byte, next] (quotedText quote rest) else some ([byte], next :: rest)
    else after [byte] (quotedText quote (next :: rest))

/-- The rest of a quoted name, through its closing quote: only quotes are doubled. -/
def delimitedText (quote : UInt8) : Bytes → Option (Bytes × Bytes)
  | [] => none
  | [byte] => if byte = quote then some ([byte], []) else none
  | byte :: next :: rest =>
    if byte = quote then
      if next = quote then after [byte, next] (delimitedText quote rest)
      else some ([byte], next :: rest)
    else after [byte] (delimitedText quote (next :: rest))

/-- The rest of a line, with its line feed. -/
def lineText : Bytes → Bytes × Bytes
  | [] => ([], [])
  | byte :: rest =>
    if byte = Ascii.newline then ([byte], rest)
    else (byte :: (lineText rest).1, (lineText rest).2)

/-- The rest of a block comment, through its terminator. -/
def blockText : Bytes → Option (Bytes × Bytes)
  | [] | [_] => none
  | byte :: next :: rest =>
    if byte = Ascii.star ∧ next = Ascii.slash then some ([byte, next], rest)
    else after [byte] (blockText (next :: rest))

/-- The rest of a word. -/
def wordText (input : Bytes) : Bytes × Bytes :=
  (input.takeWhile isUnquotedIdentifierByte, input.dropWhile isUnquotedIdentifierByte)

/-! ## Units -/

/-- Where the scan is: in the text itself, or in an executable comment, perhaps before its
version. -/
inductive Mode
  | text
  | executable (versionPending : Bool)
  deriving DecidableEq

def Mode.isExecutable : Mode → Bool
  | .text => false
  | .executable _ => true

/-- Past something that is not whitespace, the version cannot come any more. -/
def Mode.settled : Mode → Mode
  | .text => .text
  | .executable _ => .executable false

def Mode.versionPending : Mode → Bool
  | .text => false
  | .executable pending => pending

inductive LexicalUnit
  | code (raw : Bytes)
  | word (raw : Bytes)
  | string (raw : Bytes)
  | name (raw : Bytes)
  | comment (raw : Bytes)
  | marker (raw : Bytes)
  | version (raw : Bytes)
  deriving DecidableEq

def LexicalUnit.raw : LexicalUnit → Bytes
  | .code raw | .word raw | .string raw | .name raw | .comment raw | .marker raw | .version raw =>
    raw

/-- A word, unless it is the version of an executable comment. -/
def wordUnit (mode : Mode) (raw : Bytes) : LexicalUnit :=
  if mode.versionPending && raw.all isAsciiDigit then .version raw else .word raw

/-- **The first unit of a text**; `none` at the end and where the text is malformed. -/
def nextUnit (mode : Mode) : Bytes → Option (LexicalUnit × Mode × Bytes)
  | [] => none
  | byte :: rest =>
    if byte = Ascii.quote ∨ byte = Ascii.dquote then
      (quotedText byte rest).map fun (raw, rest) => (.string (byte :: raw), mode.settled, rest)
    else if byte = Ascii.backtick then
      (delimitedText byte rest).map fun (raw, rest) => (.name (byte :: raw), mode.settled, rest)
    else if isUnquotedIdentifierByte byte then
      let (raw, rest) := wordText rest
      some (wordUnit mode (byte :: raw), mode.settled, rest)
    else if byte = Ascii.hash then
      let (raw, rest) := lineText rest
      some (.comment (byte :: raw), mode.settled, rest)
    else if byte = Ascii.dash ∧ rest.head? = some Ascii.dash then
      if opensLineComment rest.tail then
        let (raw, rest) := lineText rest.tail
        some (.comment (byte :: Ascii.dash :: raw), mode.settled, rest)
      else some (.code [byte, Ascii.dash], mode.settled, rest.tail)
    else if byte = Ascii.slash ∧ rest.head? = some Ascii.star then
      if mode.isExecutable then none
      else
        match executableMark rest.tail with
        | some (mark, rest) => some (.marker (byte :: Ascii.star :: mark), .executable true, rest)
        | none =>
          (blockText rest.tail).map fun (raw, rest) =>
            (.comment (byte :: Ascii.star :: raw), mode, rest)
    else if byte = Ascii.star ∧ rest.head? = some Ascii.slash then
      if mode.isExecutable then some (.marker (ascii "*/"), .text, rest.tail) else none
    else
      let settled := !isAsciiWhitespace byte && byte != Ascii.star
      some (.code [byte], if settled then mode.settled else mode, rest)

/-! ## Units are what the text consists of -/

variable {rest : Bytes} {split : Option (Bytes × Bytes)}

theorem after_eq_some {read raw : Bytes} :
    after read split = some (raw, rest) ↔ ∃ raw', split = some (raw', rest) ∧ raw = read ++ raw' := by
  unfold after
  cases split with
  | none => simp
  | some split =>
    obtain ⟨raw', rest'⟩ := split
    simp only [Option.map_some, Option.some.injEq, Prod.mk.injEq]
    constructor
    · rintro ⟨rfl, rfl⟩
      exact ⟨raw', ⟨rfl, rfl⟩, rfl⟩
    · rintro ⟨raw'', ⟨rfl, rfl⟩, rfl⟩
      exact ⟨rfl, rfl⟩

variable {input : Bytes}

/-- What a reader splits off a text starts with the bytes it has read before. -/
theorem after_append {read raw : Bytes}
    (hsplit : ∀ {raw}, split = some (raw, rest) → input = raw ++ rest)
    (h : after read split = some (raw, rest)) : read ++ input = raw ++ rest := by
  obtain ⟨raw', htext, rfl⟩ := after_eq_some.mp h
  rw [hsplit htext, List.append_assoc]

variable {quote : UInt8} {raw : Bytes}

theorem quotedText_append (h : quotedText quote input = some (raw, rest)) : input = raw ++ rest := by
  fun_induction quotedText quote input generalizing raw with
  | case1 | case3 => cases h
  | case2 | case6 =>
    cases h
    rfl
  | case4 _ _ ih | case5 _ _ ih | case7 _ _ _ _ _ ih => exact after_append ih h

theorem delimitedText_append (h : delimitedText quote input = some (raw, rest)) :
    input = raw ++ rest := by
  fun_induction delimitedText quote input generalizing raw with
  | case1 | case3 => cases h
  | case2 | case5 =>
    cases h
    rfl
  | case4 _ ih | case6 _ _ _ _ ih => exact after_append ih h

theorem blockText_append (h : blockText input = some (raw, rest)) : input = raw ++ rest := by
  fun_induction blockText input generalizing raw with
  | case1 | case2 => cases h
  | case3 =>
    cases h
    rfl
  | case4 _ _ _ _ ih => exact after_append ih h

theorem lineText_append : ∀ input : Bytes, input = (lineText input).1 ++ (lineText input).2
  | [] => rfl
  | byte :: input => by
    rw [lineText]
    split
    · rfl
    · exact congrArg (byte :: ·) (lineText_append input)

theorem wordText_append (input : Bytes) : input = (wordText input).1 ++ (wordText input).2 :=
  List.takeWhile_append_dropWhile.symm

theorem executableMark_append {mark : Bytes} (h : executableMark input = some (mark, rest)) :
    input = mark ++ rest := by
  unfold executableMark at h
  split at h <;> cases h <;> rfl

theorem cons_of_head? {byte : UInt8} (h : input.head? = some byte) :
    input = byte :: input.tail := by
  cases input with
  | nil => cases h
  | cons first input =>
    cases h
    rfl

theorem wordUnit_raw (mode : Mode) (raw : Bytes) : (wordUnit mode raw).raw = raw := by
  unfold wordUnit
  split <;> rfl

variable {unit : LexicalUnit}

/-- **A text starts with its first unit.** -/
theorem nextUnit_append {mode mode' : Mode} (h : nextUnit mode input = some (unit, mode', rest)) :
    input = unit.raw ++ rest := by
  cases input with
  | nil => cases h
  | cons byte input =>
    rw [nextUnit] at h
    split at h
    · obtain ⟨⟨raw, rest'⟩, htext, h⟩ := Option.map_eq_some_iff.mp h
      cases h
      rw [quotedText_append htext]
      rfl
    split at h
    · obtain ⟨⟨raw, rest'⟩, htext, h⟩ := Option.map_eq_some_iff.mp h
      cases h
      rw [delimitedText_append htext]
      rfl
    split at h
    · cases h
      rw [wordUnit_raw]
      exact congrArg (byte :: ·) (wordText_append input)
    split at h
    · cases h
      exact congrArg (byte :: ·) (lineText_append input)
    split at h
    next hdash =>
      split at h
      · cases h
        rw [cons_of_head? hdash.2]
        exact congrArg (fun line => byte :: Ascii.dash :: line) (lineText_append input.tail)
      · cases h
        rw [cons_of_head? hdash.2]
        rfl
    split at h
    next hstar =>
      split at h
      · cases h
      split at h
      next mark behind hmark =>
        cases h
        rw [cons_of_head? hstar.2, executableMark_append hmark]
        rfl
      · obtain ⟨⟨raw, rest'⟩, htext, h⟩ := Option.map_eq_some_iff.mp h
        cases h
        rw [cons_of_head? hstar.2, blockText_append htext]
        rfl
    split at h
    next hslash =>
      split at h
      · cases h
        rw [hslash.1, cons_of_head? hslash.2]
        rfl
      · cases h
    · cases h
      rfl

/-- A unit starts with the byte it is read at. -/
theorem nextUnit_head {mode mode' : Mode} {byte : UInt8}
    (h : nextUnit mode (byte :: input) = some (unit, mode', rest)) :
    ∃ raw, unit.raw = byte :: raw := by
  rw [nextUnit] at h
  split at h
  · obtain ⟨split, -, h⟩ := Option.map_eq_some_iff.mp h
    cases h
    exact ⟨_, rfl⟩
  split at h
  · obtain ⟨split, -, h⟩ := Option.map_eq_some_iff.mp h
    cases h
    exact ⟨_, rfl⟩
  split at h
  · cases h
    exact ⟨_, wordUnit_raw ..⟩
  split at h
  · cases h
    exact ⟨_, rfl⟩
  split at h
  · split at h <;> cases h <;> exact ⟨_, rfl⟩
  split at h
  · split at h
    · cases h
    split at h
    · cases h
      exact ⟨_, rfl⟩
    · obtain ⟨split, -, h⟩ := Option.map_eq_some_iff.mp h
      cases h
      exact ⟨_, rfl⟩
  split at h
  next hstar =>
    split at h
    · cases h
      rw [hstar.1]
      exact ⟨_, rfl⟩
    · cases h
  · cases h
    exact ⟨_, rfl⟩

theorem nextUnit_raw_ne_nil {mode mode' : Mode}
    (h : nextUnit mode input = some (unit, mode', rest)) : unit.raw ≠ [] := by
  cases input with
  | nil => cases h
  | cons byte input =>
    obtain ⟨raw, hraw⟩ := nextUnit_head h
    simp [hraw]

end DatabasesEverywhere.MysqlSql
