import DatabasesEverywhere.Foundations.Cursors
import DatabasesEverywhere.Foundations.Decimal
import DatabasesEverywhere.Foundations.Result

/-!
# Gateway/RespFrame — the first frame of a RESP client

    frame    = "*" count CRLF argument … argument
    argument = "$" length CRLF bytes CRLF

What the parser has read it has read off a field (`Cursor.Framed`), so a frame can be cut out of the
buffer or put in front of other bytes; and **a serialised frame is read back**
(`parseRespArray_serialize`).
-/

open Foundations

namespace DatabasesEverywhere.Gateway

open Cursor

inductive RedisParseError
  | empty
  | incomplete
  | unsupported
  | missingUsername
  | invalidUtf8
  deriving DecidableEq

def maxInitialArgs : ℕ := 16

def maxBulkLength : ℕ := 16 * 1024

def crlf : Bytes := [Ascii.carriage, Ascii.newline]

/-! ## The parser -/

/-- The loop of `read_decimal_line`, with the line so far in reverse. -/
def readLine : Bytes → Bytes → Except RedisParseError (ℕ × ℕ)
  | line, first :: second :: rest =>
    if first = Ascii.carriage && second = Ascii.newline then
      if line.isEmpty then .error .unsupported
      else
        match parseDecimal usizeMax line.reverse with
        | none => .error .unsupported
        | some value => .ok (value, line.length + 2)
    else readLine (first :: line) (second :: rest)
  | _, _ => .error .incomplete

def readDecimalLine : Cursor RedisParseError ℕ := Cursor.ahead (readLine [])

/-- The bytes of a value and the line end behind them.  The ends of both are in range of a `usize`,
as the length is at most `MAX_BULK_LENGTH` and the offset inside of the buffer. -/
def readBulk (len : ℕ) (bytes : Bytes) : Except RedisParseError (Bytes × ℕ) :=
  if bytes.length < len + 2 then .error .incomplete
  else if (bytes.drop len).take 2 ≠ crlf then .error .unsupported
  else .ok (bytes.take len, len + 2)

/-- One turn of the loop over the arguments. -/
def parseArgument : Cursor RedisParseError Bytes := do
  let marker ← Cursor.nextByte .incomplete
  if marker ≠ Ascii.dollar then Cursor.fail .unsupported
  else
    let len ← readDecimalLine
    if len > maxBulkLength then Cursor.fail .unsupported else Cursor.ahead (readBulk len)

def parseArguments : ℕ → Cursor RedisParseError (List Bytes)
  | 0 => pure []
  | count + 1 => do
    let argument ← parseArgument
    let arguments ← parseArguments count
    pure (argument :: arguments)

variable (marker : UInt8)

/-- What follows the first byte. -/
def parseFrame : Cursor RedisParseError (List Bytes) :=
  if marker ≠ Ascii.star then Cursor.fail .unsupported
  else do
    let count ← readDecimalLine
    if count > maxInitialArgs then Cursor.fail .unsupported else parseArguments count

def parseRespArray (bytes : Bytes) : Except RedisParseError (List Bytes × ℕ) :=
  (Cursor.nextByte .empty >>= parseFrame) bytes 0

/-! ## The serialiser -/

def respLengthLine (len : ℕ) : Bytes := marker :: decimal len ++ crlf

def respArgument (argument : Bytes) : Bytes :=
  respLengthLine Ascii.dollar argument.length ++ argument ++ crlf

def serializeRespArray (args : List Bytes) : Bytes :=
  respLengthLine Ascii.star args.length ++ args.flatMap respArgument

/-! ## An answer is final

What is read does not depend on what follows, and the parser asks for more bytes only if they can
make a difference: its other errors stay. -/

theorem readLine_eq_ok {line bytes : Bytes} {value count : ℕ}
    (h : readLine line bytes = .ok (value, count)) :
    ∃ front rest, front ≠ [] ∧ bytes = front ++ rest ∧ count = line.length + front.length ∧
      ∀ tail, readLine line (front ++ tail) = .ok (value, count) := by
  induction bytes generalizing line with
  | nil => cases h
  | cons first bytes ih =>
    cases bytes with
    | nil => cases h
    | cons second bytes =>
      rw [readLine] at h
      split at h
      · next hend =>
        split at h
        · cases h
        next hline =>
        split at h
        · cases h
        next found hvalue =>
        cases h
        refine ⟨[first, second], bytes, by simp, rfl, rfl, fun tail => ?_⟩
        simp only [List.cons_append, List.nil_append, readLine, hend, if_true, hline, hvalue,
          Bool.false_eq_true, if_false]
      · next hend =>
        obtain ⟨front, rest, hne, hfront, rfl, hreads⟩ := ih h
        obtain ⟨head, front, rfl⟩ := List.exists_cons_of_ne_nil hne
        obtain ⟨rfl, -⟩ := List.cons.inj hfront
        refine ⟨first :: second :: front, rest, by simp, congrArg (first :: ·) hfront,
          by simp only [List.length_cons]; omega, fun tail => ?_⟩
        rw [List.cons_append, List.cons_append, readLine, if_neg hend]
        exact hreads tail

theorem readLine_final (line bytes : Bytes) (error : RedisParseError)
    (h : readLine line bytes = .error error) (hfinal : error ≠ .incomplete) (more : Bytes) :
    readLine line (bytes ++ more) = .error error := by
  induction bytes generalizing line with
  | nil => exact absurd (Except.error.inj h).symm hfinal
  | cons first bytes ih =>
    cases bytes with
    | nil => exact absurd (Except.error.inj h).symm hfinal
    | cons second bytes =>
      rw [readLine] at h
      rw [List.cons_append, List.cons_append, readLine]
      split at h
      · next hend =>
        rw [if_pos hend]
        split at h
        · next hempty => rw [if_pos hempty, h]
        next hempty =>
        rw [if_neg hempty]
        split at h
        · exact h
        · cases h
      · next hend =>
        rw [if_neg hend, ← List.cons_append]
        exact ih _ h

/-- With the line end all of it is there, and nothing behind it is looked at. -/
theorem readBulk_append {len : ℕ} {bytes : Bytes} (h : len + 2 ≤ bytes.length) (more : Bytes) :
    readBulk len (bytes ++ more) = readBulk len bytes := by
  have hshort : ¬ (bytes ++ more).length < len + 2 := by
    rw [List.length_append]
    omega
  rw [readBulk, readBulk, if_neg hshort, if_neg (Nat.not_lt.mpr h),
    List.drop_append_of_le_length (by omega),
    List.take_append_of_le_length (by rw [List.length_drop]; omega),
    List.take_append_of_le_length (by omega)]

theorem readBulk_eq_ok {len count : ℕ} {bytes value : Bytes}
    (h : readBulk len bytes = .ok (value, count)) :
    value.length = len ∧ count = len + 2 ∧ len + 2 ≤ bytes.length := by
  rw [readBulk] at h
  split at h
  · cases h
  · split at h
    · cases h
    · cases h
      exact ⟨by rw [List.length_take]; omega, rfl, by omega⟩

section Readers

/-- No bound on the input is needed. -/
abbrev anyLength (_ : ℕ) : Prop := True

theorem framed_decimalLine : readDecimalLine.Framed anyLength := by
  refine framed_ahead fun bytes value count h => ?_
  obtain ⟨front, rest, -, hfront, hcount, hreads⟩ := readLine_eq_ok h
  rw [List.length_nil, Nat.zero_add] at hcount
  exact ⟨front, rest, hfront, hcount, hcount ▸ hreads⟩

theorem final_decimalLine : readDecimalLine.Final .incomplete :=
  final_ahead (readLine_final [])

theorem framed_bulk (len : ℕ) : (Cursor.ahead (readBulk len)).Framed anyLength := by
  refine framed_ahead fun bytes value count h => ?_
  obtain ⟨-, rfl, hlength⟩ := readBulk_eq_ok h
  have hfront : (bytes.take (len + 2)).length = len + 2 := List.length_take_of_le hlength
  refine ⟨bytes.take (len + 2), bytes.drop (len + 2), (List.take_append_drop ..).symm,
    hfront.symm, fun tail => ?_⟩
  rw [hfront, readBulk_append hfront.ge, ← h]
  nth_rewrite 2 [← List.take_append_drop (len + 2) bytes]
  rw [readBulk_append hfront.ge]

theorem final_bulk (len : ℕ) : (Cursor.ahead (readBulk len)).Final .incomplete := by
  refine final_ahead fun bytes error h hfinal more => ?_
  have hlength : len + 2 ≤ bytes.length := by
    by_contra hshort
    rw [readBulk, if_pos (Nat.not_le.mp hshort)] at h
    exact hfinal (Except.error.inj h).symm
  rw [readBulk_append hlength, h]

theorem framed_argument : parseArgument.Framed anyLength :=
  (framed_nextByte _).bind fun _ => framed_ite _ (framed_fail _)
    (framed_decimalLine.bind fun len => framed_ite _ (framed_fail _)
      (framed_bulk len))

theorem final_argument : parseArgument.Final .incomplete :=
  (final_nextByte _).bind (framed_nextByte _) fun _ =>
    final_ite _ (final_fail _) (final_decimalLine.bind framed_decimalLine fun len =>
      final_ite _ (final_fail _) (final_bulk len))

theorem framed_arguments : ∀ count, (parseArguments count).Framed anyLength
  | 0 => framed_pure []
  | count + 1 => framed_argument.bind fun _ => (framed_arguments count).bind fun _ =>
    framed_pure _

theorem final_arguments : ∀ count, (parseArguments count).Final .incomplete
  | 0 => final_pure []
  | count + 1 => final_argument.bind framed_argument fun _ =>
    (final_arguments count).bind (framed_arguments count) fun _ => final_pure _

theorem framed_frame : (parseFrame marker).Framed anyLength :=
  framed_ite _ (framed_fail _) (framed_decimalLine.bind fun count =>
    framed_ite _ (framed_fail _) (framed_arguments count))

theorem final_frame : (parseFrame marker).Final .incomplete :=
  final_ite _ (final_fail _) (final_decimalLine.bind framed_decimalLine fun count =>
    final_ite _ (final_fail _) (final_arguments count))

end Readers

/-- What is known of the arguments of a frame. -/
structure FrameArguments (args : List Bytes) : Prop where
  few : args.length ≤ maxInitialArgs
  short : ∀ argument ∈ args, argument.length ≤ maxBulkLength

variable {args : List Bytes} {bytes : Bytes} {offset stop consumed : ℕ}

theorem length_argument {argument : Bytes}
    (h : parseArgument bytes offset = .ok (argument, stop)) : argument.length ≤ maxBulkLength := by
  obtain ⟨marker, _, -, h⟩ := bind_eq_ok.mp h
  split at h
  · cases h
  obtain ⟨len, middle, -, h⟩ := bind_eq_ok.mp h
  split at h
  · cases h
  next hlen =>
  rw [Cursor.ahead] at h
  cases hbulk : readBulk len (bytes.drop middle) with
  | error e =>
    rw [hbulk] at h
    cases h
  | ok result =>
    rw [hbulk] at h
    cases h
    rw [(readBulk_eq_ok hbulk).1]
    exact Nat.not_lt.mp hlen

theorem arguments_eq_ok : ∀ {count offset : ℕ} {args : List Bytes},
    parseArguments count bytes offset = .ok (args, stop) →
      args.length = count ∧ ∀ argument ∈ args, argument.length ≤ maxBulkLength
  | 0, _, _, h => by
    cases h
    exact ⟨rfl, nofun⟩
  | count + 1, _, _, h => by
    obtain ⟨argument, _, hargument, h⟩ := bind_eq_ok.mp h
    obtain ⟨arguments, _, harguments, h⟩ := bind_eq_ok.mp h
    cases h
    obtain ⟨hlength, hshort⟩ := arguments_eq_ok harguments
    exact ⟨congrArg (· + 1) hlength,
      List.forall_mem_cons.mpr ⟨length_argument hargument, hshort⟩⟩

theorem frameArguments_of_ok {marker : UInt8}
    (h : parseFrame marker bytes offset = .ok (args, stop)) : FrameArguments args := by
  rw [parseFrame] at h
  split at h
  · cases h
  obtain ⟨count, _, -, h⟩ := bind_eq_ok.mp h
  split at h
  · cases h
  obtain ⟨hlength, hshort⟩ := arguments_eq_ok h
  exact ⟨by omega, hshort⟩

/-- **A frame that was read ends at the count of bytes returned, and is read alike in front of any
other bytes.** -/
theorem parseRespArray_eq_ok (h : parseRespArray bytes = .ok (args, consumed)) :
    FrameArguments args ∧ consumed ≤ bytes.length ∧
      ∀ tail, parseRespArray (bytes.take consumed ++ tail) = .ok (args, consumed) := by
  obtain ⟨marker, _, -, hframe⟩ := bind_eq_ok.mp h
  have hframed : (Cursor.nextByte .empty >>= parseFrame).Framed anyLength :=
    (framed_nextByte _).bind framed_frame
  obtain ⟨front, rest, hdrop, hstop, hreads⟩ := hframed (Nat.zero_le _) h
  rw [Nat.zero_add] at hstop
  subst hstop hdrop
  refine ⟨frameArguments_of_ok hframe, by simp, fun tail => ?_⟩
  rw [List.take_left, parseRespArray, hreads trivial (Nat.zero_le _) (List.drop_zero ..),
    Nat.zero_add]

/-- **A rejected input stays rejected, with the same error.** -/
theorem parseRespArray_rejects (hbytes : bytes ≠ []) (error : RedisParseError)
    (h : parseRespArray bytes = .error error) (hfinal : error ≠ .incomplete) (more : Bytes) :
    parseRespArray (bytes ++ more) = .error error := by
  obtain ⟨marker, bytes, rfl⟩ := List.exists_cons_of_ne_nil hbytes
  exact final_frame marker (Nat.succ_le_succ (Nat.zero_le _)) h hfinal more

/-- **A frame that was read is read again when more bytes have come in.** -/
theorem parseRespArray_extend (h : parseRespArray bytes = .ok (args, consumed)) (more : Bytes) :
    parseRespArray (bytes ++ more) = .ok (args, consumed) := by
  obtain ⟨-, -, hagain⟩ := parseRespArray_eq_ok h
  have hmore := hagain (bytes.drop consumed ++ more)
  rwa [← List.append_assoc, List.take_append_drop] at hmore

/-! ## What is written is read back -/

theorem readLine_digits (line digits : Bytes) (rest : Bytes)
    (hdigits : ∀ b ∈ digits, isAsciiDigit b = true) :
    readLine line (digits ++ crlf ++ rest) = readLine (digits.reverse ++ line) (crlf ++ rest) := by
  induction digits generalizing line with
  | nil => rfl
  | cons digit digits ih =>
    have hdigit : digit ≠ Ascii.carriage := by
      rintro rfl
      exact absurd (hdigits _ List.mem_cons_self) (by decide)
    have hnext := ih (digit :: line) fun b hb => hdigits b (List.mem_cons_of_mem _ hb)
    have hskip : ∀ input, input ≠ [] →
        readLine line (digit :: input) = readLine (digit :: line) input := by
      intro input hinput
      obtain ⟨second, input, rfl⟩ := List.exists_cons_of_ne_nil hinput
      rw [readLine, if_neg (by simp [hdigit])]
    rw [List.cons_append, List.cons_append, hskip _ (by simp [crlf]), hnext, List.reverse_cons,
      List.append_assoc, List.singleton_append]

theorem reads_decimal {n : ℕ} (h : n ≤ usizeMax) :
    readDecimalLine.Reads anyLength (decimal n ++ crlf) n := by
  refine reads_ahead fun tail => ?_
  have hne : (decimal n).reverse.isEmpty = false := by
    simp [decimal_ne_nil]
  rw [readLine_digits [] _ _ fun b => isAsciiDigit_of_mem_decimal, List.append_nil]
  simp [crlf, readLine, hne, parseDecimal_decimal h]

theorem reads_bulk (argument : Bytes) :
    (Cursor.ahead (readBulk argument.length)).Reads anyLength (argument ++ crlf) argument := by
  refine reads_ahead fun tail => ?_
  have hlength : (argument ++ crlf).length = argument.length + 2 := List.length_append
  rw [readBulk_append hlength.ge, readBulk, if_neg (Nat.not_lt.mpr hlength.ge), List.drop_left,
    List.take_left, if_neg (by simp [crlf]), hlength]

theorem reads_respArgument {argument : Bytes} (h : argument.length ≤ maxBulkLength) :
    parseArgument.Reads anyLength (respArgument argument) argument := by
  have hfront : respArgument argument =
      [Ascii.dollar] ++ ((decimal argument.length ++ crlf) ++ (argument ++ crlf)) := by
    simp [respArgument, respLengthLine]
  rw [hfront]
  refine (reads_nextByte _ _).bind ?_
  refine (reads_decimal (h.trans (by decide))).bind ?_
  rw [if_neg (Nat.not_lt.mpr h)]
  exact reads_bulk argument

theorem reads_arguments (h : ∀ arg ∈ args, arg.length ≤ maxBulkLength) :
    (parseArguments args.length).Reads anyLength (args.flatMap respArgument) args := by
  induction args with
  | nil => exact reads_pure []
  | cons argument args ih =>
    obtain ⟨hargument, hargs⟩ := List.forall_mem_cons.mp h
    exact (reads_respArgument hargument).bind ((ih hargs).bind_last (reads_pure _))

theorem reads_frame (h : FrameArguments args) :
    (Cursor.nextByte .empty >>= parseFrame).Reads anyLength (serializeRespArray args) args := by
  have hfront : serializeRespArray args =
      [Ascii.star] ++ ((decimal args.length ++ crlf) ++ args.flatMap respArgument) := by
    simp [serializeRespArray, respLengthLine]
  refine (reads_nextByte _ _).bind ?_
  refine (reads_decimal (h.few.trans (by decide))).bind ?_
  rw [if_neg (Nat.not_lt.mpr h.few)]
  exact reads_arguments h.short

/-- **A serialised frame is read back**, whatever follows it. -/
theorem parseRespArray_serialize (h : FrameArguments args) (rest : Bytes) :
    parseRespArray (serializeRespArray args ++ rest) =
      .ok (args, (serializeRespArray args).length) := by
  rw [parseRespArray, reads_frame h trivial (Nat.zero_le _) (List.drop_zero ..), Nat.zero_add]

end DatabasesEverywhere.Gateway
