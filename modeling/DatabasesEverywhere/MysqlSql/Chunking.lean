import DatabasesEverywhere.MysqlSql.Stream

/-!
# MysqlSql/Chunking — the chunks of a stream do not show

Every function of `MysqlSql/Stream` follows its counterpart in `MysqlSql/Scanner`: whatever the
reader makes available at once, it returns what the counterpart returns on the bytes that are left,
or the dump exceeds the input limit.

    reader, cuts  ──▸ Stream.rewriteSql ─┐
                                         ├─ equal, up to the input limit
    bytes         ──▸ rewriteSql ────────┘
-/

open Foundations

namespace DatabasesEverywhere.MysqlSql.Stream

open Ascii

variable {α : Type}

/-- Up to the first byte that is found none qualifies. -/
theorem findIdx?_spec (p : α → Bool) (items : List α) :
    (items.findIdx? p).getD items.length ≤ items.length ∧
      (∀ item ∈ items.take ((items.findIdx? p).getD items.length), p item = false) ∧
      ∀ index, items.findIdx? p = some index →
        ∃ item rest, items.drop index = item :: rest ∧ p item = true := by
  rw [← List.findIdx_eq_getD_findIdx?]
  refine ⟨List.findIdx_le_length, fun item hitem => ?_, fun index hindex => ?_⟩
  · obtain ⟨i, hi, rfl⟩ := List.mem_take_iff_getElem.mp hitem
    exact List.not_of_lt_findIdx (hi.trans_le (Nat.min_le_left _ _))
  · obtain ⟨hlt, hp, -⟩ := List.findIdx?_eq_some_iff_getElem.mp hindex
    exact ⟨_, _, List.drop_eq_getElem_cons hlt, hp⟩

/-! ## Bytes ahead -/

variable {γ : Type} {byte : UInt8}
  {agrees : Rewriting γ → α → BoundedInput → Prop} {special : UInt8 → Bool}
  {length : ℕ} {next : BoundedOutput → Reading α}

section Rules

variable {bytes rest : Bytes}
  {expected expected' : Rewriting γ}

theorem expectByte_bind {next : UInt8 → Reading α} (h : From agrees (next byte) rest expected) :
    From agrees (expectByte >>= next) (byte :: rest) expected := by
  rw [expectByte, bind_assoc]
  refine .nextByte_cons ?_
  simpa only [pure_bind] using h

variable {yes no : Reading α}

theorem peekIs_nil (h : From agrees no [] expected) :
    From agrees (Reading.peekByte >>= fun seen => if seen = some byte then yes else no) []
      expected :=
  .peek .byte h

theorem peekIs_cons {next : UInt8} (hyes : next = byte → From agrees yes (next :: rest) expected)
    (hno : next ≠ byte → From agrees no (next :: rest) expected') :
    From agrees (Reading.peekByte >>= fun seen => if seen = some byte then yes else no)
      (next :: rest) (if next = byte then expected else expected') := by
  refine .peek .byte ?_
  simp only [List.head?_cons, Option.some.injEq]
  exact .ite hyes hno

/-- A byte that is peeked at is read next. -/
theorem peekThen_bind (hyes : ∀ rest, bytes = byte :: rest → From agrees yes bytes expected)
    (hno : From agrees no bytes expected') :
    From agrees (Reading.peekByte >>= fun seen => if seen = some byte then yes else no) bytes
      (if bytes.head? = some byte then expected else expected') :=
  .peek .byte (.ite (fun hhead => (List.head?_eq_some_iff.mp hhead).elim hyes) fun _ => hno)

theorem peekEndsExecutable_peeks (executableComment : Bool) (byte : UInt8) :
    Peeks (peekEndsExecutable executableComment byte) (endsExecutable executableComment byte) := by
  refine (Peeks.ite (.bind .byte fun next => .pure (next == some slash)) (.pure false)).congr ?_
  unfold endsExecutable
  split <;> simp [*]

/-- **What `position` finds**: the end of the dump, a special byte, or bytes that are not special and
that may be copied at once. -/
theorem position_bind {next : Option ℕ × ℕ → Reading α}
    (hempty : bytes = [] → From agrees (next (none, 0)) [] expected)
    (hspecial : ∀ byte rest length, bytes = byte :: rest → special byte = true → length ≠ 0 →
      From agrees (next (some 0, length)) (byte :: rest) expected)
    (hplain : ∀ found length input, input.left = bytes → found ≠ some 0 → length ≠ 0 →
      found.getD length ≠ 0 → found.getD length ≤ input.ready.length →
      (∀ byte ∈ bytes.take (found.getD length), special byte = false) →
      (∀ index, found = some index → ∃ byte rest, bytes.drop index = byte :: rest ∧
        special byte = true) →
      Simulates agrees (next (found, length)) input expected) :
    From agrees (position special >>= next) bytes expected := by
  rintro input rfl
  refine Meets.bind (Meets.bind (Meets.available fun input' _ hleft hready _ =>
    Meets.pure fun _ => ?_))
  obtain ⟨behind, hbehind⟩ := @BoundedInput.ready_prefix input'
  rw [hleft] at hbehind
  obtain ⟨hle, hbefore, hat⟩ := findIdx?_spec special input'.ready
  have htake := @List.take_append_of_le_length _ _ behind _ hle
  rw [← htake, hbehind] at hbefore
  cases hbytes : input'.ready with
  | nil => exact hempty (hready hbytes) input' (hleft.trans (hready hbytes))
  | cons byte ready =>
    rw [← hbytes]
    have hlength : input'.ready.length ≠ 0 := by simp [hbytes]
    by_cases hfound : input'.ready.findIdx? special = some 0
    · obtain ⟨first, rest, hfirst, hspecial'⟩ := hat 0 hfound
      rw [List.drop_zero] at hfirst
      rw [hfirst, List.cons_append] at hbehind
      rw [hfound]
      exact hspecial first _ _ hbehind.symm hspecial' hlength input' (hleft.trans hbehind.symm)
    · refine hplain _ _ input' hleft hfound hlength ?_ hle hbefore ?_
      · cases hindex : input'.ready.findIdx? special with
        | none => exact hlength
        | some index =>
          rw [hindex] at hfound
          exact fun hzero => hfound (congrArg some hzero)
      · intro index hindex
        obtain ⟨item, rest, hdrop, hitem⟩ := hat index hindex
        rw [hindex, Option.getD_some] at hle
        refine ⟨item, rest ++ behind, ?_, hitem⟩
        rw [← hbehind, List.drop_append_of_le_length hle, hdrop]
        rfl

variable {input : BoundedInput}

theorem ready_ne_nil (hpos : length ≠ 0) (hlength : length ≤ input.ready.length) :
    input.ready ≠ [] := by
  intro hnil
  rw [hnil] at hlength
  exact hpos (Nat.le_zero.mp hlength)

theorem take_ready (hlength : length ≤ input.ready.length) :
    input.ready.take length = input.left.take length := by
  obtain ⟨behind, hbehind⟩ := @BoundedInput.ready_prefix input
  rw [← hbehind, List.take_append_of_le_length hlength]

theorem take_left_ne_nil (hpos : length ≠ 0) (hlength : length ≤ input.ready.length) :
    input.left.take length ≠ [] := by
  rw [← take_ready hlength, ne_eq, List.take_eq_nil_iff]
  exact fun hnil => hnil.elim hpos (ready_ne_nil hpos hlength)

variable {output : BoundedOutput}
  {rest : BoundedOutput → Rewriting γ}

/-- What is ready is written at once and consumed. -/
theorem writeReady_bind
    (hlength : length ≤ input.ready.length)
    (h : ∀ output', From agrees (next output') (input.left.drop length) (rest output')) :
    Simulates agrees
      (do
        let output ← Reading.lift (output.writeBytes (input.ready.take length))
        Reading.consume length
        next output) input
      (output.writeBytes (input.left.take length) >>= rest) := by
  rw [take_ready hlength]
  refine Meets.bind (Meets.lift ?_ ?_)
  · intro output' houtput _
    refine Meets.bind (Meets.consume hlength fun input' _ hleft _ => ?_)
    rw [houtput]
    exact h output' input' hleft
  · intro error herror
    rw [herror]
    rfl

theorem copyAvailablePrefix_bind (hpos : length ≠ 0) (hlength : length ≤ input.ready.length)
    (h : ∀ output', From agrees (next output') (input.left.drop length) (rest output')) :
    Simulates agrees (copyAvailablePrefix output length >>= next) input
      (output.writeBytes (input.left.take length) >>= rest) := by
  simp only [copyAvailablePrefix, bind_assoc, pure_bind]
  exact Meets.bind (Meets.available_of_ready (ready_ne_nil hpos hlength) fun _ =>
    writeReady_bind hlength h)

end Rules

/-! ## Copying through -/

/-- Bytes are written one by one or at once. -/
theorem writeBytes_append (output : BoundedOutput) (bytes bytes' : Bytes) :
    output.writeBytes (bytes ++ bytes') =
      output.writeBytes bytes >>= fun output => output.writeBytes bytes' := by
  unfold BoundedOutput.writeBytes
  by_cases hfirst : output.maxBytes < output.bytes.length + bytes.length
  · rw [if_pos hfirst, if_pos (by rw [List.length_append]; omega)]
    rfl
  · rw [if_neg hfirst, ok_bind]
    simp only [List.length_append, List.append_assoc, Nat.add_assoc]

variable {copy : BoundedOutput → Bytes → Rewriting γ}
  {view : BoundedOutput → Bytes → γ}

section Copies

/-- A copy that writes every plain byte as it comes. -/
def CopiesPlain (special : UInt8 → Bool)
    (copy : BoundedOutput → Bytes → Rewriting γ) : Prop :=
  ∀ output byte rest, special byte = false →
    copy output (byte :: rest) = output.writeByte byte >>= fun output => copy output rest

variable (hcopy : CopiesPlain special copy)
include hcopy

/-- It writes a run of them at once. -/
theorem copy_plain : ∀ {bytes : Bytes} (output : BoundedOutput) (rest : Bytes), bytes ≠ [] →
      (∀ byte ∈ bytes, special byte = false) →
      copy output (bytes ++ rest) = output.writeBytes bytes >>= fun output => copy output rest
  | [], _, _, hne, _ => absurd rfl hne
  | [byte], output, rest, _, hplain => hcopy output byte rest (hplain byte List.mem_cons_self)
  | byte :: byte' :: bytes, output, rest, _, hplain => by
    have hsplit := writeBytes_append output [byte] (byte' :: bytes)
    rw [List.cons_append, hcopy output byte _ (hplain byte List.mem_cons_self)]
    rw [show byte :: byte' :: bytes = [byte] ++ byte' :: bytes from rfl, hsplit, bind_assoc]
    refine congrArg _ (funext fun output => ?_)
    exact copy_plain output rest (List.cons_ne_nil _ _)
      fun byte hbyte => hplain byte (List.mem_cons_of_mem _ hbyte)

variable {output : BoundedOutput}

/-- Available bytes that are not special are copied at once. -/
theorem copyAvailablePrefix_plain {input : BoundedInput} (hpos : length ≠ 0)
    (hlength : length ≤ input.ready.length)
    (hplain : ∀ byte ∈ input.left.take length, special byte = false)
    (h : ∀ output', (input.left.drop length).length < input.left.length →
      From agrees (next output') (input.left.drop length) (copy output' (input.left.drop length))) :
    Simulates agrees (copyAvailablePrefix output length >>= next) input
      (copy output input.left) := by
  have hle : length ≤ input.left.length :=
    hlength.trans (@BoundedInput.ready_prefix input).length_le
  have hsplit := copy_plain hcopy output (input.left.drop length) (take_left_ne_nil hpos hlength)
    hplain
  rw [List.take_append_drop] at hsplit
  rw [hsplit]
  refine copyAvailablePrefix_bind hpos hlength fun output' => h output' ?_
  rw [List.length_drop]
  omega

/-- A turn of a copy: the bytes up to the next special one are copied at once, and `atSpecial` goes
on from there. -/
theorem copyTurn_from {bytes : Bytes}
    {atEnd atSpecial : Reading (BoundedOutput ⊕ BoundedOutput)}
    (hend : From (Turns view copy 0) atEnd [] (copy output []))
    (hspecial : ∀ byte rest, special byte = true →
      From (Turns view copy (rest.length + 1)) atSpecial (byte :: rest)
        (copy output (byte :: rest))) :
    From (Turns view copy bytes.length)
      (do
        let (found, length) ← position special
        if length = 0 then atEnd
        else if found ≠ some 0 then
          return .inl (← copyAvailablePrefix output (found.getD length))
        else atSpecial) bytes
      (copy output bytes) := by
  refine position_bind ?_ ?_ ?_
  · rintro rfl
    exact hend
  · rintro byte rest length rfl hbyte hlength
    simp only [hlength, if_false, ne_eq, not_true_eq_false]
    exact hspecial byte rest hbyte
  · rintro found length input rfl hfound hlength hpos hle hplain -
    simp only [hlength, hfound, if_false, ne_eq, not_false_eq_true, if_true]
    exact copyAvailablePrefix_plain hcopy hpos hle hplain fun _ hlt => .again hlt rfl

end Copies

variable {identifiers : RewriteIdentifiers} {executableComment : Bool} {output : BoundedOutput}
  {context : SqlContext} {bytes raw gap : Bytes}

/-- A turn behind a star in an executable comment. -/
theorem starTurn_from {message : String}
    (hstar : (executableComment && byte == star) = true) :
    From (Turns view copy (bytes.length + 1))
      (Reading.peekByte >>= fun next =>
        if next = some slash then Reading.fail (.malformed message)
        else Reading.lift (output.writeByte byte) >>= fun output => pure (.inl output)) bytes
      (if endsExecutable executableComment byte bytes = true then .error (.malformed message)
        else output.writeByte byte >>= fun output => copy output bytes) := by
  simp only [endsExecutable, hstar, Bool.true_and, beq_iff_eq]
  refine .peek .byte (.ite (fun _ => .fail rfl) fun _ => ?_)
  exact .lift_bind fun output' => .again (Nat.lt_succ_self _) rfl

/-! ## The copies -/

variable {quote : UInt8}

theorem copyQuotedString_plain : CopiesPlain (quotedStringSpecial quote executableComment)
    (MysqlSql.copyQuotedString quote executableComment) := by
  intro output byte rest h
  simp only [quotedStringSpecial, Bool.or_eq_false_iff, beq_eq_false_iff_ne] at h
  obtain ⟨⟨hquote, hescape⟩, hstar⟩ := h
  rw [MysqlSql.copyQuotedString, if_neg hescape, if_neg hquote, endsExecutable, hstar,
    Bool.false_and, if_neg Bool.false_ne_true]

theorem quotedStringTurn_from :
    From (Turns Prod.mk (MysqlSql.copyQuotedString quote executableComment) bytes.length)
      (quotedStringTurn quote executableComment output) bytes
      (MysqlSql.copyQuotedString quote executableComment output bytes) := by
  refine copyTurn_from copyQuotedString_plain (.fail rfl) fun byte rest hspecial => ?_
  rw [MysqlSql.copyQuotedString]
  refine expectByte_bind (.ite (fun _ => ?_) fun hescape => .ite (fun hquote => ?_) fun hquote => ?_)
  · refine .lift_bind fun output => ?_
    cases rest with
    | nil => exact .nextByte_nil (.fail rfl)
    | cons escaped rest =>
      refine .nextByte_cons (.peek (peekEndsExecutable_peeks _ _) (.ite (fun _ => .fail rfl) fun _ => ?_))
      exact .lift_bind fun output' => .again (by simp) rfl
  · refine .lift_bind fun output => ?_
    cases rest with
    | nil => exact peekIs_nil (.done rfl)
    | cons next rest =>
      refine peekIs_cons (fun _ => .nextByte_cons ?_) fun _ => .done rfl
      exact .lift_bind fun output' => .again (by simp) rfl
  · have hstar : (executableComment && byte == star) = true := by
      simpa [quotedStringSpecial, hquote, hescape] using hspecial
    exact starTurn_from hstar

theorem copyQuotedString_from :
    From (Returns Prod.mk) (copyQuotedString quote executableComment output) bytes
      (MysqlSql.copyQuotedString quote executableComment output bytes) :=
  .forever quotedStringTurn_from

theorem copyLineComment_plain : CopiesPlain (lineCommentSpecial executableComment)
    (MysqlSql.copyLineComment executableComment) := by
  intro output byte rest h
  simp only [lineCommentSpecial, Bool.or_eq_false_iff, beq_eq_false_iff_ne] at h
  rw [MysqlSql.copyLineComment, if_neg h.1, endsExecutable, h.2, Bool.false_and,
    if_neg Bool.false_ne_true]

theorem lineCommentTurn_from :
    From (Turns Prod.mk (MysqlSql.copyLineComment executableComment) bytes.length)
      (lineCommentTurn executableComment output) bytes
      (MysqlSql.copyLineComment executableComment output bytes) := by
  refine copyTurn_from copyLineComment_plain ?_ fun byte rest hspecial => ?_
  · rw [MysqlSql.copyLineComment]
    exact .ite (fun _ => .fail rfl) fun _ => .done rfl
  rw [MysqlSql.copyLineComment]
  refine expectByte_bind (.ite (fun _ => .lift_bind fun output => .done rfl) fun hnewline => ?_)
  have hstar : (executableComment && byte == star) = true := by
    simpa [lineCommentSpecial, hnewline] using hspecial
  exact starTurn_from hstar

theorem copyLineComment_from :
    From (Returns Prod.mk) (copyLineComment executableComment output) bytes
      (MysqlSql.copyLineComment executableComment output bytes) :=
  .forever lineCommentTurn_from

theorem copyBlockComment_plain : CopiesPlain (· == star) MysqlSql.copyBlockComment := by
  intro output byte rest h
  have hbyte : byte ≠ star := by simpa using h
  rw [MysqlSql.copyBlockComment]
  cases rest with
  | nil => rfl
  | cons next rest => simp only [hbyte, false_and, if_false]

theorem blockCommentTurn_from :
    From (Turns Prod.mk MysqlSql.copyBlockComment bytes.length) (blockCommentTurn output) bytes
      (MysqlSql.copyBlockComment output bytes) := by
  refine copyTurn_from copyBlockComment_plain (.fail rfl) fun byte rest hspecial => .nextByte_cons ?_
  obtain rfl : byte = star := by simpa using hspecial
  rw [MysqlSql.copyBlockComment]
  refine .lift_bind fun output => ?_
  cases rest with
  | nil => exact peekIs_nil (.again (by simp) rfl)
  | cons next rest =>
    simp only [true_and]
    refine peekIs_cons (fun hslash => .nextByte_cons ?_) fun _ => .again (Nat.lt_succ_self _) rfl
    rw [hslash]
    exact .lift_bind fun output' => .done rfl

theorem copyBlockComment_from :
    From (Returns Prod.mk) (copyBlockComment output) bytes
      (MysqlSql.copyBlockComment output bytes) :=
  .forever blockCommentTurn_from

theorem copyUnquotedTokenRemainder_plain :
    CopiesPlain (!isUnquotedIdentifierByte ·) MysqlSql.copyUnquotedTokenRemainder := by
  intro output byte rest h
  rw [MysqlSql.copyUnquotedTokenRemainder, if_pos (by simpa using h)]

theorem unquotedRemainderTurn_from :
    From (Turns Prod.mk MysqlSql.copyUnquotedTokenRemainder bytes.length)
      (unquotedRemainderTurn output) bytes (MysqlSql.copyUnquotedTokenRemainder output bytes) := by
  refine position_bind ?_ ?_ ?_
  · rintro rfl
    exact .done rfl
  · rintro byte rest length rfl hspecial -
    refine .done ?_
    rw [MysqlSql.copyUnquotedTokenRemainder, if_neg (by simpa using hspecial)]
  rintro found length input rfl hfound hlength hpos hle hplain hat
  match found with
  | none =>
    simp only [if_neg hlength]
    exact copyAvailablePrefix_plain copyUnquotedTokenRemainder_plain hpos hle hplain
      fun _ hlt => .again hlt rfl
  | some (index + 1) =>
    refine copyAvailablePrefix_plain copyUnquotedTokenRemainder_plain hpos hle hplain ?_
    intro output' _
    obtain ⟨byte, rest, hbyte, hstop⟩ := hat _ rfl
    refine .done ?_
    rw [hbyte, MysqlSql.copyUnquotedTokenRemainder, if_neg (by simpa using hstop)]

theorem copyUnquotedTokenRemainder_from :
    From (Returns Prod.mk) (copyUnquotedTokenRemainder output) bytes
      (MysqlSql.copyUnquotedTokenRemainder output bytes) :=
  .forever unquotedRemainderTurn_from

/-! ## Qualifiers -/

theorem gapLineCommentTurn_from :
    From (Turns Prod.mk (MysqlSql.readGapLineComment executableComment) bytes.length)
      (gapLineCommentTurn executableComment gap) bytes
      (MysqlSql.readGapLineComment executableComment gap bytes) := by
  cases bytes with
  | nil => exact .nextByte_nil (.ite (fun _ => .fail rfl) fun _ => .done rfl)
  | cons byte rest =>
    refine .nextByte_cons (.peek (peekEndsExecutable_peeks _ _) (.ite (fun _ => .fail rfl) fun _ => ?_))
    exact .lift_bind fun gap' => .ite (fun _ => .done rfl) fun _ => .again (Nat.lt_succ_self _) rfl

theorem readGapLineComment_from :
    From (Returns Prod.mk) (readGapLineComment executableComment gap) bytes
      (MysqlSql.readGapLineComment executableComment gap bytes) :=
  .forever gapLineCommentTurn_from

theorem gapBlockCommentTurn_from :
    From (Turns Prod.mk MysqlSql.readGapBlockComment bytes.length) (gapBlockCommentTurn gap) bytes
      (MysqlSql.readGapBlockComment gap bytes) := by
  cases bytes with
  | nil => exact .nextByte_nil (.fail rfl)
  | cons byte rest =>
    rw [MysqlSql.readGapBlockComment]
    refine .nextByte_cons (.lift_bind fun gap' => ?_)
    by_cases hstar : byte = star
    · simp only [hstar, if_true, true_and]
      cases rest with
      | nil => exact peekIs_nil (.again (by simp) rfl)
      | cons next rest =>
        refine peekIs_cons (fun hslash => expectByte_bind ?_) fun _ => .again (Nat.lt_succ_self _) rfl
        exact .lift_bind fun gap'' => .done rfl
    · simp only [hstar, if_false, false_and]
      refine .again (Nat.lt_succ_self _) ?_
      cases rest <;> rfl

theorem readGapBlockComment_from :
    From (Returns Prod.mk) (readGapBlockComment gap) bytes
      (MysqlSql.readGapBlockComment gap bytes) :=
  .forever gapBlockCommentTurn_from

theorem peekLineComment_peeks : Peeks peekLineComment fun bytes =>
    bytes.tail.head? == some dash && opensLineComment bytes.tail.tail := by
  refine (Peeks.bind (.nthByte 1) fun next => .ite (.bind (.nthByte 2) fun next' => .pure _)
    (.pure false)).congr fun bytes => ?_
  rcases bytes with _ | ⟨byte, _ | ⟨next, rest⟩⟩
  · rfl
  · rfl
  · by_cases hdash : next = dash
    · simp [hdash, opensLineComment, List.head?_eq_getElem?]
    · simp [hdash]

theorem executableMark_isSome (bytes : Bytes) : (executableMark bytes).isSome =
    if bytes.head? = some bang then true
    else if bytes.head? = some upperM then bytes.tail.head? == some bang else false := by
  unfold executableMark
  split
  · rfl
  · rfl
  next hbang hmark =>
  rcases bytes with _ | ⟨byte, rest⟩
  · rfl
  have hbyte : byte ≠ bang := fun h => hbang rest (by rw [h])
  by_cases hupper : byte = upperM
  · rcases rest with _ | ⟨next, rest⟩
    · simp [hbyte]
    · have hnext : next ≠ bang := fun h => hmark rest (by rw [h, hupper])
      simp [hbyte, hnext]
  · simp [hbyte, hupper]

theorem peekExecutableMark_peeks :
    Peeks peekExecutableMark fun bytes => (executableMark bytes.tail.tail).isSome := by
  refine (Peeks.bind (.nthByte 2) fun third => .ite (.pure true) (.bind (.nthByte 2) fun third' =>
    .ite (.bind (.nthByte 3) fun fourth => .pure _) (.pure false))).congr fun bytes => ?_
  rw [executableMark_isSome]
  simp [List.head?_eq_getElem?]

theorem gapTurn_from :
    From (Steps Prod.mk Prod.mk bytes.length) (gapTurn executableComment gap) bytes
      (gapStep executableComment (gap, bytes)) := by
  refine .peek .byte ?_
  cases bytes with
  | nil => exact .stepDone rfl
  | cons byte rest =>
    refine .ite (fun _ => ?_) fun _ => .ite (fun _ => ?_) fun _ => ?_
    · exact expectByte_bind (.lift_bind fun gap' => .stepAgain (Nat.lt_succ_self _) rfl)
    · refine expectByte_bind (.lift_bind fun gap' => ?_)
      exact .bind readGapLineComment_from fun gap'' _ hle => .stepAgain (Nat.lt_succ_of_le hle) rfl
    by_cases hdash : byte = dash
    · simp only [hdash, if_true, true_and]
      refine .peek peekLineComment_peeks ?_
      simp only [List.tail_cons, Bool.and_eq_true, beq_iff_eq]
      refine .ite (fun hopens => ?_) fun _ => .stepDone rfl
      obtain ⟨rest', rfl⟩ := List.head?_eq_some_iff.mp hopens.1
      refine expectByte_bind (.lift_bind fun gap₁ => expectByte_bind (.lift_bind fun gap₂ => ?_))
      exact .bind readGapLineComment_from fun gap₃ _ hle =>
        .stepAgain (Nat.lt_succ_of_lt (Nat.lt_succ_of_le hle)) rfl
    · simp only [hdash, if_false, false_and]
      by_cases hslash : byte = slash
      · simp only [hslash, if_true, true_and]
        refine .peek (.nthByte 1) ?_
        simp only [List.getElem?_cons_succ, ← List.head?_eq_getElem?]
        refine .ite (fun hstar => ?_) fun _ => .stepDone rfl
        obtain ⟨rest', rfl⟩ := List.head?_eq_some_iff.mp hstar
        refine .ite (fun _ => .fail rfl) fun _ => .peek peekExecutableMark_peeks ?_
        refine .ite (fun _ => .fail rfl) fun _ => ?_
        refine expectByte_bind (.lift_bind fun gap₁ => expectByte_bind (.lift_bind fun gap₂ => ?_))
        exact .bind readGapBlockComment_from fun gap₃ _ hle =>
          .stepAgain (Nat.lt_succ_of_lt (Nat.lt_succ_of_le hle)) rfl
      · simp only [hslash, if_false, false_and]
        exact .stepDone rfl

theorem readQualifierGap_from :
    From (Returns Prod.mk) (readQualifierGap executableComment) bytes
      (MysqlSql.readQualifierGap executableComment bytes) :=
  @From.forever_within _ _ _ bytes _ Prod.mk
    (fun fuel gap bytes => iterate (gapStep executableComment) .timeout fuel (gap, bytes))
    (fun hfuel => .of_steps hfuel gapTurn_from) _ [] (Nat.lt_succ_self _)

theorem delimitedTurn_from {name : DelimitedIdentifier} :
    From (Turns Prod.mk (MysqlSql.readDelimitedIdentifier quote executableComment) bytes.length)
      (delimitedTurn quote executableComment name) bytes
      (MysqlSql.readDelimitedIdentifier quote executableComment name bytes) := by
  cases bytes with
  | nil => exact .nextByte_nil (.fail rfl)
  | cons byte rest =>
    rw [MysqlSql.readDelimitedIdentifier]
    refine .nextByte_cons (.peek (peekEndsExecutable_peeks _ _) (.ite (fun _ => .fail rfl) fun _ => ?_))
    refine .lift_bind fun raw => .ite (fun _ => ?_) fun _ => ?_
    · exact .lift_bind fun decoded => .again (Nat.lt_succ_self _) rfl
    cases rest with
    | nil => exact peekIs_nil (.done rfl)
    | cons next rest =>
      refine peekIs_cons (fun _ => .nextByte_cons ?_) fun _ => .done rfl
      exact .lift_bind fun raw' => .lift_bind fun decoded => .again (by simp) rfl

theorem unquotedIdentifierTurn_from :
    From (Turns Prod.mk MysqlSql.readUnquotedIdentifier bytes.length) (unquotedIdentifierTurn raw)
      bytes (MysqlSql.readUnquotedIdentifier raw bytes) := by
  refine .peek .byte ?_
  cases bytes with
  | nil => exact .done rfl
  | cons byte rest =>
    refine .ite (fun _ => .ite (fun _ => .fail rfl) fun _ => ?_) fun _ => .done rfl
    exact expectByte_bind (.again (Nat.lt_succ_self _) rfl)

theorem readQualifiedIdentifier_from :
    From (Returns Prod.mk) (readQualifiedIdentifier executableComment) bytes
      (MysqlSql.readQualifiedIdentifier executableComment bytes) := by
  refine .peek .byte ?_
  cases bytes with
  | nil => exact .returns rfl
  | cons byte rest =>
    refine .ite (fun _ => ?_) fun _ => .ite (fun hstar => ?_) fun _ => .ite (fun _ => ?_) fun _ => ?_
    · simp only [readDelimitedIdentifier, bind_assoc]
      exact expectByte_bind (.lift_bind fun raw => .bind (.forever delimitedTurn_from)
        fun name _ _ => .returns rfl)
    · rw [hstar]
      exact .nextByte_cons (.returns rfl)
    · exact .bind (.forever unquotedIdentifierTurn_from) fun raw _ _ => .returns rfl
    · exact .returns rfl

theorem readThirdSeparator_from {second : QualifiedIdentifier} :
    From (Returns Prod.mk) (readThirdSeparator executableComment second) bytes
      (MysqlSql.readThirdSeparator executableComment second bytes) := by
  refine peekThen_bind (fun rest hrest => ?_) (.returns rfl)
  subst hrest
  refine .ite (fun _ => .fail rfl) fun _ => .nextByte_cons ?_
  refine .bind readQualifierGap_from fun gap _ _ => .peek .byte ?_
  exact .ite (fun _ => .returns rfl) fun _ => .fail rfl

theorem peekFunction_peeks (thirdSeparator : Option Bytes) : Peeks (peekFunction thirdSeparator)
    fun bytes => thirdSeparator.isNone && bytes.head? == some openParen := by
  refine (Peeks.ite (.bind .byte fun next => .pure (next == some openParen))
    (.pure false)).congr fun bytes => ?_
  split <;> simp [*]

/-- A handled token and the bytes behind it. -/
def handledScan (handled : Handled) (input : Bytes) : ℕ × Scan :=
  (handled.1, { input, output := handled.2.1, context := handled.2.2 })

theorem handleSourceQualifier_from {rawSource replacement : Bytes} {kind : SourceTokenKind} :
    From (Returns handledScan)
      (handleSourceQualifier rawSource replacement kind executableComment output context) bytes
      (MysqlSql.handleSourceQualifier rawSource replacement kind executableComment
        { input := bytes, output, context }) := by
  refine .bind readQualifierGap_from fun beforeDot rest _ => .peek .byte ?_
  refine .ite (fun _ => ?_) fun hdot => ?_
  · exact .lift_bind fun output₁ => .lift_bind fun output₂ => .returns rfl
  obtain ⟨rest, rfl⟩ := List.head?_eq_some_iff.mp (not_not.mp hdot)
  refine .nextByte_cons (.bind readQualifierGap_from fun afterDot _ _ => ?_)
  refine .bind readQualifiedIdentifier_from fun second _ _ => ?_
  cases second with
  | none => exact .fail rfl
  | some second =>
    refine .bind readQualifierGap_from fun afterSecond _ _ => ?_
    refine .bind readThirdSeparator_from fun thirdSeparator _ _ => ?_
    refine .peek (peekFunction_peeks _) (.ite (fun _ => .fail rfl) fun _ => ?_)
    refine .lift_bind fun output₁ => .lift_bind fun output₂ => .lift_bind fun output₃ => ?_
    refine .lift_bind fun output₄ => .lift_bind fun output₅ => .lift_bind fun output₆ => ?_
    exact .lift_bind fun output₇ => .returns rfl

/-! ## Tokens -/

/-- The loop of an unquoted token over the bytes. -/
def unquotedToken (token input : Bytes) : Rewriting ((Bytes × Bool) × Bytes) :=
  let (token, overlong, rest) := readUnquotedToken token input
  .ok ((token, overlong), rest)

theorem unquotedTokenTurn_from {token : Bytes} :
    From (Turns Prod.mk unquotedToken bytes.length) (unquotedTokenTurn token) bytes
      (unquotedToken token bytes) := by
  refine .peek .byte ?_
  cases bytes with
  | nil => exact .done rfl
  | cons byte rest =>
    rw [unquotedToken, readUnquotedToken]
    by_cases hbyte : isUnquotedIdentifierByte byte = true
    · by_cases hlimit : maxQuotedIdentifierBytes ≤ token.length
      · simp only [List.head?_cons, Option.any_some, hbyte, hlimit, if_true]
        exact .done rfl
      · simp only [List.head?_cons, Option.any_some, hbyte, hlimit, if_true, if_false]
        exact expectByte_bind (.again (Nat.lt_succ_self _) rfl)
    · simp only [List.head?_cons, Option.any_some, hbyte, Bool.false_eq_true, if_false]
      exact .done rfl

theorem handleUnquotedToken_from {executableVersionPending : Bool} {firstByte : UInt8} :
    From (Returns handledScan)
      (handleUnquotedToken identifiers executableComment executableVersionPending firstByte output
        context) bytes
      (MysqlSql.handleUnquotedToken identifiers executableComment executableVersionPending firstByte
        { input := bytes, output, context }) := by
  have htoken : From (Returns Prod.mk) (Reading.forever unquotedTokenTurn [firstByte]) bytes
      (unquotedToken [firstByte] bytes) := .forever unquotedTokenTurn_from
  refine htoken.bind_of (fun _ herror => by cases herror) fun result rest' _ hresult => ?_
  cases hresult
  refine .ite (fun _ => ?_) fun _ => .ite (fun _ => ?_) fun _ => .ite (fun _ => ?_) fun _ => ?_
  · exact .lift_bind fun output' => .bind copyUnquotedTokenRemainder_from fun _ _ _ => .returns rfl
  · exact .lift_bind fun output' => .returns rfl
  · exact handleSourceQualifier_from
  · exact .lift_bind fun output' => .returns rfl

theorem leaveDoubleQuoted_from :
    From (Returns handledScan) (leaveDoubleQuoted executableComment raw output context) bytes
      (MysqlSql.leaveDoubleQuoted executableComment raw { input := bytes, output, context }) :=
  .lift_bind fun _ => .bind copyQuotedString_from fun _ _ _ => .returns rfl

/-- The loop of a double-quoted token over the bytes. -/
abbrev doubleQuotedLoop (identifiers : RewriteIdentifiers) (executableComment : Bool)
    (output : BoundedOutput) (context : SqlContext) (token : DelimitedIdentifier) (input : Bytes) :
    Rewriting (ℕ × Scan) :=
  MysqlSql.handleDoubleQuotedToken identifiers executableComment output context token.raw
    token.decoded input

variable {token : DelimitedIdentifier}

theorem goOn_from (hlength : bytes.length < length) :
    From (Turns handledScan (doubleQuotedLoop identifiers executableComment output context) length)
      (doubleQuotedTurn.goOn identifiers executableComment output context token) bytes
      (if token.decoded.isPrefixOf identifiers.sourceDatabase = true then
        MysqlSql.handleDoubleQuotedToken identifiers executableComment output context token.raw
          token.decoded bytes
      else MysqlSql.leaveDoubleQuoted executableComment token.raw
        { input := bytes, output, context }) :=
  .ite (fun _ => .again hlength rfl) fun _ => .last leaveDoubleQuoted_from

theorem doubleQuotedTurn_from :
    From
      (Turns handledScan (doubleQuotedLoop identifiers executableComment output context)
        bytes.length)
      (doubleQuotedTurn identifiers executableComment output context token) bytes
      (doubleQuotedLoop identifiers executableComment output context token bytes) := by
  cases bytes with
  | nil => exact .nextByte_nil (.fail rfl)
  | cons byte rest =>
    rw [doubleQuotedLoop, MysqlSql.handleDoubleQuotedToken]
    refine .nextByte_cons (.peek (peekEndsExecutable_peeks _ _) (.ite (fun _ => .fail rfl) fun _ => ?_))
    refine .lift_bind fun raw => .ite (fun _ => .ite (fun _ => .fail rfl) fun _ => ?_) fun _ =>
      .ite (fun _ => ?_) fun _ => ?_
    · cases rest with
      | nil => exact .nextByte_nil (.fail rfl)
      | cons escaped rest =>
        exact .nextByte_cons (.lift_bind fun raw' => .last leaveDoubleQuoted_from)
    · cases rest with
      | nil =>
        refine peekIs_nil (.ite (fun _ => .last handleSourceQualifier_from) fun _ => ?_)
        exact .lift_bind fun output' => .done rfl
      | cons next rest =>
        refine peekIs_cons (fun _ => .nextByte_cons ?_) fun _ =>
          .ite (fun _ => .last handleSourceQualifier_from) fun _ => ?_
        · refine .lift_bind fun raw' => .lift_bind fun decoded => ?_
          exact goOn_from (Nat.lt_succ_of_lt (Nat.lt_succ_self _))
        · exact .lift_bind fun output' => .done rfl
    · exact .lift_bind fun decoded => goOn_from (Nat.lt_succ_self _)

theorem handleDoubleQuotedToken_from :
    From (Returns handledScan) (handleDoubleQuotedToken identifiers executableComment output context)
      bytes
      (MysqlSql.handleDoubleQuotedToken identifiers executableComment output context [dquote]
        [] bytes) :=
  @From.forever _ _ _ bytes (doubleQuotedLoop identifiers executableComment output context) _
    handledScan doubleQuotedTurn_from { raw := [dquote] }

theorem handleBacktickToken_from :
    From (Returns handledScan) (handleBacktickToken identifiers executableComment output context)
      bytes
      (MysqlSql.handleBacktickToken identifiers executableComment
        { input := bytes, output, context }) := by
  rw [handleBacktickToken, readDelimitedIdentifier, bind_assoc]
  refine .lift_bind fun raw => .bind (.forever delimitedTurn_from) fun name _ _ => ?_
  refine .ite (fun _ => handleSourceQualifier_from) fun _ => ?_
  exact .lift_bind fun output' => .returns rfl

theorem handleString_from :
    From (Returns handledScan) (handleString executableComment output context) bytes
      (MysqlSql.handleString executableComment { input := bytes, output, context }) :=
  .lift_bind fun _ => .bind copyQuotedString_from fun _ _ _ => .returns rfl

theorem handleHash_from :
    From (Returns handledScan) (handleHash executableComment output context) bytes
      (MysqlSql.handleHash executableComment { input := bytes, output, context }) :=
  .lift_bind fun _ => .bind copyLineComment_from fun _ _ _ => .returns rfl

theorem handleDash_from :
    From (Returns handledScan) (handleDash executableComment output context) bytes
      (MysqlSql.handleDash executableComment { input := bytes, output, context }) := by
  refine .lift_bind fun output' => peekThen_bind (fun rest hrest => ?_) (.returns rfl)
  subst hrest
  refine .nextByte_cons (.lift_bind fun output'' => .peek .byte (.ite (fun _ => ?_) fun _ => ?_))
  · exact .bind copyLineComment_from fun _ _ _ => .returns rfl
  · exact .returns rfl

/-- The mark of an executable comment is written if there is one. -/
def copyMark (output : BoundedOutput) (input : Bytes) :
    Rewriting ((Bool × BoundedOutput) × Bytes) :=
  match executableMark input with
  | some (mark, rest) => do return ((true, ← output.writeBytes mark), rest)
  | none => .ok ((false, output), input)

theorem copyExecutableCommentMarker_from :
    From (Returns Prod.mk) (copyExecutableCommentMarker output) bytes (copyMark output bytes) := by
  have hsome := executableMark_isSome bytes
  refine .peek .byte ?_
  by_cases hbang : bytes.head? = some bang
  · obtain ⟨rest, rfl⟩ := List.head?_eq_some_iff.mp hbang
    exact .nextByte_cons (.lift_bind fun output' => .returns rfl)
  rw [if_neg hbang] at hsome ⊢
  refine .peek .byte ?_
  by_cases hmark : bytes.head? = some upperM
  swap
  · have hnone : executableMark bytes = none := by simpa [hmark] using hsome
    rw [copyMark, hnone, if_neg hmark]
    exact .returns rfl
  obtain ⟨rest, rfl⟩ := List.head?_eq_some_iff.mp hmark
  refine .peek (.nthByte 1) ?_
  by_cases hbang' : rest.head? = some bang
  · obtain ⟨rest, rfl⟩ := List.head?_eq_some_iff.mp hbang'
    exact .nextByte_cons (.nextByte_cons (.lift_bind fun output' => .returns rfl))
  · rw [if_pos hmark, List.tail_cons, beq_eq_false_iff_ne.mpr hbang'] at hsome
    have hnone : executableMark (upperM :: rest) = none := by simpa using hsome
    rw [copyMark, hnone, List.getElem?_cons_succ, ← List.head?_eq_getElem?, if_neg hbang']
    exact .returns rfl

variable {nested : BoundedOutput → SqlContext → Reading Handled}

theorem handleSlash_from {nested' : Scan → Rewriting (ℕ × Scan)}
    (hnested : executableComment = false → ∀ output context bytes,
      From (Returns handledScan) (nested output context) bytes
        (nested' { input := bytes, output, context })) :
    From (Returns handledScan) (handleSlash executableComment nested output context) bytes
      (MysqlSql.handleSlash executableComment nested' { input := bytes, output, context }) := by
  refine .lift_bind fun output₁ => peekThen_bind (fun rest hrest => ?_) (.returns rfl)
  subst hrest
  refine .nextByte_cons (.lift_bind fun output₂ => .ite (fun _ => .fail rfl) fun hexecutable => ?_)
  have hmark := @copyExecutableCommentMarker_from output₂ rest
  rw [copyMark] at hmark
  simp only [List.tail_cons]
  cases hcase : executableMark rest with
  | none =>
    simp only [hcase] at hmark ⊢
    refine hmark.bind_of (fun _ herror => by cases herror) fun copied rest' _ hcopied => ?_
    cases hcopied
    exact .bind copyBlockComment_from fun _ _ _ => .returns rfl
  | some mark =>
    simp only [hcase] at hmark ⊢
    cases hwrite : output₂.writeBytes mark.1 with
    | error error =>
      rw [hwrite] at hmark
      refine hmark.bind_of (fun _ herror => ?_) fun _ _ _ hcopied => by cases hcopied
      cases herror
      rfl
    | ok output₃ =>
      rw [hwrite] at hmark
      refine hmark.bind_of (fun _ herror => by cases herror) fun copied rest' _ hcopied => ?_
      cases hcopied
      exact hnested (Bool.eq_false_of_not_eq_true hexecutable) _ _ _

/-! ## The loop -/

/-- The loop over the bytes that are left. -/
def Loop.over (loop : Loop) (input : Bytes) : MysqlSql.Loop where
  scan := { input, output := loop.output, context := loop.context }
  replacements := loop.replacements
  executableVersionPending := loop.executableVersionPending

section Loop

variable
  {nested' : Scan → Rewriting (ℕ × Scan)} {loop : Loop} {rest : Bytes}

/-- The loop goes on behind a token that has been handled. -/
theorem next_from {computation : Reading Handled} {result : Rewriting (ℕ × Scan)}
    (h : From (Returns handledScan) computation bytes result) :
    From (Steps Loop.over handledScan (bytes.length + 1))
      (computation >>= fun handled => pure (loop.next handled)) bytes
      (result >>= fun scan => pure ((loop.over rest).next scan)) :=
  .bind h fun _ _ hle => .stepAgain (Nat.lt_succ_of_le hle) rfl

/-- The loop behind plain bytes that have been written. -/
def Loop.plain (loop : Loop) (bytes : Bytes) (output : BoundedOutput) : Loop where
  output
  context := bytes.foldl SqlContext.observePunctuation loop.context
  replacements := loop.replacements
  executableVersionPending := loop.executableVersionPending && bytes.all isAsciiWhitespace

theorem Loop.plain_plain (bytes bytes' : Bytes) (output output' : BoundedOutput) :
    (loop.plain bytes output).plain bytes' output' = loop.plain (bytes ++ bytes') output' := by
  simp only [Loop.plain, List.foldl_append, List.all_append, Bool.and_assoc]

theorem rewriteStep_plain (h : normalSpecial byte = false) :
    rewriteStep identifiers executableComment nested' (loop.over (byte :: rest)) =
      loop.output.writeByte byte >>= fun output =>
        pure (.inl ((loop.plain [byte] output).over rest)) := by
  simp only [normalSpecial, Bool.or_eq_false_iff, beq_eq_false_iff_ne] at h
  obtain ⟨⟨⟨⟨⟨⟨⟨hquote, hdquote⟩, hbacktick⟩, hslash⟩, hdash⟩, hhash⟩, hstar⟩, hword⟩ := h
  simp only [rewriteStep, Loop.over, MysqlSql.rewriteAt, if_neg hquote, if_neg hdquote,
    if_neg hbacktick, hword, if_neg hhash, if_neg hdash, if_neg hslash, if_neg hstar,
    copyPunctuation, bind_assoc, pure_bind, Loop.plain, List.foldl_cons, List.foldl_nil,
    List.all_cons, List.all_nil, Bool.and_true, Bool.false_eq_true, if_false]

/-- Plain bytes are handled one by one or at once. -/
theorem iterate_plain : ∀ {bytes : Bytes} {loop : Loop} {fuel : ℕ}, bytes ≠ [] →
    (∀ byte ∈ bytes, normalSpecial byte = false) → bytes.length ≤ fuel →
    iterate (rewriteStep identifiers executableComment nested') .timeout fuel
        (loop.over (bytes ++ rest)) =
      loop.output.writeBytes bytes >>= fun output =>
        iterate (rewriteStep identifiers executableComment nested') .timeout (fuel - bytes.length)
          ((loop.plain bytes output).over rest)
  | [], _, _, hne, _, _ => absurd rfl hne
  | byte :: bytes, loop, 0, _, _, hfuel => absurd hfuel (Nat.not_succ_le_zero _)
  | [byte], loop, fuel + 1, _, hplain, _ => by
    rw [List.cons_append, iterate, rewriteStep_plain (hplain byte List.mem_cons_self), bind_assoc]
    rfl
  | byte :: byte' :: bytes, loop, fuel + 1, _, hplain, hfuel => by
    have hsplit := writeBytes_append loop.output [byte] (byte' :: bytes)
    rw [List.cons_append, iterate, rewriteStep_plain (hplain byte List.mem_cons_self), bind_assoc]
    rw [show byte :: byte' :: bytes = [byte] ++ byte' :: bytes from rfl, hsplit, bind_assoc]
    refine congrArg _ (funext fun output => ?_)
    have hrest := @iterate_plain (byte' :: bytes) (loop.plain [byte] output) fuel
      (List.cons_ne_nil _ _) (fun byte hbyte => hplain byte (List.mem_cons_of_mem _ hbyte))
      (Nat.le_of_succ_le_succ hfuel)
    refine hrest.trans (congrArg _ (funext fun output' => ?_))
    rw [Loop.plain_plain, List.singleton_append]
    simp only [List.length_cons, Nat.add_sub_add_right]

variable {input : BoundedInput}

theorem stillPending_bind {pending : Bool} {next : Bool → Reading α}
    {expected : Rewriting γ} (hpos : length ≠ 0)
    (hlength : length ≤ input.ready.length)
    (h : Simulates agrees (next (pending && (input.left.take length).all isAsciiWhitespace)) input
      expected) :
    Simulates agrees (rewriteTurn.stillPending pending length >>= next) input expected := by
  cases pending with
  | false => exact h
  | true =>
    refine Meets.bind (Meets.bind (Meets.available_of_ready (ready_ne_nil hpos hlength) fun _ =>
      Meets.pure fun _ => ?_))
    rw [take_ready hlength]
    rw [Bool.true_and, List.all_eq_not_any_not] at h
    exact h

theorem copyNormalPrefix_bind {next : BoundedOutput × SqlContext → Reading α}
    {rest : BoundedOutput → Rewriting γ} (hpos : length ≠ 0)
    (hlength : length ≤ input.ready.length) (h : ∀ output', From agrees
      (next (output', (input.left.take length).foldl SqlContext.observePunctuation context))
      (input.left.drop length) (rest output')) :
    Simulates agrees (copyNormalPrefix output context length >>= next) input
      (output.writeBytes (input.left.take length) >>= rest) := by
  simp only [copyNormalPrefix, bind_assoc, pure_bind]
  refine Meets.bind (Meets.available_of_ready (ready_ne_nil hpos hlength) fun _ =>
    writeReady_bind hlength fun output' => ?_)
  rw [take_ready hlength]
  exact h output'

section Nested

variable (hnested : executableComment = false → ∀ output context bytes,
  From (Returns handledScan) (nested output context) bytes
    (nested' { input := bytes, output, context }))
include hnested

/-- The branches at a special byte. -/
theorem rewriteAt_from (hspecial : normalSpecial byte = true) :
    From (Steps Loop.over handledScan (bytes.length + 1))
      (rewriteAt identifiers executableComment nested loop byte) bytes
      (MysqlSql.rewriteAt identifiers executableComment nested' (loop.over rest) byte
        { input := bytes, output := loop.output, context := loop.context }) := by
  refine .ite (fun _ => next_from handleString_from) fun hquote => ?_
  refine .ite (fun hdquote => ?_) fun hdquote => ?_
  · subst hdquote
    exact next_from handleDoubleQuotedToken_from
  refine .ite (fun _ => next_from handleBacktickToken_from) fun hbacktick => ?_
  refine .ite (fun _ => next_from handleUnquotedToken_from) fun hword => ?_
  refine .ite (fun _ => next_from handleHash_from) fun hhash => ?_
  refine .ite (fun _ => next_from handleDash_from) fun hdash => ?_
  refine .ite (fun _ => next_from (handleSlash_from hnested)) fun hslash => ?_
  have hstar : byte = star := by
    simpa [normalSpecial, hquote, hdquote, hbacktick, hword, hhash, hdash, hslash] using hspecial
  rw [if_pos hstar]
  refine peekThen_bind (fun rest hrest => ?_) ?_
  · subst hrest
    refine .nextByte_cons ?_
    cases executableComment with
    | false => exact .fail rfl
    | true => exact .lift_bind fun output => .stepDone rfl
  · rw [copyPunctuation, bind_assoc]
    exact .lift_bind fun output => .stepAgain (Nat.lt_succ_self _) rfl

theorem rewriteTurn_from {fuel : ℕ} (hfuel : bytes.length < fuel) :
    From
      (TurnsWithin handledScan
        (fun fuel loop bytes => iterate (rewriteStep identifiers executableComment nested') .timeout
          fuel (loop.over bytes)) bytes.length)
      (rewriteTurn identifiers executableComment nested loop) bytes
      (iterate (rewriteStep identifiers executableComment nested') .timeout fuel
        (loop.over bytes)) := by
  refine position_bind ?_ ?_ ?_
  · rintro rfl
    refine .of_steps hfuel ?_
    change From _ (if executableComment = true then _ else _) _
      (if executableComment = true then _ else _)
    exact .ite (fun _ => .fail rfl) fun _ => .stepDone rfl
  · rintro byte rest length rfl hspecial hlength
    simp only [hlength, if_false, ne_eq, not_true_eq_false]
    exact .of_steps hfuel (expectByte_bind (rewriteAt_from hnested hspecial))
  · rintro found length input rfl hfound hlength hpos hle hplain -
    simp only [hlength, hfound, if_false, ne_eq, not_false_eq_true, if_true]
    have hlength' : found.getD length ≤ input.left.length :=
      hle.trans (@BoundedInput.ready_prefix input).length_le
    have htake : (input.left.take (found.getD length)).length = found.getD length :=
      List.length_take_of_le hlength'
    have hiterate := @iterate_plain identifiers executableComment nested'
      (input.left.drop (found.getD length)) _ loop fuel (take_left_ne_nil hpos hle) hplain (by omega)
    rw [List.take_append_drop, htake] at hiterate
    rw [hiterate]
    refine stillPending_bind hpos hle (copyNormalPrefix_bind hpos hle fun output input' hdrop => ?_)
    have hdropped := congrArg List.length hdrop
    rw [List.length_drop] at hdropped
    refine Meets.pure ⟨by omega, fuel - found.getD length, by omega, ?_⟩
    rw [hdrop]
    rfl

theorem rewriteLoop_from :
    From (Returns handledScan) (rewriteLoop identifiers executableComment nested output context)
      bytes
      (MysqlSql.rewriteLoop identifiers executableComment nested'
        { input := bytes, output, context }) :=
  @From.forever_within _ _ _ bytes _ handledScan
    (fun fuel (loop : Loop) bytes => iterate (rewriteStep identifiers executableComment nested')
      .timeout fuel (loop.over bytes))
    (rewriteTurn_from hnested) _
    { output, context, executableVersionPending := executableComment } (Nat.lt_succ_self _)

end Nested

/-- **The chunks do not show**: over a stream `rewriteSql` does what it does over the bytes. -/
theorem rewriteSql_follows :
    Follows handledScan (rewriteSql identifiers executableComment output context) input
      (MysqlSql.rewriteSql identifiers executableComment
        { input := input.left, output, context }) :=
  rewriteLoop_from (fun _ _ _ _ => rewriteLoop_from fun hnested => by cases hnested) input rfl

end Loop

/-! ## Whole dumps -/

variable {maxBytes : ℕ} {dump : Bytes}

/-- Outside of executable comments a byte never ends the loop. -/
theorem rewriteAt_ne_inr {nested : Scan → Rewriting (ℕ × Scan)}
    {loop : MysqlSql.Loop} {scan : Scan} {result : ℕ × Scan} :
    MysqlSql.rewriteAt identifiers false nested loop byte scan ≠ .ok (.inr result) := by
  intro h
  unfold MysqlSql.rewriteAt at h
  split_ifs at h
  all_goals first
    | contradiction
    | obtain ⟨⟨_, _⟩, _, h⟩ := bind_eq_ok.mp h
      cases h

/-- Outside of executable comments a rewrite ends at the end of the dump. -/
theorem rewriteSql_consumes_all {scan scan' : Scan} {replacements : ℕ}
    (h : MysqlSql.rewriteSql identifiers false scan = .ok (replacements, scan')) :
    scan'.input = [] :=
  iterate_rec (motive := fun (_ : MysqlSql.Loop) (result : ℕ × Scan) => result.2.input = [])
    (fun {loop result} hlast => by
      unfold rewriteStep at hlast
      split at hlast
      next hinput =>
        cases hlast
        exact hinput
      · exact absurd hlast rewriteAt_ne_inr)
    (fun {_ _ _} _ ih => ih) h

/-- How a rewrite of a stream ends: as the rewrite of its bytes, or at the input limit. -/
theorem rewriteStream_spec (identifiers : RewriteIdentifiers) (executableComment : Bool)
    (output : BoundedOutput) (context : SqlContext) (maxBytes : ℕ) (reader : ByteReader) :
    (maxBytes < reader.bytes.length ∧
      rewriteStream identifiers executableComment output context maxBytes reader =
        .error (.inputLimit maxBytes)) ∨
    (∃ error, MysqlSql.rewriteSql identifiers executableComment
        { input := reader.bytes, output, context } = .error error ∧
      rewriteStream identifiers executableComment output context maxBytes reader =
        .error (.rewrite error)) ∨
    ∃ replacements scan, MysqlSql.rewriteSql identifiers executableComment
        { input := reader.bytes, output, context } = .ok (replacements, scan) ∧
      rewriteStream identifiers executableComment output context maxBytes reader =
        .ok (replacements, scan.output.bytes) ∧
      (scan.input = [] → reader.bytes.length ≤ maxBytes) := by
  have hfollows := @rewriteSql_follows identifiers executableComment output context
    (BoundedInput.new reader maxBytes)
  have htotal : (BoundedInput.new reader maxBytes).total = reader.bytes.length := Nat.zero_add _
  unfold rewriteStream
  unfold Follows Simulates Meets at hfollows
  cases hresult : rewriteSql identifiers executableComment output context
      (BoundedInput.new reader maxBytes) with
  | error error =>
    rw [hresult] at hfollows
    cases error with
    | rewrite error => exact .inr (.inl ⟨error, hfollows, rfl⟩)
    | inputLimit limit =>
      obtain ⟨rfl, hexceeded⟩ := hfollows
      rw [htotal] at hexceeded
      exact .inl ⟨hexceeded, rfl⟩
    | exhausted => exact hfollows.elim
  | ok result =>
    rw [hresult] at hfollows
    obtain ⟨hconsumes, hreturns⟩ := hfollows
    refine .inr (.inr ⟨_, _, hreturns, rfl, fun hend => ?_⟩)
    -- everything has been read, and within the limit
    have hbounded := result.2.bounded
    have hbytes : result.2.reader.bytes = [] := by
      have hleft : result.2.left = [] := hend
      rw [BoundedInput.left, List.append_eq_nil_iff, List.append_eq_nil_iff] at hleft
      exact hleft.2.2
    have hsum := hconsumes.total
    rw [htotal, BoundedInput.total, hbytes, List.length_nil, Nat.add_zero] at hsum
    rw [hconsumes.maxBytes, hsum] at hbounded
    exact hbounded

/-- Within the limit only the bytes matter. -/
theorem rewriteStream_within (hlength : dump.length ≤ maxBytes) (cuts : List ℕ) :
    rewriteStream identifiers executableComment output context maxBytes ⟨dump, cuts⟩ =
      ((MysqlSql.rewriteSql identifiers executableComment
        { input := dump, output, context }).mapError .rewrite).map fun result =>
          (result.1, result.2.output.bytes) := by
  rcases rewriteStream_spec identifiers executableComment output context maxBytes ⟨dump, cuts⟩ with
    ⟨hexceeded, _⟩ | ⟨error, hbytes, hstream⟩ | ⟨replacements, scan, hbytes, hstream, _⟩
  · exact absurd hlength (Nat.not_le.mpr hexceeded)
  · rw [hstream, hbytes]
    rfl
  · rw [hstream, hbytes]
    rfl

/-- **Stream chunking is invisible**: two readers that cut a dump within the limit in different ways
give the same result, which is never the input limit, and a longer dump is never rewritten. -/
theorem rewriteStream_chunking (identifiers : RewriteIdentifiers) (output : BoundedOutput)
    (context : SqlContext) (maxBytes : ℕ) (dump : Bytes) :
    (dump.length ≤ maxBytes → ∀ executableComment cuts cuts',
      rewriteStream identifiers executableComment output context maxBytes ⟨dump, cuts⟩ =
        rewriteStream identifiers executableComment output context maxBytes ⟨dump, cuts'⟩ ∧
      ∀ limit, rewriteStream identifiers executableComment output context maxBytes ⟨dump, cuts⟩ ≠
        .error (.inputLimit limit)) ∧
    (maxBytes < dump.length → ∀ cuts result,
      rewriteStream identifiers false output context maxBytes ⟨dump, cuts⟩ ≠ .ok result) := by
  constructor
  · intro hlength executableComment cuts cuts'
    rw [rewriteStream_within hlength, rewriteStream_within hlength]
    refine ⟨rfl, fun limit h => ?_⟩
    cases hbytes : MysqlSql.rewriteSql identifiers executableComment
        { input := dump, output, context } with
    | error error =>
      rw [hbytes] at h
      cases h
    | ok result =>
      rw [hbytes] at h
      cases h
  · intro hlength cuts result h
    rcases rewriteStream_spec identifiers false output context maxBytes ⟨dump, cuts⟩ with
      ⟨_, hstream⟩ | ⟨error, _, hstream⟩ | ⟨replacements, scan, hbytes, _, hend⟩
    · cases hstream.symm.trans h
    · cases hstream.symm.trans h
    · exact absurd (hend (rewriteSql_consumes_all hbytes)) (Nat.not_le.mpr hlength)

/-- A qualifier that is cut into single bytes, and a dump that exceeds the limit by one byte. -/
theorem rewriteStream_chunking_split_qualifier :
    rewriteStream (rewriteIdentifiers (ascii "a") (ascii "b")) false { maxBytes := 100 } {} 15
        ⟨ascii "FROM a.t;", [0, 0, 0, 0, 0, 0, 0, 0, 0]⟩ = .ok (1, ascii "FROM `b`.t;") ∧
      rewriteStream (rewriteIdentifiers (ascii "a") (ascii "b")) false { maxBytes := 100 } {} 15
        ⟨ascii "FROM a.t;", []⟩ = .ok (1, ascii "FROM `b`.t;") ∧
      rewriteStream (rewriteIdentifiers (ascii "a") (ascii "b")) false { maxBytes := 100 } {} 8
        ⟨ascii "FROM a.t;", [3, 0]⟩ ≠ .ok (1, ascii "FROM `b`.t;") := by
  have hwhole : rewriteStream (rewriteIdentifiers (ascii "a") (ascii "b")) false
      { maxBytes := 100 } {} 15 ⟨ascii "FROM a.t;", []⟩ = .ok (1, ascii "FROM `b`.t;") := by
    decide +kernel
  refine ⟨?_, hwhole, ?_⟩
  · exact (((rewriteStream_chunking _ _ _ 15 (ascii "FROM a.t;")).1 (by decide) false _ []).1).trans
      hwhole
  · exact (rewriteStream_chunking _ _ _ 8 (ascii "FROM a.t;")).2 (by decide) _ _

end DatabasesEverywhere.MysqlSql.Stream
