import DatabasesEverywhere.MysqlSql.Scanner

/-!
# MysqlSql/Copies — what the readers of the rewriter take and give

Each reader takes a lexical unit off its input and either writes the bytes of the unit to the output
or hands them back.  The lemmas say so reader by reader, for the runs that succeed:

    copy… input = ok (output', rest)   ⟹   input = raw ++ rest,  output' = output ++ raw
    read… input = ok (gap', rest)      ⟹   input = raw ++ rest,  gap' = gap ++ raw

where `raw` is what `MysqlSql/Units` splits off.
-/

open Foundations

namespace DatabasesEverywhere.MysqlSql

theorem writeBytes_ok {output output' : BoundedOutput} {bytes : Bytes}
    (h : output.writeBytes bytes = .ok output') : output'.bytes = output.bytes ++ bytes := by
  unfold BoundedOutput.writeBytes at h
  split at h
  · cases h
  · cases h
    rfl

variable {byte : UInt8}

theorem writeByte_ok {output output' : BoundedOutput} (h : output.writeByte byte = .ok output') :
    output'.bytes = output.bytes ++ [byte] :=
  writeBytes_ok h

theorem pushByte_ok {limit : ℕ} {message : String} {bytes bytes' : Bytes}
    (h : pushByte limit message bytes byte = .ok bytes') : bytes' = bytes ++ [byte] := by
  unfold pushByte at h
  split at h
  · cases h
  · cases h
    rfl

theorem pushGapByte_ok {gap gap' : Bytes} (h : pushGapByte gap byte = .ok gap') :
    gap' = gap ++ [byte] :=
  pushByte_ok h

theorem pushTokenByte_ok {token token' : Bytes} (h : pushTokenByte token byte = .ok token') :
    token' = token ++ [byte] :=
  pushByte_ok h

/-! ## Copies -/

variable {executable : Bool} {quote : UInt8}

theorem copyQuotedString_ok : ∀ {input rest : Bytes}
    {output output' : BoundedOutput},
    copyQuotedString quote executable output input = .ok (output', rest) →
    ∃ raw, quotedText quote input = some (raw, rest) ∧ output'.bytes = output.bytes ++ raw
  | [], _, _, _, h => by cases h
  | [byte], rest, output, output', h => by
    rw [copyQuotedString] at h
    split at h
    · obtain ⟨_, _, h⟩ := bind_eq_ok.mp h
      cases h
    rename_i hescape
    split at h
    next hquote =>
      obtain ⟨written, hwritten, h⟩ := bind_eq_ok.mp h
      cases h
      exact ⟨[byte], by rw [quotedText, if_pos ⟨hquote, hescape⟩], writeByte_ok hwritten⟩
    split at h
    · cases h
    · obtain ⟨_, _, h⟩ := bind_eq_ok.mp h
      cases h
  | byte :: next :: input, rest, output, output', h => by
    rw [copyQuotedString] at h
    rw [quotedText]
    split at h
    next hescape =>
      obtain ⟨written, hwritten, h⟩ := bind_eq_ok.mp h
      dsimp only at h
      split at h
      · cases h
      obtain ⟨written', hwritten', h⟩ := bind_eq_ok.mp h
      obtain ⟨raw, hraw, hbytes⟩ := copyQuotedString_ok h
      refine ⟨[byte, next] ++ raw, by rw [if_pos hescape, hraw]; rfl, ?_⟩
      rw [hbytes, writeByte_ok hwritten', writeByte_ok hwritten]
      simp
    rename_i hescape
    rw [if_neg hescape]
    split at h
    next hquote =>
      rw [if_pos hquote]
      obtain ⟨written, hwritten, h⟩ := bind_eq_ok.mp h
      dsimp only at h
      split at h
      next hnext =>
        obtain ⟨written', hwritten', h⟩ := bind_eq_ok.mp h
        obtain ⟨raw, hraw, hbytes⟩ := copyQuotedString_ok h
        refine ⟨[byte, next] ++ raw, by rw [if_pos hnext, hraw]; rfl, ?_⟩
        rw [hbytes, writeByte_ok hwritten', writeByte_ok hwritten, hnext]
        simp
      next hnext =>
        cases h
        exact ⟨[byte], by rw [if_neg hnext], writeByte_ok hwritten⟩
    rename_i hquote
    rw [if_neg hquote]
    split at h
    · cases h
    · obtain ⟨written, hwritten, h⟩ := bind_eq_ok.mp h
      obtain ⟨raw, hraw, hbytes⟩ := copyQuotedString_ok h
      refine ⟨[byte] ++ raw, by rw [hraw]; rfl, ?_⟩
      rw [hbytes, writeByte_ok hwritten, List.append_assoc]

variable {input rest : Bytes} {output output' : BoundedOutput}

theorem copyLineComment_ok (h : copyLineComment executable output input = .ok (output', rest)) :
    rest = (lineText input).2 ∧ output'.bytes = output.bytes ++ (lineText input).1 := by
  fun_induction copyLineComment executable output input with
  | case1 | case4 => cases h
  | case2 =>
    cases h
    exact ⟨rfl, (List.append_nil _).symm⟩
  | case3 =>
    obtain ⟨written, hwritten, h⟩ := bind_eq_ok.mp h
    cases h
    exact ⟨rfl, writeByte_ok hwritten⟩
  | case5 output byte input hnewline _ ih =>
    obtain ⟨written, hwritten, h⟩ := bind_eq_ok.mp h
    obtain ⟨hrest, hbytes⟩ := ih _ h
    rw [lineText, if_neg hnewline]
    exact ⟨hrest, by rw [hbytes, writeByte_ok hwritten, List.append_assoc]; rfl⟩

theorem copyBlockComment_ok (h : copyBlockComment output input = .ok (output', rest)) :
    ∃ raw, blockText input = some (raw, rest) ∧ output'.bytes = output.bytes ++ raw := by
  fun_induction copyBlockComment output input with
  | case1 => cases h
  | case2 output byte input ih =>
    obtain ⟨written, hwritten, h⟩ := bind_eq_ok.mp h
    cases input with
    | nil => cases h
    | cons next input =>
      rw [blockText]
      dsimp only at h
      split at h
      · next hend =>
        obtain ⟨written', hwritten', h⟩ := bind_eq_ok.mp h
        cases h
        refine ⟨[byte, next], by rw [if_pos hend], ?_⟩
        rw [writeByte_ok hwritten', writeByte_ok hwritten, List.append_assoc]
        rfl
      · next hend =>
        obtain ⟨raw, hraw, hbytes⟩ := ih _ h
        refine ⟨[byte] ++ raw, by rw [if_neg hend, hraw]; rfl, ?_⟩
        rw [hbytes, writeByte_ok hwritten, List.append_assoc]

theorem wordText_cons {input : Bytes} (h : isUnquotedIdentifierByte byte = true) :
    wordText (byte :: input) = (byte :: (wordText input).1, (wordText input).2) := by
  simp [wordText, h]

theorem wordText_stop {input : Bytes} (h : ¬ isUnquotedIdentifierByte byte = true) :
    wordText (byte :: input) = ([], byte :: input) := by
  simp [wordText, h]

theorem copyUnquotedTokenRemainder_ok
    (h : copyUnquotedTokenRemainder output input = .ok (output', rest)) :
    rest = (wordText input).2 ∧ output'.bytes = output.bytes ++ (wordText input).1 := by
  fun_induction copyUnquotedTokenRemainder output input with
  | case1 =>
    cases h
    exact ⟨rfl, (List.append_nil _).symm⟩
  | case2 output byte input hbyte ih =>
    obtain ⟨written, hwritten, h⟩ := bind_eq_ok.mp h
    obtain ⟨hrest, hbytes⟩ := ih _ h
    rw [wordText_cons hbyte]
    exact ⟨hrest, by rw [hbytes, writeByte_ok hwritten, List.append_assoc]; rfl⟩
  | case3 output byte input hbyte =>
    cases h
    rw [wordText_stop hbyte]
    exact ⟨rfl, (List.append_nil _).symm⟩

/-! ## Gaps and names -/

variable {gap gap' : Bytes}

theorem readGapLineComment_ok (h : readGapLineComment executable gap input = .ok (gap', rest)) :
    rest = (lineText input).2 ∧ gap' = gap ++ (lineText input).1 := by
  fun_induction readGapLineComment executable gap input with
  | case1 | case3 => cases h
  | case2 =>
    cases h
    exact ⟨rfl, (List.append_nil _).symm⟩
  | case4 gap byte input _ ih =>
    obtain ⟨pushed, hpushed, h⟩ := bind_eq_ok.mp h
    obtain rfl := pushGapByte_ok hpushed
    rw [lineText]
    split at h
    · next hnewline =>
      cases h
      rw [if_pos hnewline]
      exact ⟨rfl, rfl⟩
    · next hnewline =>
      obtain ⟨hrest, hgap⟩ := ih _ h
      rw [if_neg hnewline]
      exact ⟨hrest, by rw [hgap, List.append_assoc]; rfl⟩

theorem readGapBlockComment_ok (h : readGapBlockComment gap input = .ok (gap', rest)) :
    ∃ raw, blockText input = some (raw, rest) ∧ gap' = gap ++ raw := by
  fun_induction readGapBlockComment gap input with
  | case1 => cases h
  | case2 gap byte input ih =>
    obtain ⟨pushed, hpushed, h⟩ := bind_eq_ok.mp h
    obtain rfl := pushGapByte_ok hpushed
    cases input with
    | nil => cases h
    | cons next input =>
      rw [blockText]
      dsimp only at h
      split at h
      · next hend =>
        obtain ⟨pushed', hpushed', h⟩ := bind_eq_ok.mp h
        obtain rfl := pushGapByte_ok hpushed'
        cases h
        exact ⟨[byte, next], by rw [if_pos hend], by rw [List.append_assoc]; rfl⟩
      · next hend =>
        obtain ⟨raw, hraw, rfl⟩ := ih _ h
        exact ⟨[byte] ++ raw, by rw [if_neg hend, hraw]; rfl, by rw [List.append_assoc]⟩

theorem doubled_cons (quote byte : UInt8) (name : Bytes) :
    doubled quote (byte :: name) =
      (if byte = quote then [byte, quote] else [byte]) ++ doubled quote name :=
  List.flatMap_cons

/-- The text of a quoted name is its decoded name with the quotes doubled. -/
theorem readDelimitedIdentifier_ok :
    ∀ {input rest : Bytes} {name name' : DelimitedIdentifier},
    readDelimitedIdentifier quote executable name input = .ok (name', rest) →
    ∃ decoded, delimitedText quote input = some (doubled quote decoded ++ [quote], rest) ∧
      name'.raw = name.raw ++ (doubled quote decoded ++ [quote]) ∧
      name'.decoded = name.decoded ++ decoded
  | [], _, _, _, h => by cases h
  | [byte], rest, name, name', h => by
    rw [readDelimitedIdentifier] at h
    split at h
    · cases h
    obtain ⟨raw, hraw, h⟩ := bind_eq_ok.mp h
    split at h
    · obtain ⟨_, _, h⟩ := bind_eq_ok.mp h
      cases h
    rename_i hquote
    obtain rfl := not_not.mp hquote
    cases h
    exact ⟨[], by rw [delimitedText, if_pos rfl]; rfl, pushTokenByte_ok hraw,
      (List.append_nil _).symm⟩
  | byte :: next :: input, rest, name, name', h => by
    rw [readDelimitedIdentifier] at h
    split at h
    · cases h
    obtain ⟨raw, hraw, h⟩ := bind_eq_ok.mp h
    obtain rfl := pushTokenByte_ok hraw
    rw [delimitedText]
    split at h
    next hquote =>
      obtain ⟨pushed, hpushed, h⟩ := bind_eq_ok.mp h
      obtain rfl := pushTokenByte_ok hpushed
      obtain ⟨decoded, htext, hraw', hdecoded⟩ := readDelimitedIdentifier_ok h
      refine ⟨byte :: decoded, ?_, ?_, ?_⟩
      · rw [if_neg hquote, htext, doubled_cons, if_neg hquote]
        rfl
      · rw [hraw', doubled_cons, if_neg hquote]
        simp
      · rw [hdecoded, List.append_assoc]
        rfl
    next hquote =>
      obtain rfl := (not_not.mp hquote).symm
      rw [if_pos rfl]
      dsimp only at h
      split at h
      swap
      next hnext =>
        cases h
        exact ⟨[], by rw [if_neg hnext]; rfl, rfl, (List.append_nil _).symm⟩
      rename_i hnext
      obtain ⟨raw', hraw', h⟩ := bind_eq_ok.mp h
      obtain ⟨pushed, hpushed, h⟩ := bind_eq_ok.mp h
      obtain rfl := pushTokenByte_ok hraw'
      obtain rfl := pushTokenByte_ok hpushed
      obtain ⟨decoded, htext, hraw'', hdecoded⟩ := readDelimitedIdentifier_ok h
      refine ⟨quote :: decoded, ?_, ?_, ?_⟩
      · rw [if_pos hnext, htext, doubled_cons, if_pos rfl, hnext]
        rfl
      · rw [hraw'', doubled_cons, if_pos rfl]
        simp
      · rw [hdecoded, List.append_assoc]
        rfl

theorem readUnquotedIdentifier_ok {raw raw' : Bytes}
    (h : readUnquotedIdentifier raw input = .ok (raw', rest)) :
    rest = (wordText input).2 ∧ raw' = raw ++ (wordText input).1 := by
  fun_induction readUnquotedIdentifier raw input with
  | case1 =>
    cases h
    exact ⟨rfl, (List.append_nil _).symm⟩
  | case2 => cases h
  | case3 raw byte input hbyte _ ih =>
    obtain ⟨hrest, hraw⟩ := ih h
    rw [wordText_cons hbyte]
    exact ⟨hrest, by rw [hraw, List.append_assoc]; rfl⟩
  | case4 raw byte input hbyte =>
    cases h
    rw [wordText_stop hbyte]
    exact ⟨rfl, (List.append_nil _).symm⟩

/-- A token is a word up to the limit; an overlong one is cut short. -/
theorem readUnquotedToken_spec : ∀ (token input : Bytes),
    ∃ run, (readUnquotedToken token input).1 = token ++ run ∧
      wordText input = (run ++ (wordText (readUnquotedToken token input).2.2).1,
        (wordText (readUnquotedToken token input).2.2).2) ∧
      ((readUnquotedToken token input).2.1 = false →
        wordText (readUnquotedToken token input).2.2 =
          ([], (readUnquotedToken token input).2.2))
  | token, [] => ⟨[], (List.append_nil _).symm, rfl, fun _ => rfl⟩
  | token, byte :: input => by
    rw [readUnquotedToken]
    split
    next hbyte =>
      split
      · exact ⟨[], (List.append_nil _).symm, rfl, fun h => absurd h (by simp)⟩
      · obtain ⟨run, htoken, hword, hstop⟩ := readUnquotedToken_spec (token ++ [byte]) input
        refine ⟨byte :: run, by rw [htoken, List.append_assoc]; rfl, ?_, hstop⟩
        rw [wordText_cons hbyte, hword]
        rfl
    next hbyte =>
      refine ⟨[], (List.append_nil _).symm, rfl, fun _ => wordText_stop hbyte⟩

end DatabasesEverywhere.MysqlSql
