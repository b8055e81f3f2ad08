import DatabasesEverywhere.Sql.Lexer

/-!
# Sql/CopyData — where the data of a `COPY … FROM STDIN` ends

    data line ⏎  …  data line ⏎  \. ⏎  the next statement

PostgreSQL ends the data at a line that is `\.`, up to a carriage return.  The inspection keeps three
bytes of a line to compare: enough for `\.` and `\.␍`, but a longer line that starts with `\.␍` looks
the same.  `skipPostgresCopyData_iff` says that these lines are all that goes wrong.
-/

open Foundations

namespace DatabasesEverywhere.Sql

/-- The data lines up to the line that ends the data, and what is behind that line if there is one.
`line` is what has been read of the current line. -/
def copyLines (line : Bytes) : Bytes → List Bytes × Option Bytes
  | [] => ([], none)
  | byte :: rest =>
    if byte = Ascii.newline then
      if endsCopyData line then ([], some rest)
      else (line :: (copyLines [] rest).1, (copyLines [] rest).2)
    else copyLines (line ++ [byte]) rest

variable (line : Bytes)

/-- What skipping the data has to answer once `line` has been read of the current line. -/
def copyDataEndFrom (input : Bytes) : Except InspectionError Bytes :=
  (copyLines line input).2.elim
    (.error (.invalid "PostgreSQL COPY data is missing its terminator")) .ok

def copyDataEnd (input : Bytes) : Except InspectionError Bytes := copyDataEndFrom [] input

/-- A line that is cut to the end of data. -/
def CutToEnd : Prop := line.take 3 = ascii "\\.\r" ∧ 3 < line.length

instance : Decidable (CutToEnd line) := inferInstanceAs (Decidable (_ ∧ _))

/-- Three bytes of a line tell the end of data, and the lines that are cut to it. -/
theorem endsCopyData_take :
    endsCopyData (line.take 3) = true ↔ endsCopyData line = true ∨ CutToEnd line := by
  match line with
  | [] | [_] | [_, _] | [_, _, _] => simp [CutToEnd]
  | a :: b :: c :: d :: rest =>
    have hlong : endsCopyData (a :: b :: c :: d :: rest) = false := by
      have hlen : 2 < (if (a :: b :: c :: d :: rest).getLast? = some Ascii.carriage then
          (a :: b :: c :: d :: rest).dropLast else a :: b :: c :: d :: rest).length := by
        split
        · simp
        · simp
      rw [endsCopyData, decide_eq_false_iff_not]
      intro heq
      rw [heq] at hlen
      exact absurd hlen (by decide)
    have hend : ascii "\\.\r" = [0x5c, 0x2e, 0x0d] := by decide
    have hdot : ascii "\\." = [0x5c, 0x2e] := by decide
    rw [hlong, CutToEnd, hend, endsCopyData, hdot]
    by_cases hcr : c = Ascii.carriage
    · simp [hcr]
    · simp [hcr]

theorem copyLines_shorter {line input rest : Bytes} (h : (copyLines line input).2 = some rest) :
    rest.length < input.length := by
  induction input generalizing line with
  | nil => cases h
  | cons byte input ih =>
    rw [copyLines] at h
    split at h
    · split at h
      · obtain rfl := Option.some.inj h
        exact Nat.lt_succ_self _
      · exact Nat.lt_succ_of_lt (ih h)
    · exact Nat.lt_succ_of_lt (ih h)

/-- The induction follows the bytes; the kept bytes are the first three of the line. -/
theorem skipPostgresCopyData_take (input : Bytes) :
    skipPostgresCopyData (line.take 3) input = copyDataEndFrom line input ↔
      ∀ data ∈ (copyLines line input).1, ¬ CutToEnd data := by
  induction input generalizing line with
  | nil => simp [skipPostgresCopyData, copyDataEndFrom, copyLines]
  | cons byte rest ih =>
    rw [skipPostgresCopyData, copyDataEndFrom, copyLines]
    by_cases hnewline : byte = Ascii.newline
    · rw [if_pos hnewline, if_pos hnewline]
      by_cases hend : endsCopyData line = true
      · rw [if_pos ((endsCopyData_take line).mpr (.inl hend)), if_pos hend]
        simp
      rw [if_neg hend]
      by_cases hcut : CutToEnd line
      swap
      · have hnext : ¬ endsCopyData (line.take 3) = true := fun h =>
          ((endsCopyData_take line).mp h).elim hend hcut
        rw [if_neg hnext, List.forall_mem_cons]
        exact (ih []).trans (iff_and_self.mpr fun _ => hcut)
      -- the skip stops here, and the data go on
      have hearly : Except.ok rest ≠ copyDataEndFrom [] rest := by
        intro heq
        rw [copyDataEndFrom] at heq
        cases hrest : (copyLines [] rest).2 with
        | none =>
          rw [hrest] at heq
          cases heq
        | some rest' =>
          rw [hrest] at heq
          have hshorter := copyLines_shorter hrest
          rw [Except.ok.inj heq] at hshorter
          exact Nat.lt_irrefl _ hshorter
      rw [if_pos ((endsCopyData_take line).mpr (.inr hcut))]
      refine iff_of_false hearly fun hnone => ?_
      exact hnone line List.mem_cons_self hcut
    · rw [if_neg hnewline, if_neg hnewline]
      have hkept : (if (line.take 3).length < 3 then skipPostgresCopyData (line.take 3 ++ [byte]) rest
          else skipPostgresCopyData (line.take 3) rest) =
          skipPostgresCopyData ((line ++ [byte]).take 3) rest := by
        by_cases hshort : line.length < 3
        · rw [if_pos (by rw [List.length_take]; omega), List.take_of_length_le (by omega),
            List.take_of_length_le (by simp; omega)]
        · rw [if_neg (by rw [List.length_take]; omega), List.take_append_of_le_length (by omega)]
      rw [hkept]
      exact ih (line ++ [byte])

/-- **Where the data are skipped exactly.**  The skip ends at the line that ends the data, or fails if
there is none, exactly if no line before it is longer than three bytes and starts with `\.␍`. -/
theorem skipPostgresCopyData_iff (input : Bytes) :
    skipPostgresCopyData [] input = copyDataEnd input ↔
      ∀ line ∈ (copyLines [] input).1, ¬ (line.take 3 = ascii "\\.\r" ∧ 3 < line.length) :=
  skipPostgresCopyData_take [] input

theorem skip_exact_crlf :
    skipPostgresCopyData [] (ascii "\\.x\r\n\\.\r\nSELECT 1;") =
      copyDataEnd (ascii "\\.x\r\n\\.\r\nSELECT 1;") :=
  (skipPostgresCopyData_iff _).mpr (by decide)

/-- A data line that starts like the end of data ends the skip, and the line that ends the data is
taken for SQL. -/
theorem skip_stops_at_data_line :
    skipPostgresCopyData [] (ascii "\\.\rx\n1\n\\.\nSELECT 1;") =
        .ok (ascii "1\n\\.\nSELECT 1;") ∧
      copyDataEnd (ascii "\\.\rx\n1\n\\.\nSELECT 1;") = .ok (ascii "SELECT 1;") := by
  decide

end DatabasesEverywhere.Sql
