import DatabasesEverywhere.Utils.Redaction

/-!
# Utils/LogRedactor — redaction of a log that arrives in chunks

    chunks    PASSW│ORD=a b\nnext "li│ne"\n
    parts     PASSW  ORD=a b\n  next "li  ne"\n
    pending   ───────────────▶ redactLogRecord, or held back until the next line end

A record is given out at a line end if every recognised assignment in it has its value; each record
is redacted for itself.  The chunks do not matter (`output_eq_single`).
-/

namespace DatabasesEverywhere.Utils

open Foundations

def isLineEnd (c : Char) : Bool := c = '\n' || c = '\r'

/-! ## The redactor -/

def logRecordLimit : ℕ := 128 * 1024

def truncatedRecord : String := "[oversized log record omitted]\n"

def incompleteRecord : String := "[incomplete secret-bearing log record omitted]\n"

/-- `str::len`: the bytes of the characters. -/
def byteLength (text : List Char) : ℕ := (text.map Char.utf8Size).sum

structure LogRedactor (α : Type) where
  pending : List α := []
  failed : Bool := false

namespace LogRedactor

variable [Textual α]

/-- `str::split_inclusive` at line ends. -/
def splitInclusive : List α → List (List α)
  | [] => []
  | item :: rest =>
    if isLineEnd (Textual.char item) then [item] :: splitInclusive rest
    else
      match splitInclusive rest with
      | [] => [[item]]
      | part :: parts => (item :: part) :: parts

/-- The part is the end of a record. -/
def recordComplete (part : List α) : Bool :=
  part.getLast?.any fun item => isLineEnd (Textual.char item)

/-- The pending record as it is given out behind `part`, if it is. -/
def safeRecord (pending part : List α) : Option (List α) :=
  if recordComplete part then redactLogRecord pending else none

/-- The loop of `push` over the parts of a chunk. -/
def pushParts : LogRedactor α → List (List α) → LogRedactor α × List α
  | redactor, [] => (redactor, [])
  | redactor, part :: parts =>
    if redactor.failed then (redactor, [])
    else if logRecordLimit < byteLength (chars redactor.pending) + byteLength (chars part) then
      ({ pending := [], failed := true }, written truncatedRecord)
    else
      match safeRecord (redactor.pending ++ part) part with
      | none => pushParts { redactor with pending := redactor.pending ++ part } parts
      | some safe =>
        let rest := pushParts { redactor with pending := [] } parts
        (rest.1, safe ++ rest.2)

variable (redactor : LogRedactor α) (text : List α)

def push : LogRedactor α × List α :=
  redactor.pushParts (splitInclusive text)

def finish : List α :=
  (redactLogRecord redactor.pending).getD (written incompleteRecord)

/-- All that is given out for the chunks, one after the other, and at the end. -/
def output : LogRedactor α → List (List α) → List α
  | redactor, [] => redactor.finish
  | redactor, chunk :: chunks => (redactor.push chunk).2 ++ output (redactor.push chunk).1 chunks

/-! ## Parts of chunks -/

theorem flatten_splitInclusive : (splitInclusive text).flatten = text := by
  induction text with
  | nil => rfl
  | cons item rest ih =>
    rw [splitInclusive]
    split
    · rw [List.flatten_cons, ih]
      rfl
    · split
      · next hparts => simpa [hparts] using ih
      · next hparts => simpa [hparts] using ih

theorem ne_nil_of_mem_splitInclusive {text part : List α} (h : part ∈ splitInclusive text) :
    part ≠ [] := by
  induction text generalizing part with
  | nil => cases h
  | cons item rest ih =>
    rw [splitInclusive] at h
    split at h
    · rcases List.mem_cons.mp h with rfl | h
      · exact List.cons_ne_nil _ _
      · exact ih h
    split at h
    · rw [List.mem_singleton.mp h]
      exact List.cons_ne_nil _ _
    · next part' parts hparts =>
      rcases List.mem_cons.mp h with rfl | h
      · exact List.cons_ne_nil _ _
      · exact ih (hparts ▸ List.mem_cons_of_mem _ h)

/-- All that is given out for the parts and at the end. -/
def outputParts (parts : List (List α)) : List α :=
  (redactor.pushParts parts).2 ++ (redactor.pushParts parts).1.finish

theorem pushParts_failed {redactor : LogRedactor α} (h : redactor.failed = true)
    (parts : List (List α)) : redactor.pushParts parts = (redactor, []) := by
  cases parts with
  | nil => rfl
  | cons part parts => rw [pushParts, if_pos h]

theorem pushParts_append (first second : List (List α)) :
    redactor.pushParts (first ++ second) =
      (((redactor.pushParts first).1.pushParts second).1,
        (redactor.pushParts first).2 ++ ((redactor.pushParts first).1.pushParts second).2) := by
  induction first generalizing redactor with
  | nil => rfl
  | cons part parts ih =>
    rw [List.cons_append, pushParts, pushParts]
    split
    · next hfailed => simp [pushParts_failed hfailed]
    split
    · simp [pushParts_failed]
    · split
      · exact ih _
      · simp only [ih, List.append_assoc]

/-! ## Chunks do not matter -/

/-- A part can be cut behind a character that does not end it: the record is looked at when its last
part arrives, and the limit is passed by one of the parts if it is passed by both. -/
theorem pushParts_cut {item : α} (hitem : isLineEnd (Textual.char item) = false)
    (hrest : rest ≠ []) (redactor : LogRedactor α) (parts : List (List α)) :
    redactor.pushParts ((item :: rest) :: parts) = redactor.pushParts ([item] :: rest :: parts) := by
  obtain ⟨pending, failed⟩ := redactor
  have hbytes : byteLength (chars (pending ++ [item])) =
      byteLength (chars pending) + byteLength (chars [item]) := by
    simp [chars, byteLength]
  have hpart : byteLength (chars (item :: rest)) =
      byteLength (chars [item]) + byteLength (chars rest) := by
    simp [chars, byteLength]
  have hlast : recordComplete (item :: rest) = recordComplete rest := by
    rw [recordComplete, recordComplete, List.getLast?_cons_of_ne_nil hrest]
  have hincomplete : safeRecord (pending ++ [item]) [item] = none := by
    simp [safeRecord, recordComplete, hitem]
  have hsafe : safeRecord (pending ++ item :: rest) (item :: rest) =
      safeRecord (pending ++ [item] ++ rest) rest := by
    rw [safeRecord, safeRecord, hlast, List.append_assoc, List.singleton_append]
  cases failed with
  | true => rw [pushParts_failed rfl, pushParts_failed rfl]
  | false =>
    rw [pushParts, pushParts, hpart, hsafe, hincomplete]
    simp only [Bool.false_eq_true, if_false]
    by_cases hitemFits : logRecordLimit < byteLength (chars pending) + byteLength (chars [item])
    · rw [if_pos hitemFits, if_pos (by omega)]
    · rw [if_neg hitemFits, pushParts, hbytes, Nat.add_assoc]
      simp only [Bool.false_eq_true, if_false, List.append_assoc, List.singleton_append]

/-- Every character a part of its own. -/
def single : List (List α) := text.map fun item => [item]

theorem pushParts_splitInclusive :
    redactor.pushParts (splitInclusive text) = redactor.pushParts (single text) := by
  induction text generalizing redactor with
  | nil => rfl
  | cons item rest ih =>
    -- What stands behind the first part is pushed from the state that the first part leaves.
    have hcons : ∀ parts, redactor.pushParts ([item] :: parts) =
        ((redactor.pushParts [[item]]).1.pushParts parts |>.1,
          (redactor.pushParts [[item]]).2 ++
            ((redactor.pushParts [[item]]).1.pushParts parts).2) :=
      fun parts => pushParts_append redactor [[item]] parts
    have hsingle : single (item :: rest) = [item] :: single rest := rfl
    have htail : redactor.pushParts ([item] :: splitInclusive rest) =
        redactor.pushParts (single (item :: rest)) := by
      rw [hsingle, hcons (splitInclusive rest), hcons (single rest), ih]
    rw [splitInclusive]
    split
    · exact htail
    next hitem =>
    rw [← htail]
    cases hparts : splitInclusive rest with
    | nil => rfl
    | cons part parts =>
      refine pushParts_cut (Bool.eq_false_of_not_eq_true hitem) ?_ redactor parts
      exact ne_nil_of_mem_splitInclusive (hparts ▸ List.mem_cons_self)

/-- What is given out depends on the text alone. -/
theorem output_eq_single (chunks : List (List α)) :
    redactor.output chunks = redactor.outputParts (single chunks.flatten) := by
  induction chunks generalizing redactor with
  | nil => rfl
  | cons chunk chunks ih =>
    have hsingle : single (chunk :: chunks).flatten = single chunk ++ single chunks.flatten := by
      rw [List.flatten_cons, single, single, single, List.map_append]
    rw [output, ih, outputParts, outputParts, hsingle, pushParts_append, push,
      pushParts_splitInclusive]
    simp only [List.append_assoc]

theorem output_eq_lines (chunks : List (List α)) :
    redactor.output chunks = redactor.outputParts (splitInclusive chunks.flatten) := by
  rw [output_eq_single, outputParts, outputParts, pushParts_splitInclusive]

/-- **The output does not depend on the chunks**, below the record limit and past it. -/
theorem output_chunking (text : List Char) (first second : List (List Char))
    (hfirst : first.flatten = text) (hsecond : second.flatten = text) :
    output {} first = output {} second := by
  rw [output_eq_single, output_eq_single, hfirst, hsecond]

/-- Cut in the middle of a key, and behind its line end. -/
theorem output_chunking_split_key :
    output {} ["PASSW".toList, "ORD=a\n".toList] = output {} ["PASSWORD=a\n".toList, []] :=
  output_chunking "PASSWORD=a\n".toList _ _ rfl rfl

end LogRedactor

end DatabasesEverywhere.Utils
