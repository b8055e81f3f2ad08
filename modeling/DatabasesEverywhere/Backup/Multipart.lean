import DatabasesEverywhere.Foundations.Codes
import DatabasesEverywhere.Foundations.Result

/-!
# Backup/Multipart — a file in parts

`upload_parts` reads a file part by part and sends each of them as soon as it is read.

    file   ├─ partSize ─┼─ partSize ─┼─ … ─┼─ last ─┤  end of file
    put         0            1               n - 1
-/

open Foundations

namespace DatabasesEverywhere.Backup

def defaultMultipartPartBytes : ℕ := 16 * 1024 * 1024
def maxMultipartParts : ℕ := 10000
def mib : ℕ := 1024 * 1024

inductive BackupStoreError
  | invalidConfiguration (text : String)
  | corrupt (text : String)
  | io (operation : String)
  | remote (operation : String)
  deriving DecidableEq

/-- What the reads of a file give, one after the other: an error, or some bytes, none at its end. -/
abbrev File := List (Option Bytes)

def readError : BackupStoreError := .io "read S3 multipart upload source"

/-- One `read` into a buffer of `n` bytes. -/
def File.read (n : ℕ) : File → Except BackupStoreError (Bytes × File)
  | [] => .ok ([], [])
  | none :: _ => .error readError
  | some chunk :: file =>
    .ok (chunk.take n, if chunk.length ≤ n then file else some (chunk.drop n) :: file)

/-- `read_exact`: reads until the buffer is full. -/
def File.readExact : ℕ → File → Except BackupStoreError (Bytes × File)
  | 0, file => .ok ([], file)
  | _ + 1, [] | _ + 1, none :: _ | _ + 1, some [] :: _ => .error readError
  | n + 1, some chunk :: file =>
    if chunk.length ≤ n + 1 then do
      let (bytes, file) ← readExact (n + 1 - chunk.length) file
      return (chunk ++ bytes, file)
    else .ok (chunk.take (n + 1), some (chunk.drop (n + 1)) :: file)

/-- The bytes up to the end of the file. -/
def File.contents : File → Bytes
  | [] | none :: _ | some [] :: _ => []
  | some chunk :: file => chunk ++ contents file

def multipartPartSize (size : ℕ) : ℕ :=
  (max defaultMultipartPartBytes (size ⌈/⌉ maxMultipartParts)) ⌈/⌉ mib * mib

/-- What is left to read, and what was hashed and sent. -/
structure Upload (PartId : Type) where
  file : File
  remaining : ℕ
  hashed : Bytes := []
  parts : List PartId := []
  sent : List (ℕ × Bytes) := []

section

variable {PartId : Type} (putPart : ℕ → Bytes → Option PartId) (hex : Hex)
  (sha256 : Bytes → Bytes)

/-- The loop body of `upload_parts`. -/
def uploadPart (partSize : ℕ) (upload : Upload PartId) (index : ℕ) :
    Except BackupStoreError (Upload PartId) := do
  let length := min upload.remaining partSize
  let (bytes, file) ← upload.file.readExact length
  let some part := putPart index bytes
    | .error (.remote s!"upload multipart part {index + 1}")
  return {
    file
    remaining := upload.remaining - length
    hashed := upload.hashed ++ bytes
    parts := upload.parts ++ [part]
    sent := upload.sent ++ [(index, bytes)] }

/-- `str::trim`. -/
def trim (text : List Char) : List Char := (text.dropWhile isWhitespace).rdropWhile isWhitespace

def verifySha256 (actual : Bytes) (expected : List Char) : Except BackupStoreError PUnit :=
  require ((hex.encode actual).map Char.toLower = (trim expected).map Char.toLower)
    (.corrupt "S3 upload source does not match its recorded SHA-256")

/-- `source` is the file, if it can be opened. -/
def uploadParts (source : Except Unit File) (size : ℕ) (expected : List Char) :
    Except BackupStoreError (Upload PartId) := do
  let partSize := multipartPartSize size
  let partCount := size ⌈/⌉ partSize
  require (0 < partCount ∧ partCount ≤ maxMultipartParts)
    (.invalidConfiguration s!"S3 backup requires an unsupported {partCount}-part upload")
  let file ← source.mapError fun _ => .io "open S3 multipart upload source"
  let upload ← (List.range partCount).foldlM (uploadPart putPart partSize)
    { file, remaining := size }
  let (trailing, _) ← upload.file.read 1
  require (upload.remaining = 0 ∧ trailing = []) (.corrupt "S3 upload source changed before upload")
  verifySha256 hex (sha256 upload.hashed) expected
  return upload

/-- After `count` parts. -/
structure Upload.Tiles (putPart : ℕ → Bytes → Option PartId) (size partSize : ℕ) (file : File)
    (count : ℕ) (upload : Upload PartId) : Prop where
  numbers : upload.sent.map Prod.fst = List.range count
  lengths : ∀ part ∈ upload.sent, part.2.length = min (size - part.1 * partSize) partSize
  remaining : upload.remaining = size - count * partSize
  total : upload.hashed.length + upload.remaining = size
  read : file.contents = upload.hashed ++ upload.file.contents
  hashed : upload.hashed = (upload.sent.map Prod.snd).flatten
  parts : upload.sent.map (fun part => putPart part.1 part.2) = upload.parts.map some

end

theorem File.readExact_ok {file file' : File} {n : ℕ} {bytes : Bytes}
    (h : file.readExact n = .ok (bytes, file')) :
    bytes.length = n ∧ file.contents = bytes ++ file'.contents := by
  fun_induction File.readExact n file generalizing bytes file' with
  | case1 =>
    cases h
    exact ⟨rfl, rfl⟩
  | case2 | case3 | case4 => cases h
  | case5 n chunk file hchunk hle ih =>
    obtain ⟨⟨rest, file''⟩, hrest, h⟩ := bind_eq_ok.mp h
    cases h
    obtain ⟨hlength, hcontents⟩ := ih hrest
    rw [contents, hcontents, List.length_append, List.append_assoc]
    · exact ⟨by omega, rfl⟩
    · exact hchunk
  | case6 n chunk file hchunk hlt =>
    cases h
    have hdrop : chunk.drop (n + 1) ≠ [] := mt List.drop_eq_nil_iff.mp hlt
    rw [contents, contents, ← List.append_assoc, List.take_append_drop]
    · exact ⟨List.length_take_of_le (by omega), rfl⟩
    · exact hdrop
    · exact hchunk

theorem File.contents_of_end : ∀ {file rest : File}, file.read 1 = .ok ([], rest) →
    file.contents = []
  | [], _, _ | none :: _, _, _ | some [] :: _, _, _ => rfl

variable {PartId : Type} {putPart : ℕ → Bytes → Option PartId} {size partSize count : ℕ}
  {file : File} {upload upload' : Upload PartId}

theorem Upload.Tiles.step (h : upload.Tiles putPart size partSize file count)
    (hput : uploadPart putPart partSize upload count = .ok upload') :
    upload'.Tiles putPart size partSize file (count + 1) := by
  obtain ⟨⟨bytes, rest⟩, hread, hput⟩ := bind_eq_ok.mp hput
  obtain ⟨hlength, hcontents⟩ := File.readExact_ok hread
  cases hpart : putPart count bytes with
  | none => simp [hpart] at hput
  | some part =>
    simp only [hpart] at hput
    cases hput
    constructor
    · rw [List.map_append, h.numbers, List.range_succ]
      rfl
    · intro part' hpart'
      rcases List.mem_append.mp hpart' with hold | hnew
      · exact h.lengths part' hold
      · rw [List.mem_singleton.mp hnew, ← h.remaining]
        exact hlength
    · simp only [h.remaining, Nat.add_mul]
      omega
    · have htotal := h.total
      simp only [List.length_append]
      omega
    · rw [h.read, hcontents, List.append_assoc]
    · simp [h.hashed]
    · simp [h.parts, hpart]

theorem uploadPart_tiles : ∀ {count : ℕ} {upload : Upload PartId},
    (List.range count).foldlM (uploadPart putPart partSize) { file, remaining := size } =
      .ok upload → upload.Tiles putPart size partSize file count
  | 0, _, h => by
    cases h
    exact ⟨rfl, nofun, by simp, Nat.zero_add _, rfl, rfl, rfl⟩
  | count + 1, upload, h => by
    rw [List.range_succ, List.foldlM_append] at h
    obtain ⟨before, hbefore, h⟩ := bind_eq_ok.mp h
    obtain ⟨after, hput, h⟩ := bind_eq_ok.mp h
    cases h
    exact (uploadPart_tiles hbefore).step hput

theorem multipartPartSize_ge (size : ℕ) :
    max defaultMultipartPartBytes (size ⌈/⌉ maxMultipartParts) ≤ multipartPartSize size := by
  rw [multipartPartSize, Nat.mul_comm]
  exact le_smul_ceilDiv (by decide : 0 < mib)

/-- **The parts tile the file.**  The identifiers kept are the answers to the parts sent. -/
theorem parts_tile_file (hex : Hex) (size : ℕ) :
    (mib ∣ multipartPartSize size ∧ defaultMultipartPartBytes ≤ multipartPartSize size ∧
        size ⌈/⌉ multipartPartSize size ≤ maxMultipartParts) ∧
      ∀ (putPart : ℕ → Bytes → Option PartId) (sha256 : Bytes → Bytes) (source : Except Unit File)
        (expected : List Char) (upload : Upload PartId),
        uploadParts putPart hex sha256 source size expected = .ok upload →
        ∃ file, source = .ok file ∧
          upload.sent.map (fun part => putPart part.1 part.2) = upload.parts.map some ∧
          upload.sent.map Prod.fst = List.range (size ⌈/⌉ multipartPartSize size) ∧
          (∀ part ∈ upload.sent, part.2 ≠ [] ∧ part.2.length ≤ multipartPartSize size ∧
            (part.1 + 1 < size ⌈/⌉ multipartPartSize size →
              part.2.length = multipartPartSize size)) ∧
          (upload.sent.map Prod.snd).flatten = file.contents ∧ file.contents.length = size ∧
          (hex.encode (sha256 file.contents)).map Char.toLower =
            (trim expected).map Char.toLower := by
  have hsize := max_le_iff.mp (multipartPartSize_ge size)
  set partSize := multipartPartSize size
  set partCount := size ⌈/⌉ partSize
  have hpos : 0 < partSize := lt_of_lt_of_le (by decide) hsize.1
  have hcount : partCount ≤ maxMultipartParts := by
    rw [ceilDiv_le_iff_le_mul hpos, Nat.mul_comm]
    exact (ceilDiv_le_iff_le_mul (by decide)).mp hsize.2
  refine ⟨⟨Nat.dvd_mul_left _ _, hsize.1, hcount⟩, ?_⟩
  intro putPart sha256 source expected upload h
  simp only [uploadParts, bind_eq_ok, require_eq_ok, mapError_eq_ok, decide_eq_true_eq] at h
  obtain ⟨_, -, file, rfl, _, hloop, ⟨_, rest⟩, hread, _, ⟨hremaining, rfl⟩, _, hsha, ⟨⟩⟩ := h
  have htiles := uploadPart_tiles hloop
  have hall : upload.hashed = file.contents := by
    rw [htiles.read, File.contents_of_end hread, List.append_nil]
  refine ⟨file, rfl, htiles.parts, htiles.numbers, fun part hpart => ?_, htiles.hashed ▸ hall, ?_, ?_⟩
  · have hlt : part.1 < partCount := by
      rw [← List.mem_range, ← htiles.numbers]
      exact List.mem_map_of_mem hpart
    have hbefore : ∀ index, index < partCount ↔ index * partSize < size := fun index => by
      rw [← not_le, ceilDiv_le_iff_le_mul hpos, not_le, Nat.mul_comm]
    have hlength : part.2.length = min (size - part.1 * partSize) partSize :=
      htiles.lengths part hpart
    rw [hbefore] at hlt
    rw [hbefore, Nat.add_mul, ← List.length_pos_iff, hlength]
    omega
  · rw [← hall, ← htiles.total, hremaining, Nat.add_zero]
  · rw [← hall]
    simpa [verifySha256] using hsha

theorem File.readExact_chunk {chunk : Bytes} (hchunk : chunk ≠ []) (file : File) :
    File.readExact chunk.length (some chunk :: file) = .ok (chunk, file) := by
  obtain ⟨byte, chunk, rfl⟩ := List.exists_cons_of_ne_nil hchunk
  rw [List.length_cons, readExact, if_pos (by simp), List.length_cons, Nat.sub_self, readExact]
  · simp
  · nofun

/-- A part and one byte more: two parts. -/
theorem uploadParts_two {hex : Hex} {sha256 : Bytes → Bytes} {expected : List Char}
    {chunk : Bytes} (byte : UInt8) (hlength : chunk.length = defaultMultipartPartBytes)
    (hsha : verifySha256 hex (sha256 (chunk ++ [byte])) expected = .ok ()) :
    uploadParts (fun index _ => some index) hex sha256 (.ok [some chunk, some [byte]])
        (defaultMultipartPartBytes + 1) expected =
      .ok ⟨[], 0, chunk ++ [byte], [0, 1], [(0, chunk), (1, [byte])]⟩ := by
  have hpart : multipartPartSize (defaultMultipartPartBytes + 1) = defaultMultipartPartBytes := by
    decide +kernel
  have hcount : (defaultMultipartPartBytes + 1) ⌈/⌉ defaultMultipartPartBytes = 2 := by
    decide +kernel
  have hsecond : min 1 defaultMultipartPartBytes = 1 := by decide
  have hread := File.readExact_chunk
    (List.ne_nil_of_length_pos (lt_of_lt_of_eq (by decide) hlength.symm)) [some [byte]]
  rw [hlength] at hread
  have hrange : List.range 2 = [0, 1] := rfl
  simp [uploadParts, hpart, hcount, Except.mapError, hrange, uploadPart, hread, hsecond, hsha,
    File.readExact, File.read, require, maxMultipartParts]

/-- SHA-256 of sixteen mebibytes of sevens and an eight. -/
def exampleSha256 : Bytes :=
  bigEndian 32 0xfcb5349a9a8723060584017caea02acea1a2c34131265e6ff7169bc2a353223e

def exampleExpected : List Char :=
  "FCB5349A9A8723060584017CAEA02ACEA1A2C34131265E6FF7169BC2A353223E ".toList

def exampleFile : File := [some (List.replicate defaultMultipartPartBytes 7), some [8]]

theorem parts_tile_file_two :
    ∃ upload, uploadParts (fun index _ => some index) hexLower (fun _ => exampleSha256)
        (.ok exampleFile) (defaultMultipartPartBytes + 1) exampleExpected = .ok upload ∧
      upload.parts = [0, 1] ∧ (upload.sent.map Prod.snd).flatten = exampleFile.contents ∧
      exampleFile.contents.length = defaultMultipartPartBytes + 1 := by
  have hsha : verifySha256 hexLower exampleSha256 exampleExpected = .ok () := by decide +kernel
  have hupload := @uploadParts_two hexLower (fun _ => exampleSha256) exampleExpected
    (List.replicate defaultMultipartPartBytes 7) 8 List.length_replicate hsha
  obtain ⟨file, hfile, -, -, -, hsent, hcontents, -⟩ :=
    (parts_tile_file hexLower _).2 _ _ _ _ _ hupload
  obtain rfl : exampleFile = file := Except.ok.inj hfile
  exact ⟨_, hupload, rfl, hsent, hcontents⟩

end DatabasesEverywhere.Backup
