import DatabasesEverywhere.Databases.Protocol
import DatabasesEverywhere.Foundations.Codes
import DatabasesEverywhere.Foundations.Lists
import DatabasesEverywhere.Foundations.Result

/-!
# Placement/Manifest — what a tenant's data is compared by when it moves

    rows ──sha256──▶ words ──sums, xors──▶ DataRecord ┐ sort   ┌▶ data_sha256   ┐
                          definitions ──▶ SchemaRecord ┴──────▶ └▶ schema_sha256 ┴▶ fingerprint

Source and destination of a migration are measured under one challenge, and the manifests are
compared.  The records are sorted before they are hashed and the rows of an object are summed up, so
that the order in which the engine returns them does not matter (`measure_reordered`); the hashed
messages are sequences of fields with their lengths in front, so that they determine the records
(`schemaMessage_inj`, `dataMessage_inj`).

SHA-256 is a parameter.  No function into 32 bytes is injective; what the results ask for is that the
two messages in question do not collide.
-/

namespace DatabasesEverywhere

open Foundations

namespace Placement

def maxObjects : ℕ := 4096
def maxSchemaBytes : ℕ := 64 * 1024 * 1024
def maxRecordBytes : ℕ := 1024 * 1024
def maxObjectKeyBytes : ℕ := 4096

def manifestVersion : Bytes := ascii "dbev-tenant-integrity-v2"
def schemaVersion : Bytes := ascii "dbev-tenant-schema-v2"
def dataVersion : Bytes := ascii "dbev-tenant-data-v2"
def rowVersion : Bytes := ascii "dbev-tenant-row-v2"

/-- The errors of the manifest's own arithmetic. -/
inductive ManifestError
  | objectLimit (limit : ℕ)
  | schemaLimit (limit : ℕ)
  | invalidCatalog (message : String)
  | rowCountOverflow
  deriving DecidableEq

/-- The 32 bytes of a digest or of a challenge. -/
abbrev Bytes32 := Vector UInt8 32

/-- `SHA-256`. -/
abbrev Hash := Bytes → Bytes32

structure TenantManifest where
  challenge : Bytes32
  objectCount : UInt64
  countedObjectCount : UInt64
  rowCount : UInt64
  schemaSha256 : List Char
  dataSha256 : List Char
  fingerprintSha256 : List Char
  deriving DecidableEq

/-! ## Records -/

def validateRecord (key value : Bytes) : Except ManifestError Unit :=
  if key = [] ∨ maxObjectKeyBytes < key.length then
    .error (.invalidCatalog "invalid manifest object key")
  else if maxRecordBytes < value.length then .error (.schemaLimit maxRecordBytes)
  else .ok ()

theorem validateRecord_eq_ok {key value : Bytes} (h : validateRecord key value = .ok ()) :
    key.length ≤ maxObjectKeyBytes ∧ value.length ≤ maxRecordBytes := by
  rw [validateRecord] at h
  split at h
  · cases h
  · next hkey =>
    split at h
    · cases h
    · next hvalue => exact ⟨Nat.le_of_not_lt fun hlt => hkey (.inr hlt), Nat.le_of_not_lt hvalue⟩

/-- A definition of the catalog; there is none that `SchemaRecord::new` refuses. -/
@[ext] structure SchemaRecord where
  key : Bytes
  value : Bytes
  valid : validateRecord key value = .ok ()
  deriving DecidableEq

/-- The rows of an object, summed up. -/
@[ext] structure MultisetDigest where
  count : UInt64
  sums : Vector UInt64 4
  xors : Vector UInt64 4
  deriving DecidableEq

@[ext] structure DataRecord where
  key : Bytes
  digest : MultisetDigest
  valid : validateRecord key [] = .ok ()
  deriving DecidableEq

structure CollectedManifest where
  schema : List SchemaRecord := []
  data : List DataRecord := []

namespace CollectedManifest

variable (collected : CollectedManifest)

def pushSchema (record : SchemaRecord) : Except ManifestError CollectedManifest :=
  if maxObjects ≤ collected.schema.length then .error (.objectLimit maxObjects)
  else .ok { collected with schema := collected.schema ++ [record] }

def pushData (record : DataRecord) : Except ManifestError CollectedManifest :=
  if maxObjects ≤ collected.data.length then .error (.objectLimit maxObjects)
  else .ok { collected with data := collected.data ++ [record] }

end CollectedManifest

/-! ## Keys -/

/-- A `str` of the source: no longer than an allocation can be. -/
abbrev Str := { text : Text // text.bytes.length < 2 ^ 63 }

def pushKeyPart (key value : Bytes) : Bytes := key ++ lengthPrefixed value

def objectKey (kind : Str) (parts : List Str) : Bytes :=
  parts.foldl (fun key part => pushKeyPart key part.val.bytes) (pushKeyPart [] kind.val.bytes)

/-! ## Rows -/

/-- `MultisetAccumulator` has the fields of the digest it ends as. -/
abbrev MultisetAccumulator := MultisetDigest

def hashField (value : Bytes) : Bytes := lengthPrefixed value

/-- The digest as four big-endian words. -/
def words (digest : Bytes32) : Vector UInt64 4 :=
  Vector.ofFn fun index => UInt64.ofNat (fromBigEndian ((digest.toList.drop (8 * index)).take 8))

namespace MultisetAccumulator

def new : MultisetAccumulator :=
  { count := 0, sums := Vector.replicate 4 0, xors := Vector.replicate 4 0 }

/-- One more row; its words are added and xored into the sums, each word for itself. -/
def addWords (accumulator : MultisetAccumulator) (row : Vector UInt64 4) : MultisetAccumulator :=
  { count := accumulator.count + 1
    sums := Vector.zipWith (· + ·) accumulator.sums row
    xors := Vector.zipWith (· ^^^ ·) accumulator.xors row }

def rowMessage (challenge : Bytes32) (objectKey value : Bytes) : Bytes :=
  rowVersion ++ challenge.toList ++ hashField objectKey ++ hashField value

def add (sha256 : Hash) (challenge : Bytes32) (objectKey : Bytes)
    (accumulator : MultisetAccumulator) (value : Bytes) :
    Except ManifestError MultisetAccumulator :=
  if accumulator.count.toNat + 1 < 2 ^ 64 then
    .ok (accumulator.addWords (words (sha256 (rowMessage challenge objectKey value))))
  else
    .error .rowCountOverflow

end MultisetAccumulator

/-- An object and its rows, in the order in which the engine returned them. -/
structure Table where
  key : Bytes
  rows : List Bytes
  valid : validateRecord key [] = .ok ()

variable (hex : Hex) (sha256 : Hash) (challenge : Bytes32)

/-- The rows added one after the other. -/
def Table.record (table : Table) : Except ManifestError DataRecord := do
  let digest ← table.rows.foldlM (MultisetAccumulator.add sha256 challenge table.key)
    MultisetAccumulator.new
  return { key := table.key, digest, valid := table.valid }

/-! ## The manifest -/

/-- Derived order: the fields one after the other, byte strings lexicographically. -/
def SchemaRecord.order (record : SchemaRecord) : List ℕ ×ₗ List ℕ :=
  toLex (record.key.map UInt8.toNat, record.value.map UInt8.toNat)

def DataRecord.order (record : DataRecord) : List ℕ ×ₗ ℕ ×ₗ List ℕ ×ₗ List ℕ :=
  toLex (record.key.map UInt8.toNat, toLex (record.digest.count.toNat,
    toLex (record.digest.sums.toList.map UInt64.toNat, record.digest.xors.toList.map UInt64.toNat)))

variable (protocol : Protocol) (schema : List SchemaRecord)

def sortSchema : List SchemaRecord :=
  schema.insertionSort fun a b => a.order ≤ b.order

variable (data : List DataRecord)

def sortData : List DataRecord :=
  data.insertionSort fun a b => a.order ≤ b.order

def rejectDuplicateKeys (seen : List Bytes) : List Bytes → Except ManifestError Unit
  | [] => .ok ()
  | key :: keys =>
    if seen.contains key then .error (.invalidCatalog "duplicate manifest object key")
    else rejectDuplicateKeys (key :: seen) keys

def checkSchemaSize : Except ManifestError Unit := do
  let schemaBytes ← schema.foldlM (fun total record =>
    if total + record.key.length + record.value.length < 2 ^ 64 then
      .ok (total + record.key.length + record.value.length)
    else
      .error (.schemaLimit maxSchemaBytes)) 0
  if maxSchemaBytes < schemaBytes then .error (.schemaLimit maxSchemaBytes) else .ok ()

def SchemaRecord.fields (record : SchemaRecord) : Bytes :=
  hashField record.key ++ hashField record.value

/-- What is hashed for `schema_sha256`. -/
def schemaMessage : Bytes :=
  schemaVersion ++ hashField protocol.asStr ++ bigEndian 8 schema.length ++
    schema.flatMap SchemaRecord.fields

def wordBytes (word : UInt64) : Bytes := bigEndian 8 word.toNat

def MultisetDigest.fields (digest : MultisetDigest) : Bytes :=
  wordBytes digest.count ++ digest.sums.toList.flatMap wordBytes ++
    digest.xors.toList.flatMap wordBytes

def DataRecord.fields (record : DataRecord) : Bytes :=
  hashField record.key ++ record.digest.fields

/-- What is hashed for `data_sha256`. -/
def dataMessage (challenge : Bytes32) (data : List DataRecord) : Bytes :=
  dataVersion ++ hashField protocol.asStr ++ challenge.toList ++ bigEndian 8 data.length ++
    data.flatMap DataRecord.fields

def rowCount : Except ManifestError ℕ :=
  data.foldlM (fun total record =>
    if total + record.digest.count.toNat < 2 ^ 64 then .ok (total + record.digest.count.toNat)
    else .error .rowCountOverflow) 0

def dataDigest (challenge : Bytes32) (data : List DataRecord)
    : Except ManifestError (ℕ × Bytes32) := do
  let count ← rowCount data
  return (count, sha256 (dataMessage protocol challenge data))

def fingerprintMessage (challenge schema data : Bytes32) : Bytes :=
  manifestVersion ++ hashField protocol.asStr ++ challenge.toList ++ schema.toList ++ data.toList

def finish (hex : Hex) (sha256 : Hash) (protocol : Protocol) (challenge : Bytes32)
    (collected : CollectedManifest) : Except ManifestError TenantManifest := do
  let schema := sortSchema collected.schema
  let data := sortData collected.data
  rejectDuplicateKeys [] (schema.map SchemaRecord.key)
  rejectDuplicateKeys [] (data.map DataRecord.key)
  checkSchemaSize schema
  let schemaDigest := sha256 (schemaMessage protocol schema)
  let (count, digest) ← dataDigest sha256 protocol challenge data
  return {
    challenge
    objectCount := UInt64.ofNat schema.length
    countedObjectCount := UInt64.ofNat data.length
    rowCount := UInt64.ofNat count
    schemaSha256 := hex.encode schemaDigest.toList
    dataSha256 := hex.encode digest.toList
    fingerprintSha256 :=
      hex.encode (sha256 (fingerprintMessage protocol challenge schemaDigest digest)).toList }

/-- The records of definitions and tables, collected and finished. -/
def measure (challenge : Bytes32) (definitions : List SchemaRecord) (tables : List Table) :
    Except ManifestError TenantManifest := do
  let collected ← definitions.foldlM CollectedManifest.pushSchema {}
  let collected ← tables.foldlM (fun collected table => do
    let record ← table.record sha256 challenge
    collected.pushData record) collected
  finish hex sha256 protocol challenge collected

/-! ## Order does not matter -/

theorem map_toNat_injective : Function.Injective (List.map UInt8.toNat) :=
  List.map_injective_iff.mpr fun _ _ => UInt8.toNat_inj.mp

theorem words_toNat_injective : Function.Injective (List.map UInt64.toNat) :=
  List.map_injective_iff.mpr fun _ _ => UInt64.toNat_inj.mp

theorem SchemaRecord.order_injective : Function.Injective SchemaRecord.order := by
  intro a b h
  obtain ⟨hkey, hvalue⟩ := Prod.mk.inj (toLex_inj.mp h)
  exact SchemaRecord.ext (map_toNat_injective hkey) (map_toNat_injective hvalue)

theorem DataRecord.order_injective : Function.Injective DataRecord.order := by
  intro a b h
  obtain ⟨hkey, hdigest⟩ := Prod.mk.inj (toLex_inj.mp h)
  obtain ⟨hcount, hwords⟩ := Prod.mk.inj (toLex_inj.mp hdigest)
  obtain ⟨hsums, hxors⟩ := Prod.mk.inj (toLex_inj.mp hwords)
  exact DataRecord.ext (map_toNat_injective hkey)
    (MultisetDigest.ext (UInt64.toNat_inj.mp hcount)
      (Vector.toList_inj.mp (words_toNat_injective hsums))
      (Vector.toList_inj.mp (words_toNat_injective hxors)))

theorem sortSchema_perm : (sortSchema schema).Perm schema :=
  List.perm_insertionSort _ _

theorem sortData_perm : (sortData data).Perm data :=
  List.perm_insertionSort _ _

theorem finish_reordered (challenge : Bytes32)
    {first second : CollectedManifest} (hschema : first.schema.Perm second.schema)
    (hdata : first.data.Perm second.data) :
    finish hex sha256 protocol challenge first = finish hex sha256 protocol challenge second := by
  have hsortedSchema : sortSchema first.schema = sortSchema second.schema :=
    insertionSort_eq_of_perm SchemaRecord.order_injective hschema
  have hsortedData : sortData first.data = sortData second.data :=
    insertionSort_eq_of_perm DataRecord.order_injective hdata
  rw [finish, finish, hsortedSchema, hsortedData]

namespace MultisetAccumulator

theorem addWords_comm (accumulator : MultisetAccumulator) (a b : Vector UInt64 4) :
    addWords (addWords accumulator a) b = addWords (addWords accumulator b) a := by
  apply MultisetDigest.ext
  · rfl
  · apply Vector.ext
    intro i hi
    simp only [addWords, Vector.getElem_zipWith, UInt64.add_assoc]
    rw [UInt64.add_comm a[i]]
  · apply Vector.ext
    intro i hi
    simp only [addWords, Vector.getElem_zipWith, UInt64.xor_assoc]
    rw [UInt64.xor_comm a[i]]

/-- Two rows are added in either order. -/
theorem add_comm (key : Bytes) (accumulator : MultisetAccumulator) (a b : Bytes) :
    (add sha256 challenge key accumulator a >>= fun next => add sha256 challenge key next b) =
      (add sha256 challenge key accumulator b >>= fun next => add sha256 challenge key next a) := by
  by_cases hcount : accumulator.count.toNat + 1 < 2 ^ 64
  · by_cases hnext : (accumulator.count + 1).toNat + 1 < 2 ^ 64
    · have hrow : ∀ row, (addWords accumulator row).count.toNat + 1 < 2 ^ 64 := fun _ => hnext
      simp only [add, if_pos hcount, ok_bind, if_pos (hrow _)]
      rw [addWords_comm]
    · have hrow : ∀ row, ¬ (addWords accumulator row).count.toNat + 1 < 2 ^ 64 := fun _ => hnext
      simp only [add, if_pos hcount, ok_bind, if_neg (hrow _)]
  · simp only [add, if_neg hcount, error_bind]

end MultisetAccumulator

/-- The same object with its rows in another order. -/
structure Table.SameRows (first second : Table) : Prop where
  key : first.key = second.key
  rows : first.rows.Perm second.rows

theorem Table.SameRows.record {first second : Table} (h : first.SameRows second) (sha256 : Hash)
    (challenge : Bytes32) : first.record sha256 challenge = second.record sha256 challenge := by
  obtain ⟨key, rows, valid⟩ := first
  obtain ⟨_, rows', _⟩ := second
  obtain ⟨rfl, hrows⟩ := h
  simp only [Table.record]
  rw [foldlM_eq_of_perm (MultisetAccumulator.add_comm sha256 challenge key) hrows]

/-- The same objects in another order, with their rows in another order. -/
def Reordered (first second : List Table) : Prop :=
  ∃ middle, first.Perm middle ∧ List.Forall₂ Table.SameRows middle second

/-- The records of the tables. -/
def Records : List Table → List DataRecord → Prop :=
  List.Forall₂ fun table record => table.record sha256 challenge = .ok record

theorem foldlM_pushSchema (collected : CollectedManifest) (definitions : List SchemaRecord)
    (hbound : collected.schema.length ≤ maxObjects) :
    definitions.foldlM CollectedManifest.pushSchema collected =
      if collected.schema.length + definitions.length ≤ maxObjects then
        .ok { collected with schema := collected.schema ++ definitions }
      else
        .error (.objectLimit maxObjects) := by
  induction definitions generalizing collected with
  | nil =>
    rw [if_pos (by simpa using hbound), List.append_nil]
    rfl
  | cons record definitions ih =>
    rw [List.foldlM_cons, CollectedManifest.pushSchema, List.length_cons]
    split
    · rw [if_neg (by omega)]
      rfl
    · rw [ok_bind, ih _ (by simp only [List.length_append, List.length_singleton]; omega)]
      simp only [List.length_append, List.length_singleton, List.append_assoc,
        List.singleton_append]
      rw [Nat.add_assoc, Nat.add_comm 1]

theorem foldlM_pushData (sha256 : Hash) (challenge : Bytes32) (tables : List Table)
    (collected result : CollectedManifest) (hbound : collected.data.length ≤ maxObjects) :
    tables.foldlM (fun collected table => do
        let record ← table.record sha256 challenge
        collected.pushData record) collected = .ok result ↔
      ∃ records, Records sha256 challenge tables records ∧
        collected.data.length + records.length ≤ maxObjects ∧
        result = { collected with data := collected.data ++ records } := by
  induction tables generalizing collected with
  | nil =>
    constructor
    · intro h
      cases h
      exact ⟨[], .nil, by simpa using hbound, by simp⟩
    · rintro ⟨records, hrecords, -, rfl⟩
      cases hrecords
      simp only [List.foldlM_nil, List.append_nil]
      rfl
  | cons table tables ih =>
    rw [List.foldlM_cons, bind_eq_ok]
    constructor
    · rintro ⟨next, hnext, hrest⟩
      obtain ⟨record, hrecord, hpush⟩ := bind_eq_ok.mp hnext
      rw [CollectedManifest.pushData] at hpush
      split at hpush
      · cases hpush
      cases hpush
      have hnext : (collected.data ++ [record]).length ≤ maxObjects := by
        rw [List.length_append, List.length_singleton]
        omega
      obtain ⟨records, hrecords, hlength, rfl⟩ := (ih _ hnext).mp hrest
      rw [List.length_append, List.length_singleton] at hlength
      refine ⟨record :: records, .cons hrecord hrecords, ?_, by simp⟩
      rw [List.length_cons]
      omega
    · rintro ⟨records, hrecords, hlength, rfl⟩
      cases hrecords with
      | cons hrecord hrecords =>
        rename_i record records
        rw [List.length_cons] at hlength
        refine ⟨{ collected with data := collected.data ++ [record] }, ?_, ?_⟩
        · rw [hrecord, ok_bind, CollectedManifest.pushData, if_neg (by omega)]
        have hnext : (collected.data ++ [record]).length ≤ maxObjects := by
          rw [List.length_append, List.length_singleton]
          omega
        refine (ih _ hnext).mpr ⟨records, hrecords, ?_, by simp⟩
        rw [List.length_append, List.length_singleton]
        omega

variable {hex} {sha256} {protocol} {challenge} {definitions : List SchemaRecord}
  {manifest : TenantManifest}

theorem measure_eq_ok {tables : List Table} :
    measure hex sha256 protocol challenge definitions tables = .ok manifest ↔
      definitions.length ≤ maxObjects ∧
        ∃ records, Records sha256 challenge tables records ∧ records.length ≤ maxObjects ∧
          finish hex sha256 protocol challenge { schema := definitions, data := records } =
            .ok manifest := by
  rw [measure, foldlM_pushSchema {} definitions (Nat.zero_le _)]
  simp only [List.length_nil, Nat.zero_add, List.nil_append]
  split
  swap
  · next hlength =>
    constructor
    · exact fun h => by cases h
    · exact fun h => absurd h.1 hlength
  next hlength =>
  rw [ok_bind, bind_eq_ok]
  simp only [fun result => foldlM_pushData sha256 challenge tables
    { schema := definitions } result (Nat.zero_le _)]
  constructor
  · rintro ⟨_, ⟨records, hrecords, hbound, rfl⟩, hfinish⟩
    exact ⟨hlength, records, hrecords, by simpa using hbound, hfinish⟩
  · rintro ⟨-, records, hrecords, hbound, hfinish⟩
    exact ⟨_, ⟨records, hrecords, by simpa using hbound, rfl⟩, hfinish⟩

theorem Reordered.records {first second : List Table}
    (h : Reordered first second) {records : List DataRecord} :
    (Records sha256 challenge first records → ∃ others, Records sha256 challenge second others ∧
        others.Perm records) ∧
      (Records sha256 challenge second records → ∃ others, Records sha256 challenge first others ∧
        others.Perm records) := by
  obtain ⟨middle, hperm, hsame⟩ := h
  have hmiddle : ∀ others, Records sha256 challenge middle others ↔
      Records sha256 challenge second others := by
    clear hperm
    induction hsame with
    | nil => exact fun _ => Iff.rfl
    | cons hrows _ ih =>
      intro others
      cases others with
      | nil => simp [Records]
      | cons record others =>
        rw [Records, List.forall₂_cons, List.forall₂_cons, hrows.record]
        exact and_congr_right fun _ => ih others
  constructor
  · intro hrecords
    obtain ⟨others, hothers, hothersPerm⟩ := List.perm_comp_forall₂ hperm.symm hrecords
    exact ⟨others, (hmiddle others).mp hothers, hothersPerm⟩
  · intro hrecords
    obtain ⟨others, hothers, hothersPerm⟩ :=
      List.perm_comp_forall₂ hperm ((hmiddle records).mpr hrecords)
    exact ⟨others, hothers, hothersPerm⟩

/-- **The manifest does not depend on the order of records and rows.** -/
theorem measure_reordered {definitions' : List SchemaRecord} {tables tables' : List Table}
    (hdefinitions : definitions.Perm definitions') (htables : Reordered tables tables')
    (manifest : TenantManifest) :
    measure hex sha256 protocol challenge definitions tables = .ok manifest ↔
      measure hex sha256 protocol challenge definitions' tables' = .ok manifest := by
  rw [measure_eq_ok, measure_eq_ok, hdefinitions.length_eq]
  refine and_congr_right fun _ => ?_
  constructor
  · rintro ⟨records, hrecords, hlength, hfinish⟩
    obtain ⟨others, hothers, hperm⟩ := htables.records.1 hrecords
    refine ⟨others, hothers, by rwa [hperm.length_eq], ?_⟩
    rw [← hfinish]
    exact finish_reordered _ _ _ _ hdefinitions.symm hperm
  · rintro ⟨records, hrecords, hlength, hfinish⟩
    obtain ⟨others, hothers, hperm⟩ := htables.records.2 hrecords
    refine ⟨others, hothers, by rwa [hperm.length_eq], ?_⟩
    rw [← hfinish]
    exact finish_reordered _ _ _ _ hdefinitions hperm

/-! ## Messages determine what they are made of -/

theorem SchemaRecord.selfDelimiting_fields : SelfDelimiting SchemaRecord.fields := by
  intro a b x y h
  obtain ⟨hakey, havalue⟩ := validateRecord_eq_ok a.valid
  obtain ⟨hbkey, hbvalue⟩ := validateRecord_eq_ok b.valid
  simp only [maxObjectKeyBytes, maxRecordBytes] at hakey havalue hbkey hbvalue
  simp only [SchemaRecord.fields, hashField, List.append_assoc] at h
  obtain ⟨hkey, h⟩ := lengthPrefixed_append_inj (by omega) (by omega) h
  obtain ⟨hvalue, hrest⟩ := lengthPrefixed_append_inj (by omega) (by omega) h
  exact ⟨SchemaRecord.ext hkey hvalue, hrest⟩

theorem selfDelimiting_wordBytes : SelfDelimiting wordBytes := by
  apply selfDelimiting_of_length (n := 8) fun word => length_bigEndian 8 _
  intro a b h
  have ha : a.toNat < 256 ^ 8 := a.toNat_lt
  have hb : b.toNat < 256 ^ 8 := b.toNat_lt
  exact UInt64.toNat_inj.mp (bigEndian_inj ha hb h)

theorem wordBytes_ne_nil (word : UInt64) : wordBytes word ≠ [] := by
  intro h
  have hlength := congrArg List.length h
  rw [wordBytes, length_bigEndian] at hlength
  cases hlength

theorem length_wordsBytes (vector : Vector UInt64 4) :
    (vector.toList.flatMap wordBytes).length = 32 := by
  rw [List.length_flatMap, List.map_congr_left fun word _ => length_bigEndian 8 word.toNat]
  simp

theorem MultisetDigest.selfDelimiting_fields : SelfDelimiting MultisetDigest.fields := by
  intro a b x y h
  simp only [MultisetDigest.fields, List.append_assoc] at h
  obtain ⟨hcount, h⟩ := selfDelimiting_wordBytes h
  obtain ⟨hsums, h⟩ := List.append_inj h (by rw [length_wordsBytes, length_wordsBytes])
  obtain ⟨hxors, hrest⟩ := List.append_inj h (by rw [length_wordsBytes, length_wordsBytes])
  have hwords := selfDelimiting_wordBytes.flatMap_injective wordBytes_ne_nil
  exact ⟨MultisetDigest.ext hcount (Vector.toList_inj.mp (hwords hsums))
    (Vector.toList_inj.mp (hwords hxors)), hrest⟩

theorem DataRecord.selfDelimiting_fields : SelfDelimiting DataRecord.fields := by
  intro a b x y h
  have ha := (validateRecord_eq_ok a.valid).1
  have hb := (validateRecord_eq_ok b.valid).1
  simp only [maxObjectKeyBytes] at ha hb
  simp only [DataRecord.fields, hashField, List.append_assoc] at h
  obtain ⟨hkey, h⟩ := lengthPrefixed_append_inj (by omega) (by omega) h
  obtain ⟨hdigest, hrest⟩ := MultisetDigest.selfDelimiting_fields h
  exact ⟨DataRecord.ext hkey hdigest, hrest⟩

variable {protocol' : Protocol}

theorem schemaMessage_inj {schema schema' : List SchemaRecord}
    (h : schemaMessage protocol schema = schemaMessage protocol' schema') :
    protocol = protocol' ∧ schema = schema' := by
  simp only [schemaMessage, hashField, List.append_assoc, List.append_cancel_left_eq] at h
  obtain ⟨hprotocol, h⟩ := lengthPrefixed_append_inj (Protocol.length_asStr_lt _)
    (Protocol.length_asStr_lt _) h
  obtain ⟨-, h⟩ := List.append_inj h (by simp)
  have hfields := SchemaRecord.selfDelimiting_fields.flatMap_injective fun record hnil =>
    lengthPrefixed_ne_nil _ (List.append_eq_nil_iff.mp hnil).1
  exact ⟨Protocol.asStr_injective hprotocol, hfields h⟩

variable {challenge' : Bytes32}

theorem dataMessage_inj {data data' : List DataRecord}
    (h : dataMessage protocol challenge data = dataMessage protocol' challenge' data') :
    protocol = protocol' ∧ challenge = challenge' ∧ data = data' := by
  simp only [dataMessage, hashField, List.append_assoc, List.append_cancel_left_eq] at h
  obtain ⟨hprotocol, h⟩ := lengthPrefixed_append_inj (Protocol.length_asStr_lt _)
    (Protocol.length_asStr_lt _) h
  obtain ⟨hchallenge, h⟩ := List.append_inj h (by simp)
  obtain ⟨-, h⟩ := List.append_inj h (by simp)
  have hfields := DataRecord.selfDelimiting_fields.flatMap_injective fun record hnil =>
    lengthPrefixed_ne_nil _ (List.append_eq_nil_iff.mp hnil).1
  exact ⟨Protocol.asStr_injective hprotocol, Vector.toList_inj.mp hchallenge, hfields h⟩

theorem objectKey_eq (kind : Str) (parts : List Str) :
    objectKey kind parts = lengthPrefixed kind.val.bytes ++
      parts.flatMap fun part => lengthPrefixed part.val.bytes := by
  have hfold : ∀ (key : Bytes) (parts : List Str),
      parts.foldl (fun key part => pushKeyPart key part.val.bytes) key =
        key ++ parts.flatMap fun part => lengthPrefixed part.val.bytes := by
    intro key parts
    induction parts generalizing key with
    | nil => simp
    | cons part parts ih =>
      rw [List.foldl_cons, ih, pushKeyPart, List.flatMap_cons, List.append_assoc]
  rw [objectKey, hfold]
  rfl

theorem selfDelimiting_str : SelfDelimiting fun part : Str => lengthPrefixed part.val.bytes := by
  intro a b x y h
  obtain ⟨hbytes, hrest⟩ := lengthPrefixed_append_inj (by omega) (by omega) h
  exact ⟨Subtype.ext (Text.ext hbytes), hrest⟩

/-- A key is made of one kind and one list of parts. -/
theorem objectKey_inj {kind kind' : Str} {parts parts' : List Str}
    (h : objectKey kind parts = objectKey kind' parts') : kind = kind' ∧ parts = parts' := by
  rw [objectKey_eq, objectKey_eq] at h
  obtain ⟨hkind, hparts⟩ := selfDelimiting_str h
  exact ⟨hkind, selfDelimiting_str.flatMap_injective (fun _ => lengthPrefixed_ne_nil _) hparts⟩

/-! ## What a manifest says about the data -/

theorem finish_eq_ok {collected : CollectedManifest}
    (h : finish hex sha256 protocol challenge collected = .ok manifest) :
    manifest.schemaSha256 =
        hex.encode (sha256 (schemaMessage protocol (sortSchema collected.schema))).toList ∧
      manifest.dataSha256 =
        hex.encode (sha256 (dataMessage protocol challenge (sortData collected.data))).toList := by
  obtain ⟨_, -, h⟩ := bind_eq_ok.mp h
  obtain ⟨_, -, h⟩ := bind_eq_ok.mp h
  obtain ⟨_, -, h⟩ := bind_eq_ok.mp h
  obtain ⟨⟨count, digest⟩, hdata, h⟩ := bind_eq_ok.mp h
  obtain ⟨_, -, hdata⟩ := bind_eq_ok.mp hdata
  cases hdata
  cases h
  exact ⟨rfl, rfl⟩

section Identified

variable
  {collected collected' : CollectedManifest} {manifest' : TenantManifest}

variable (h : finish hex sha256 protocol challenge collected = .ok manifest)
include h

variable (h' : finish hex sha256 protocol' challenge' collected' = .ok manifest')
include h'

/-- Equal digests of the schema are digests of the same definitions. -/
theorem same_schema_of_schemaSha256
    (hcollision : sha256 (schemaMessage protocol (sortSchema collected.schema)) =
        sha256 (schemaMessage protocol' (sortSchema collected'.schema)) →
      schemaMessage protocol (sortSchema collected.schema) =
        schemaMessage protocol' (sortSchema collected'.schema))
    (heq : manifest.schemaSha256 = manifest'.schemaSha256) :
    protocol = protocol' ∧ collected.schema.Perm collected'.schema := by
  rw [(finish_eq_ok h).1, (finish_eq_ok h').1] at heq
  obtain ⟨hprotocol, hsorted⟩ :=
    schemaMessage_inj (hcollision (Vector.toList_inj.mp (hex.encode_injective heq)))
  refine ⟨hprotocol, (sortSchema_perm _).symm.trans ?_⟩
  rw [hsorted]
  exact sortSchema_perm _

/-- Equal digests of the data are digests of the same records under the same challenge. -/
theorem same_data_of_dataSha256
    (hcollision : sha256 (dataMessage protocol challenge (sortData collected.data)) =
        sha256 (dataMessage protocol' challenge' (sortData collected'.data)) →
      dataMessage protocol challenge (sortData collected.data) =
        dataMessage protocol' challenge' (sortData collected'.data))
    (heq : manifest.dataSha256 = manifest'.dataSha256) :
    protocol = protocol' ∧ challenge = challenge' ∧ collected.data.Perm collected'.data := by
  rw [(finish_eq_ok h).2, (finish_eq_ok h').2] at heq
  obtain ⟨hprotocol, hchallenge, hsorted⟩ :=
    dataMessage_inj (hcollision (Vector.toList_inj.mp (hex.encode_injective heq)))
  refine ⟨hprotocol, hchallenge, (sortData_perm _).symm.trans ?_⟩
  rw [hsorted]
  exact sortData_perm _

end Identified

/-- What comparing manifests is for.  The order of records and rows does not change a manifest;
equal digests are those of equal records, unless the two messages hashed collide. -/
structure IdentifiesData (hex : Hex) (sha256 : Hash) : Prop where
  reordered : ∀ (protocol : Protocol) (challenge : Bytes32)
    (definitions definitions' : List SchemaRecord) (tables tables' : List Table),
    definitions.Perm definitions' → Reordered tables tables' → ∀ manifest,
      measure hex sha256 protocol challenge definitions tables = .ok manifest ↔
        measure hex sha256 protocol challenge definitions' tables' = .ok manifest
  schema : ∀ (protocol protocol' : Protocol) (challenge challenge' : Bytes32)
    (collected collected' : CollectedManifest) (manifest manifest' : TenantManifest),
    finish hex sha256 protocol challenge collected = .ok manifest →
    finish hex sha256 protocol' challenge' collected' = .ok manifest' →
    Set.InjOn sha256 {schemaMessage protocol (sortSchema collected.schema),
      schemaMessage protocol' (sortSchema collected'.schema)} →
    manifest.schemaSha256 = manifest'.schemaSha256 →
    protocol = protocol' ∧ collected.schema.Perm collected'.schema
  data : ∀ (protocol protocol' : Protocol) (challenge challenge' : Bytes32)
    (collected collected' : CollectedManifest) (manifest manifest' : TenantManifest),
    finish hex sha256 protocol challenge collected = .ok manifest →
    finish hex sha256 protocol' challenge' collected' = .ok manifest' →
    Set.InjOn sha256 {dataMessage protocol challenge (sortData collected.data),
      dataMessage protocol' challenge' (sortData collected'.data)} →
    manifest.dataSha256 = manifest'.dataSha256 →
    protocol = protocol' ∧ challenge = challenge' ∧ collected.data.Perm collected'.data
  objectKey : ∀ (kind kind' : Str) (parts parts' : List Str),
    Placement.objectKey kind parts = Placement.objectKey kind' parts' →
    kind = kind' ∧ parts = parts'

/-- **The manifest identifies the data**, whatever the hash function. -/
theorem identifiesData (hex : Hex) (sha256 : Hash) : IdentifiesData hex sha256 where
  reordered _ _ _ _ _ _ hdefinitions htables := measure_reordered hdefinitions htables
  schema _ _ _ _ _ _ _ _ h h' hcollision heq :=
    same_schema_of_schemaSha256 h h' (hcollision (.inl rfl) (.inr rfl)) heq
  data _ _ _ _ _ _ _ _ h h' hcollision heq :=
    same_data_of_dataSha256 h h' (hcollision (.inl rfl) (.inr rfl)) heq
  objectKey _ _ _ _ h := objectKey_inj h

def exampleChallenge : Bytes32 := Vector.replicate 32 7

/-- Two rows. -/
def exampleRecord : DataRecord where
  key := [5]
  digest.count := 2
  digest.sums := #v[0xc377c354aadd6eab, 0x2d24cdd408275285,
      0xd64db3d17fa4f877, 0x39a6dcc4421aff5c]
  digest.xors := #v[0x3b6720530a1250ab, 0xc2da8dabc7972d75,
      0x8509ab8e7044f707, 0xb814823bb1e4f898]
  valid := rfl

/-- The second of them is gone. -/
def changedRecord : DataRecord where
  key := [5]
  digest.count := 1
  digest.sums := #v[0xdd6f7180d0658f89, 0x37b724b4674d12a9,
      0x29ab06abc7b493b8, 0x40c9af6c483b8362]
  digest.xors := #v[0xdd6f7180d0658f89, 0x37b724b4674d12a9,
      0x29ab06abc7b493b8, 0x40c9af6c483b8362]
  valid := rfl

def exampleSchema : List SchemaRecord := [⟨[1], [2], rfl⟩, ⟨[3], [4], rfl⟩]

def changedSchema : List SchemaRecord := [⟨[1], [2], rfl⟩, ⟨[3], [9], rfl⟩]

def bytes32 (n : ℕ) : Bytes32 := ⟨(bigEndian 32 n).toArray, by simp⟩

def exampleSchemaSha256 : ℕ := 0x7824abb8ca84e054c22e6ef30903515c7af0efb2f8e3afd6717f8e321f08da1f
def exampleDataSha256 : ℕ := 0x549aa27de4d22c69fc04ead52d7267ff541f9550330639eb329d43916d0be66e
def changedSchemaSha256 : ℕ := 0xafcc1a53b16dbdad8bc3366f65e50fbc93baaa20791ad61043f81d78209d10c5
def changedDataSha256 : ℕ := 0xa3baf0e0d539c8399a65d07fe1a555c919be4c27492bd2e6fe68cea5649ec81d

/-- SHA-256 on the messages of the examples. -/
def exampleSha256 : Hash := fun bytes => bytes32 ((List.lookup bytes [
  (MultisetAccumulator.rowMessage exampleChallenge [5] [6],
    0xdd6f7180d0658f8937b724b4674d12a929ab06abc7b493b840c9af6c483b8362),
  (MultisetAccumulator.rowMessage exampleChallenge [5] [6, 7],
    0xe60851d3da77df22f56da91fa0da3fdcaca2ad25b7f064bff8dd2d57f9df7bfa),
  (schemaMessage .mysql exampleSchema, exampleSchemaSha256),
  (dataMessage .mysql exampleChallenge [exampleRecord], exampleDataSha256),
  (fingerprintMessage .mysql exampleChallenge (bytes32 exampleSchemaSha256)
    (bytes32 exampleDataSha256),
    0x2a41d0750f45a042c1beb75c939bae69ce0fd649101af32072247d514489fa9c),
  (schemaMessage .mysql changedSchema, changedSchemaSha256),
  (dataMessage .mysql exampleChallenge [changedRecord], changedDataSha256),
  (fingerprintMessage .mysql exampleChallenge (bytes32 changedSchemaSha256)
    (bytes32 changedDataSha256),
    0x7ba76aa6a0b10598d2fa6a02d70a3daff91eb63714bd6aebcf51ccfc5d6baadc)]).getD 0)

def exampleManifest : TenantManifest where
  challenge := exampleChallenge
  objectCount := 2
  countedObjectCount := 1
  rowCount := 2
  schemaSha256 := "7824abb8ca84e054c22e6ef30903515c7af0efb2f8e3afd6717f8e321f08da1f".toList
  dataSha256 := "549aa27de4d22c69fc04ead52d7267ff541f9550330639eb329d43916d0be66e".toList
  fingerprintSha256 := "2a41d0750f45a042c1beb75c939bae69ce0fd649101af32072247d514489fa9c".toList

def changedManifest : TenantManifest where
  challenge := exampleChallenge
  objectCount := 2
  countedObjectCount := 1
  rowCount := 1
  schemaSha256 := "afcc1a53b16dbdad8bc3366f65e50fbc93baaa20791ad61043f81d78209d10c5".toList
  dataSha256 := "a3baf0e0d539c8399a65d07fe1a555c919be4c27492bd2e6fe68cea5649ec81d".toList
  fingerprintSha256 := "7ba76aa6a0b10598d2fa6a02d70a3daff91eb63714bd6aebcf51ccfc5d6baadc".toList

/-- The order of definitions and rows does not show; another definition and another row do. -/
theorem identifiesData_example :
    measure hexLower exampleSha256 .mysql exampleChallenge exampleSchema
        [⟨[5], [[6], [6, 7]], rfl⟩] = .ok exampleManifest ∧
      measure hexLower exampleSha256 .mysql exampleChallenge exampleSchema.reverse
        [⟨[5], [[6, 7], [6]], rfl⟩] = .ok exampleManifest ∧
      exampleSchema.Perm exampleSchema.reverse ∧
      finish hexLower exampleSha256 .mysql exampleChallenge ⟨changedSchema, [changedRecord]⟩ =
        .ok changedManifest ∧
      exampleManifest.schemaSha256 ≠ changedManifest.schemaSha256 ∧
      exampleManifest.dataSha256 ≠ changedManifest.dataSha256 := by
  have hidentifies := identifiesData hexLower exampleSha256
  have hmeasured : measure hexLower exampleSha256 .mysql exampleChallenge exampleSchema
      [⟨[5], [[6], [6, 7]], rfl⟩] = .ok exampleManifest := by decide +kernel
  have hfinished : finish hexLower exampleSha256 .mysql exampleChallenge
      ⟨exampleSchema, [exampleRecord]⟩ = .ok exampleManifest := by decide +kernel
  have hswapped : finish hexLower exampleSha256 .mysql exampleChallenge
      ⟨exampleSchema.reverse, [exampleRecord]⟩ = .ok exampleManifest := by decide +kernel
  have hchanged : finish hexLower exampleSha256 .mysql exampleChallenge
      ⟨changedSchema, [changedRecord]⟩ = .ok changedManifest := by decide +kernel
  refine ⟨hmeasured, (hidentifies.reordered _ _ _ _ _ _ ?_ ?_ _).mp hmeasured, ?_, hchanged, ?_, ?_⟩
  · exact (List.reverse_perm _).symm
  · exact ⟨_, List.Perm.refl _, .cons ⟨rfl, List.Perm.swap _ _ _⟩ .nil⟩
  · have hmessage : schemaMessage .mysql (sortSchema exampleSchema) =
        schemaMessage .mysql (sortSchema exampleSchema.reverse) := by decide +kernel
    exact (hidentifies.schema _ _ _ _ _ _ _ _ hfinished hswapped
      (Set.injOn_pair.mpr fun _ => hmessage) rfl).2
  · intro heq
    have hapart : exampleSha256 (schemaMessage .mysql (sortSchema exampleSchema)) ≠
        exampleSha256 (schemaMessage .mysql (sortSchema changedSchema)) := by decide +kernel
    have hsame := hidentifies.schema _ _ _ _ _ _ _ _ hfinished hchanged
      (Set.injOn_pair.mpr fun h => absurd h hapart) heq
    exact absurd hsame.2 (by decide +kernel)
  · intro heq
    have hapart : exampleSha256 (dataMessage .mysql exampleChallenge (sortData [exampleRecord])) ≠
        exampleSha256 (dataMessage .mysql exampleChallenge (sortData [changedRecord])) := by
      decide +kernel
    have hsame := hidentifies.data _ _ _ _ _ _ _ _ hfinished hchanged
      (Set.injOn_pair.mpr fun h => absurd h hapart) heq
    exact absurd hsame.2.2 (by decide +kernel)

end Placement

end DatabasesEverywhere
