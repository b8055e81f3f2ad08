import DatabasesEverywhere.Foundations.Cursors
import DatabasesEverywhere.Foundations.Result

/-!
# Gateway/ClickhouseNative — the hello of a native ClickHouse client

    hello = 0 ‖ name ‖ major ‖ minor ‖ revision ‖ database ‖ user ‖ password ‖ …
    text  = length ‖ bytes            number = septets, low ones first, all but the last with 0x80

The gateway routes on the user and the database, and puts the database it has found into the packet.
The reader takes any spelling of a number of up to ten bytes; the writer writes the shortest.  The
fields around the database are cut out of the one packet and stand in the other as they were
(`Cursor.Framed`).
-/

open Foundations

namespace DatabasesEverywhere.ClickhouseNative

open Cursor

/-! ## The packet -/

structure ClickhouseRoute where
  username : Text
  database : Text
  deriving DecidableEq

inductive ClickhouseParseError
  | missingUsername
  | incompleteNativeHello
  | invalidNativeHello
  | invalidNativeUtf8
  deriving DecidableEq

def clientHelloPacketType : ℕ := 0

/-- The methods of the source's `NativeReader`. -/
abbrev NativeReader := Cursor ClickhouseParseError

namespace NativeReader

/-- `(0..64).step_by(7)`. -/
def uvarintShifts : List ℕ := (List.range 10).map (7 * ·)

/-- The loop of `read_uvarint`; the shift drops what does not fit in a `u64`. -/
def readSeptets : List ℕ → ℕ → NativeReader ℕ
  | [], _ => Cursor.fail .invalidNativeHello
  | shift :: shifts, value => do
    let byte ← Cursor.nextByte .incompleteNativeHello
    let value := value ||| (byte &&& 0x7f).toNat <<< shift % 2 ^ 64
    if byte &&& 0x80 = 0 then pure value else readSeptets shifts value

def readUvarint : NativeReader ℕ := readSeptets uvarintShifts 0

/-- `from_utf8`, with the reader's error. -/
def text (bytes : Bytes) : NativeReader Text :=
  match Text.fromUtf8 bytes with
  | some text => pure text
  | none => Cursor.fail .invalidNativeUtf8

def readString : NativeReader Text := do
  let len ← readUvarint
  let value ← Cursor.takeBytes .invalidNativeHello .incompleteNativeHello len
  text value

def skipClientIdentity : NativeReader Unit := do
  let _ ← readString
  let _ ← readUvarint
  let _ ← readUvarint
  let _ ← readUvarint
  pure ()

/-- The packet type. -/
def readPacketType : NativeReader Unit := do
  let packetType ← readUvarint
  if packetType ≠ clientHelloPacketType then Cursor.fail .invalidNativeHello else pure ()

def initialRoute : NativeReader ClickhouseRoute := do
  readPacketType
  skipClientIdentity
  let database ← readString
  let username ← readString
  let _ ← readString
  if username.bytes.isEmpty then Cursor.fail .missingUsername else pure ⟨username, database⟩

/-- Where the database starts and ends. -/
def databaseRange : NativeReader (ℕ × ℕ) := do
  let _ ← readUvarint
  skipClientIdentity
  let databaseStart ← Cursor.offset
  let _ ← readString
  let databaseEnd ← Cursor.offset
  pure (databaseStart, databaseEnd)

end NativeReader

variable (bytes : Bytes)

def parseNativeInitialRoute : Except ClickhouseParseError ClickhouseRoute :=
  NativeReader.initialRoute.parse bytes

variable {value : ℕ}

theorem shiftRight_lt (h : value >>> 7 ≠ 0) : value >>> 7 < value := by
  rw [Nat.shiftRight_eq_div_pow] at h ⊢
  exact Nat.div_lt_self (Nat.pos_of_ne_zero fun hzero => h (by rw [hzero, Nat.zero_div]))
    (by decide)

def writeUvarint (bytes : Bytes) (value : ℕ) : Bytes :=
  let byte := (value &&& 0x7f).toUInt8
  if _h : value >>> 7 ≠ 0 then writeUvarint (bytes ++ [byte ||| 0x80]) (value >>> 7)
  else bytes ++ [byte]
termination_by value
decreasing_by exact shiftRight_lt _h

def nativeHelloWithDatabase (database : Text) : Except ClickhouseParseError Bytes := do
  let _ ← parseNativeInitialRoute bytes
  if database.bytes.isEmpty then .error .invalidNativeHello
  else
    let (databaseStart, databaseEnd) ← NativeReader.databaseRange.parse bytes
    .ok (writeUvarint (bytes.take databaseStart) database.bytes.length ++ database.bytes ++
      bytes.drop databaseEnd)

/-! ## Numbers -/

theorem writeUvarint_of_lt (h : value < 128) (bytes : Bytes) :
    writeUvarint bytes value = bytes ++ [(value % 128).toUInt8] := by
  rw [writeUvarint, dif_neg]
  · rw [show (0x7f : ℕ) = 2 ^ 7 - 1 from rfl, Nat.and_two_pow_sub_one_eq_mod]
  · rw [Nat.shiftRight_eq_div_pow, Nat.div_eq_of_lt h]
    exact fun hne => hne rfl

theorem writeUvarint_of_ge (h : 128 ≤ value) (bytes : Bytes) :
    writeUvarint bytes value =
      writeUvarint (bytes ++ [(value % 128).toUInt8 ||| 0x80]) (value / 128) := by
  rw [writeUvarint, dif_pos]
  · rw [show (0x7f : ℕ) = 2 ^ 7 - 1 from rfl, Nat.and_two_pow_sub_one_eq_mod,
      Nat.shiftRight_eq_div_pow]
  · rw [Nat.shiftRight_eq_div_pow]
    exact Nat.pos_iff_ne_zero.mp (Nat.div_pos h (by decide))

/-- The writer appends. -/
theorem writeUvarint_append (value : ℕ) (bytes : Bytes) :
    writeUvarint bytes value = bytes ++ writeUvarint [] value := by
  induction value using Nat.strong_induction_on generalizing bytes with
  | _ value ih =>
    by_cases h : value < 128
    · rw [writeUvarint_of_lt h, writeUvarint_of_lt h, List.nil_append]
    · have hlt : value / 128 < value := Nat.div_lt_self (by omega) (by decide)
      rw [writeUvarint_of_ge (Nat.not_lt.mp h), writeUvarint_of_ge (Nat.not_lt.mp h), ih _ hlt,
        ih _ hlt ([] ++ _), List.nil_append, List.append_assoc]

/-- The number in a byte, and whether it is the last one. -/
theorem septet (n : ℕ) :
    ((n % 128).toUInt8 &&& 0x7f).toNat = n % 128 ∧ (n % 128).toUInt8 &&& 0x80 = 0 ∧
      (((n % 128).toUInt8 ||| 0x80) &&& 0x7f).toNat = n % 128 ∧
      ((n % 128).toUInt8 ||| 0x80) &&& 0x80 ≠ 0 := by
  have hall : ∀ m : Fin 128, ((m : ℕ).toUInt8 &&& 0x7f).toNat = m ∧ (m : ℕ).toUInt8 &&& 0x80 = 0 ∧
      (((m : ℕ).toUInt8 ||| 0x80) &&& 0x7f).toNat = m ∧
      ((m : ℕ).toUInt8 ||| 0x80) &&& 0x80 ≠ 0 := by decide +kernel
  exact hall ⟨n % 128, Nat.mod_lt _ (by decide)⟩

/-- One septet more: nothing is lost as long as the number fits. -/
theorem or_septet {n k : ℕ} (hvalue : value < 2 ^ (7 * k)) (hn : n < 2 ^ (64 - 7 * k))
    (hk : k ≤ 9) : value ||| (n % 128) <<< (7 * k) % 2 ^ 64 = value + n % 128 * 2 ^ (7 * k) := by
  have hfits : n % 128 * 2 ^ (7 * k) < 2 ^ 64 := by
    calc n % 128 * 2 ^ (7 * k)
      _ ≤ n * 2 ^ (7 * k) := Nat.mul_le_mul_right _ (Nat.mod_le _ _)
      _ < 2 ^ (64 - 7 * k) * 2 ^ (7 * k) := Nat.mul_lt_mul_of_pos_right hn (Nat.two_pow_pos _)
      _ = 2 ^ 64 := by rw [← Nat.pow_add, Nat.sub_add_cancel (by omega)]
  rw [Nat.shiftLeft_eq, Nat.mod_eq_of_lt hfits, Nat.or_comm, Nat.mul_comm,
    ← Nat.two_pow_add_eq_or_of_lt hvalue, Nat.add_comm]

namespace NativeReader

theorem uvarintShifts_drop {k : ℕ} (hk : k ≤ 9) :
    uvarintShifts.drop k = 7 * k :: uvarintShifts.drop (k + 1) := by
  have hlt : k < uvarintShifts.length := by
    rw [uvarintShifts, List.length_map, List.length_range]
    omega
  rw [List.drop_eq_getElem_cons hlt]
  simp [uvarintShifts]

variable {fits : ℕ → Prop}

/-- **Reading back what is written**, from any septet on. -/
theorem reads_septets (n : ℕ) : ∀ {k value : ℕ}, k ≤ 9 → value < 2 ^ (7 * k) →
    n < 2 ^ (64 - 7 * k) →
    (readSeptets (uvarintShifts.drop k) value).Reads fits (writeUvarint [] n)
      (value + n * 2 ^ (7 * k)) := by
  induction n using Nat.strong_induction_on with
  | _ n ih =>
    intro k value hk hvalue hn
    obtain ⟨hlow, hlast, hlow', hnext⟩ := septet n
    rw [uvarintShifts_drop hk, readSeptets]
    by_cases h : n < 128
    · rw [writeUvarint_of_lt h, List.nil_append]
      refine (reads_nextByte _ _).bind_last ?_
      rw [if_pos hlast, hlow, or_septet hvalue hn hk, Nat.mod_eq_of_lt h]
      exact reads_pure _
    have hlt : n / 128 < n := Nat.div_lt_self (by omega) (by decide)
    have hk' : k + 1 ≤ 9 := by
      by_contra hge
      obtain rfl : k = 9 := by omega
      exact h (hn.trans (by decide))
    have hdiv : n / 128 < 2 ^ (64 - 7 * (k + 1)) := by
      refine Nat.div_lt_of_lt_mul ?_
      rwa [show (128 : ℕ) = 2 ^ 7 from rfl, ← Nat.pow_add, show 7 + (64 - 7 * (k + 1)) = 64 - 7 * k
        from by omega]
    have hpow : 2 ^ (7 * (k + 1)) = 128 * 2 ^ (7 * k) := by
      rw [Nat.mul_succ, Nat.add_comm, Nat.pow_add]
    have hsum : value + n % 128 * 2 ^ (7 * k) < 2 ^ (7 * (k + 1)) := by
      have hmul : (n % 128 + 1) * 2 ^ (7 * k) ≤ 128 * 2 ^ (7 * k) :=
        Nat.mul_le_mul_right _ (Nat.mod_lt n (by decide))
      rw [Nat.succ_mul] at hmul
      omega
    have hvalue' : value + n % 128 * 2 ^ (7 * k) + n / 128 * 2 ^ (7 * (k + 1)) =
        value + n * 2 ^ (7 * k) := by
      conv_rhs => rw [← Nat.mod_add_div n 128]
      ring
    rw [writeUvarint_of_ge (Nat.not_lt.mp h), List.nil_append, writeUvarint_append]
    refine (reads_nextByte _ _).bind ?_
    rw [if_neg hnext, hlow', or_septet hvalue hn hk, ← hvalue']
    exact ih (n / 128) hlt hk' hsum hdiv

theorem reads_uvarint {n : ℕ} (hn : n < 2 ^ 64) : readUvarint.Reads fits (writeUvarint [] n) n := by
  have hreads := @reads_septets fits n 0 0 (by decide) (by decide) hn
  rw [Nat.mul_zero, Nat.pow_zero, Nat.mul_one, Nat.zero_add] at hreads
  exact hreads

/-! ## Fields -/

theorem framed_septets : ∀ (shifts : List ℕ) (value : ℕ), (readSeptets shifts value).Framed Cursor.inMemory
  | [], _ => framed_fail _
  | _ :: shifts, _ =>
    (framed_nextByte _).bind fun _ =>
      framed_ite _ (framed_pure _) (framed_septets shifts _)

theorem framed_uvarint : readUvarint.Framed Cursor.inMemory := framed_septets _ _

theorem framed_text : (text bytes).Framed Cursor.inMemory := by
  unfold text
  split
  · exact framed_pure _
  · exact framed_fail _

theorem framed_string : readString.Framed Cursor.inMemory :=
  framed_uvarint.bind fun _ => (framed_takeBytes _ _ _).bind framed_text

theorem framed_clientIdentity : skipClientIdentity.Framed Cursor.inMemory :=
  framed_string.bind fun _ => framed_uvarint.bind fun _ => framed_uvarint.bind fun _ =>
    framed_uvarint.bind fun _ => framed_pure _

/-- The field of a text. -/
def field (text : Text) : Bytes := writeUvarint [] text.bytes.length ++ text.bytes

theorem reads_field {text : Text} (h : text.bytes.length < 2 ^ 64) :
    readString.Reads Cursor.inMemory (field text) text := by
  refine (reads_uvarint h).bind ?_
  refine (reads_takeBytes _ _ text.bytes).bind_last ?_
  rw [NativeReader.text, Text.fromUtf8_bytes]
  exact reads_pure text

/-! ## The hello in its fields -/

/-- The fields up to the password. -/
structure Hello (packetType identity field user password : Bytes) (username database : Text) :
    Prop where
  packetType : readUvarint.Reads Cursor.inMemory packetType clientHelloPacketType
  identity : skipClientIdentity.Reads Cursor.inMemory identity ()
  database : readString.Reads Cursor.inMemory field database
  user : readString.Reads Cursor.inMemory user username
  password : ∃ secret, readString.Reads Cursor.inMemory password secret
  nonempty : username.bytes ≠ []

section Hello

variable {packetType identity field user password : Bytes} {bytes} {username database : Text}

/-- A hello that is accepted has its fields. -/
theorem initialRoute_eq_ok {stop : ℕ}
    (h : initialRoute bytes 0 = .ok (⟨username, database⟩, stop)) :
    ∃ packetType identity field user password rest,
      bytes = packetType ++ (identity ++ (field ++ (user ++ (password ++ rest)))) ∧
      Hello packetType identity field user password username database := by
  -- Field after field, each behind the one before it.
  obtain ⟨_, s₁, h₁, h⟩ := bind_eq_ok.mp h
  obtain ⟨found, s₀, h₀, h₁⟩ := bind_eq_ok.mp h₁
  obtain ⟨_, s₂, h₂, h⟩ := bind_eq_ok.mp h
  obtain ⟨database', s₃, h₃, h⟩ := bind_eq_ok.mp h
  obtain ⟨username', s₄, h₄, h⟩ := bind_eq_ok.mp h
  obtain ⟨secret, s₅, h₅, h⟩ := bind_eq_ok.mp h
  obtain ⟨packetType, rest₀, hdrop₀, rfl, hpacketType⟩ := framed_uvarint (Nat.zero_le _) h₀
  obtain ⟨hbehind₀, hle₀⟩ := drop_field (Nat.zero_le _) hdrop₀
  obtain ⟨rfl, rfl⟩ : found = clientHelloPacketType ∧ s₁ = 0 + packetType.length := by
    split at h₁
    · cases h₁
    · next hfound =>
      exact ⟨not_not.mp hfound, (Prod.mk.inj (Except.ok.inj h₁)).2.symm⟩
  obtain ⟨identity, rest₁, hdrop₁, rfl, hidentity⟩ := framed_clientIdentity hle₀ h₂
  obtain ⟨hbehind₁, hle₁⟩ := drop_field hle₀ hdrop₁
  obtain ⟨field, rest₂, hdrop₂, rfl, hdatabase⟩ := framed_string hle₁ h₃
  obtain ⟨hbehind₂, hle₂⟩ := drop_field hle₁ hdrop₂
  obtain ⟨user, rest₃, hdrop₃, rfl, huser⟩ := framed_string hle₂ h₄
  obtain ⟨hbehind₃, hle₃⟩ := drop_field hle₂ hdrop₃
  obtain ⟨password, rest, hdrop, rfl, hpassword⟩ := framed_string hle₃ h₅
  split at h
  · cases h
  next hnonempty =>
  obtain ⟨rfl, rfl⟩ := ClickhouseRoute.mk.inj (Prod.mk.inj (Except.ok.inj h)).1
  refine ⟨packetType, identity, field, user, password, rest, ?_, hpacketType, hidentity,
    hdatabase, huser, ⟨secret, hpassword⟩, by simpa using hnonempty⟩
  rw [← hdrop, hbehind₃, ← hdrop₃, hbehind₂, ← hdrop₂, hbehind₁, ← hdrop₁, hbehind₀, ← hdrop₀,
    List.drop_zero]

variable (h : Hello packetType identity field user password username database)
include h

/-- … and fields make a hello. -/
theorem Hello.reads :
    initialRoute.Reads Cursor.inMemory (packetType ++ (identity ++ (field ++ (user ++ password))))
      ⟨username, database⟩ := by
  obtain ⟨secret, hpassword⟩ := h.password
  have htype : readPacketType.Reads Cursor.inMemory packetType () := by
    refine h.packetType.bind_last ?_
    exact reads_pure ()
  refine htype.bind (h.identity.bind (h.database.bind (h.user.bind (hpassword.bind_last ?_))))
  rw [if_neg (by simpa using h.nonempty)]
  exact reads_pure _

/-- The second pass finds the database where the first one did. -/
theorem Hello.databaseRange {after : Bytes}
    (hbytes : bytes = packetType ++ (identity ++ (field ++ after)))
    (hsize : bytes.length ≤ usizeMax) :
    NativeReader.databaseRange.parse bytes =
      .ok ((packetType ++ identity).length, (packetType ++ identity).length + field.length) := by
  have hdrop₀ : bytes.drop 0 = packetType ++ (identity ++ (field ++ after)) := hbytes
  obtain ⟨hdrop₁, hle₁⟩ := drop_field (Nat.zero_le _) hdrop₀
  obtain ⟨hdrop₂, hle₂⟩ := drop_field hle₁ hdrop₁
  refine parse_eq_ok.mpr ⟨0 + packetType.length + identity.length + field.length, ?_⟩
  rw [NativeReader.databaseRange, bind_apply (h.packetType hsize (Nat.zero_le _) hdrop₀),
    bind_apply (h.identity hsize hle₁ hdrop₁), bind_apply (p := Cursor.offset) rfl,
    bind_apply (h.database hsize hle₂ hdrop₂), bind_apply (p := Cursor.offset) rfl,
    pure_apply, List.length_append, Nat.zero_add]

end Hello

end NativeReader

/-! ## The rewritten hello -/

/-- The database field of the packet is replaced, and nothing else. -/
def Rewritten (rewritten : Bytes) (old database : Text) : Prop :=
  ∃ before field after, bytes = before ++ field ++ after ∧
    NativeReader.readString.Reads Cursor.inMemory field old ∧
    rewritten = before ++ NativeReader.field database ++ after

/-- **A number is read back**, and the reader stops behind it. -/
theorem readUvarint_writeUvarint (value : UInt64) (before suffix : Bytes) :
    NativeReader.readUvarint (writeUvarint before value.toNat ++ suffix) before.length =
      .ok (value.toNat, (writeUvarint before value.toNat).length) := by
  have hreads := @NativeReader.reads_uvarint (fun _ => True) value.toNat value.toNat_lt
  rw [writeUvarint_append, List.append_assoc, List.length_append]
  exact hreads trivial (by simp) List.drop_left

/-- **No written number begins another**: a number and what follows are told apart. -/
theorem writeUvarint_injective :
    Function.Injective fun x : UInt64 × Bytes => writeUvarint [] x.1.toNat ++ x.2 := by
  rintro ⟨first, x⟩ ⟨second, y⟩ heq
  have hread := readUvarint_writeUvarint first [] x
  dsimp only at heq
  rw [heq, readUvarint_writeUvarint] at hread
  obtain rfl : second = first := UInt64.toNat_inj.mp (congrArg Prod.fst (Except.ok.inj hread))
  rw [List.append_cancel_left heq]

theorem length_writeUvarint {n : ℕ} : ∀ {k : ℕ}, n < 2 ^ (7 * (k + 1)) →
    (writeUvarint [] n).length ≤ k + 1 := by
  induction n using Nat.strong_induction_on with
  | _ n ih =>
    intro k hn
    by_cases h : n < 128
    · rw [writeUvarint_of_lt h]
      simp
    have hlt : n / 128 < n := Nat.div_lt_self (by omega) (by decide)
    obtain ⟨k, rfl⟩ : ∃ j, k = j + 1 := by
      refine Nat.exists_eq_succ_of_ne_zero fun hzero => h ?_
      rw [hzero] at hn
      exact hn
    have hdiv : n / 128 < 2 ^ (7 * (k + 1)) := by
      refine Nat.div_lt_of_lt_mul (hn.trans_eq ?_)
      rw [show (128 : ℕ) = 2 ^ 7 from rfl, ← Nat.pow_add]
      congr 1
      omega
    have hlength := ih (n / 128) hlt hdiv
    rw [writeUvarint_of_ge (Nat.not_lt.mp h), writeUvarint_append, List.length_append]
    simp only [List.nil_append, List.length_singleton]
    omega

/-- **The hello with another database**, and numbers that are read back.  The packets fit in
memory: the new one is at most ten bytes and the database longer. -/
theorem native_hello_with_database (bytes : Bytes) (username old database : Text)
    (hparse : parseNativeInitialRoute bytes = .ok ⟨username, old⟩) (hdatabase : database.bytes ≠ [])
    (hsize : bytes.length + 10 + database.bytes.length ≤ usizeMax) :
    (∃ rewritten, nativeHelloWithDatabase bytes database = .ok rewritten ∧
      Rewritten bytes rewritten old database ∧
      parseNativeInitialRoute rewritten = .ok ⟨username, database⟩) ∧
    ∀ (value : UInt64) (before suffix : Bytes),
      NativeReader.readUvarint (writeUvarint before value.toNat ++ suffix) before.length =
        .ok (value.toNat, (writeUvarint before value.toNat).length) := by
  refine ⟨?_, readUvarint_writeUvarint⟩
  obtain ⟨stop, hroute⟩ := Cursor.parse_eq_ok.mp hparse
  obtain ⟨packetType, identity, field, user, password, rest, hbytes, hhello⟩ :=
    NativeReader.initialRoute_eq_ok hroute
  have hlen : database.bytes.length < 2 ^ 64 := by
    simp only [usizeMax] at hsize
    omega
  have hreads := NativeReader.reads_field hlen
  have hrange := hhello.databaseRange hbytes (by omega)
  have hfield := @length_writeUvarint database.bytes.length 9 (hlen.trans (by decide))
  -- The new packet is a hello with the new field.
  have hnew : NativeReader.Hello packetType identity (NativeReader.field database) user password
      username database := { hhello with database := hreads }
  have hsplit : bytes = (packetType ++ identity) ++ field ++ (user ++ (password ++ rest)) := by
    rw [hbytes]
    simp only [List.append_assoc]
  have htake : bytes.take (packetType ++ identity).length = packetType ++ identity := by
    rw [hsplit, List.append_assoc, List.take_left]
  have hdrop : bytes.drop ((packetType ++ identity).length + field.length) =
      user ++ (password ++ rest) := by
    rw [hsplit, ← List.length_append, List.drop_left]
  have hrewritten : nativeHelloWithDatabase bytes database =
      .ok ((packetType ++ identity) ++ NativeReader.field database ++
        (user ++ (password ++ rest))) := by
    rw [nativeHelloWithDatabase, hparse, ok_bind, if_neg (by simpa using hdatabase), hrange, ok_bind]
    simp only [htake, hdrop, writeUvarint_append database.bytes.length (packetType ++ identity),
      NativeReader.field, List.append_assoc]
  have hfits : ((packetType ++ identity) ++ NativeReader.field database ++
      (user ++ (password ++ rest))).length ≤ usizeMax := by
    have hlength := congrArg List.length hsplit
    simp only [List.length_append, NativeReader.field] at hlength ⊢
    omega
  have hfields : ((packetType ++ identity) ++ NativeReader.field database ++
      (user ++ (password ++ rest))).drop 0 =
      packetType ++ (identity ++ (NativeReader.field database ++ (user ++ password))) ++ rest := by
    simp only [List.drop_zero, List.append_assoc]
  exact ⟨_, hrewritten, ⟨_, field, _, hsplit, hhello.database, rfl⟩,
    Cursor.parse_eq_ok.mpr ⟨_, hnew.reads hfits (Nat.zero_le _) hfields⟩⟩

/-- A hello without a database, and the bytes behind it. -/
def jdbcHello : Bytes :=
  writeUvarint [] 0 ++ (writeUvarint [] 4 ++ ascii "JDBC") ++ writeUvarint [] 25 ++
    writeUvarint [] 6 ++ writeUvarint [] 54468 ++ writeUvarint [] 0 ++
    (writeUvarint [] 3 ++ ascii "app") ++ (writeUvarint [] 6 ++ ascii "secret") ++ ascii "next"

theorem native_hello_with_database_jdbc :
    ∃ rewritten, nativeHelloWithDatabase jdbcHello ⟨ascii "db", by decide⟩ = .ok rewritten ∧
      parseNativeInitialRoute rewritten =
        .ok ⟨⟨ascii "app", by decide⟩, ⟨ascii "db", by decide⟩⟩ := by
  obtain ⟨⟨rewritten, hrewritten, -, hparse⟩, -⟩ := native_hello_with_database jdbcHello
    ⟨ascii "app", by decide⟩ ⟨[], rfl⟩ ⟨ascii "db", by decide⟩ (by decide +kernel) (by decide)
    (by decide +kernel)
  exact ⟨rewritten, hrewritten, hparse⟩

end DatabasesEverywhere.ClickhouseNative
